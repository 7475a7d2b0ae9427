/-!
# Switches

A command line is a row of switches and at most one word, which names what is done with the rest
of it. A switch has a long name and maybe a letter; one that takes a value has it behind an
equals sign, behind its letter, or in the next argument.
-/

namespace LivePage

/-- What may stand behind a switch. -/
inductive Operand where
  | none
  /-- Text that must not be empty. -/
  | path
  | text
deriving DecidableEq, Repr

structure Switch where
  name : String
  letter : Option Char := none
  operand : Operand := .none
  help : String := ""
deriving DecidableEq, Repr

inductive UsageError where
  | unknown (argument : String)
  | repeated (name : String)
  | missingValue (name : String)
  | unexpectedValue (name : String)
  | emptyValue (name : String)
  | required (name : String)
  | noCommand
deriving DecidableEq, Repr

def UsageError.message : UsageError → String
  | unknown argument => s!"unexpected argument '{argument}' found"
  | repeated name => s!"the argument '--{name}' cannot be used multiple times"
  | missingValue name => s!"a value is required for '--{name}' but none was supplied"
  | unexpectedValue name => s!"unexpected value for '--{name}' found; no more were expected"
  | emptyValue name => s!"a value is required for '--{name}' but none was supplied"
  | required name => s!"the following required arguments were not provided: --{name}"
  | noCommand => "a command is required"

/-- Why reading a command line ends before its end. -/
inductive Halt where
  | help
  | version
  | usage (e : UsageError)
deriving DecidableEq, Repr

/-- The switches that were given, by name, with their values. -/
abbrev Settings := List (String × String)

namespace Switch

def helpSwitch : Switch := { name := "help", letter := some 'h', help := "Print help" }
def versionSwitch : Switch := { name := "version", letter := some 'V', help := "Print version" }

/-- Notes a switch with its value. -/
def note (x : Switch) (value : String) (s : Settings) : Except Halt Settings :=
  if x = helpSwitch then .error .help
  else if x = versionSwitch then .error .version
  else if (s.lookup x.name).isSome then .error (.usage (.repeated x.name))
  else if x.operand = .path ∧ value = "" then .error (.usage (.emptyValue x.name))
  else .ok (s ++ [(x.name, value)])

/-- Reads a switch by its long name, and tells whether its value is still to come. -/
def readLong (known : List Switch) (body : List Char) (s : Settings) :
    Except Halt (Option Switch × Settings) :=
  let name := String.ofList (body.takeWhile (· != '='))
  match known.find? (·.name == name), body.dropWhile (· != '=') with
  | none, _ => .error (.usage (.unknown ("--" ++ name)))
  | some x, [] => if x.operand = .none then (x.note "" s).map (none, ·) else .ok (some x, s)
  | some x, _ :: value =>
    if x.operand = .none then .error (.usage (.unexpectedValue name))
    else (x.note (String.ofList value) s).map (none, ·)

/-- Reads a row of letters. The first that takes a value takes the rest of the row for it. -/
def readLetters (known : List Switch) : List Char → Settings →
    Except Halt (Option Switch × Settings)
  | [], s => .ok (none, s)
  | c :: r, s =>
    match known.find? (·.letter == some c) with
    | none => .error (.usage (.unknown (String.ofList ['-', c])))
    | some x =>
      if x.operand = .none then (x.note "" s).bind (readLetters known r)
      else match r with
        | [] => .ok (some x, s)
        | '=' :: value => (x.note (String.ofList value) s).map (none, ·)
        | value => (x.note (String.ofList value) s).map (none, ·)

/-- Whether an argument is no value and no word: a minus sign alone may be either. -/
def looksLike (argument : String) : Bool :=
  argument.startsWith "-" && argument != "-"

/-- Reads arguments up to one of some words, where `open?` is a switch that waits for its value.
The rest is what follows the word. -/
def read (known : List Switch) (words : List String) :
    List String → (open? : Option Switch) → Settings →
    Except Halt (Settings × Option (String × List String))
  | [], none, s => .ok (s, none)
  | [], some x, _ => .error (.usage (.missingValue x.name))
  | a :: r, some x, s =>
    if looksLike a then .error (.usage (.missingValue x.name))
    else (x.note a s).bind (read known words r none)
  | a :: r, none, s =>
    match a.toList with
    | ['-', '-'] =>
      match r with
      | [] => .ok (s, none)
      | b :: _ => .error (.usage (.unknown b))
    | '-' :: '-' :: body => do
      let (open?, s) ← readLong known body s
      read known words r open? s
    | '-' :: c :: letters => do
      let (open?, s) ← readLetters known (c :: letters) s
      read known words r open? s
    | _ => if words.contains a then .ok (s, some (a, r)) else .error (.usage (.unknown a))

end Switch

end LivePage
