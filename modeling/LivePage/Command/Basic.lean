import LivePage.Command.Switch

/-!
# Commands

What the command line can ask for: to render, analyze or validate a page, or to dispatch one
event on it.
-/

namespace LivePage

inductive Task where
  | render (page : String) (context? : Option String) (debug tracking : Bool)
  | analyze (page : String)
  | validate (page : String)
  | dispatch (page : String) (context? : Option String) (event data : String)
deriving DecidableEq, Repr

structure Command where
  verbose : Bool := false
  config? : Option String := none
  task : Task
deriving DecidableEq, Repr

/-- What a command line asks for. -/
inductive Invocation where
  | command (c : Command)
  /-- To print a text. -/
  | print (lines : List String)
  | wrong (e : UsageError)
deriving DecidableEq, Repr

namespace Command

/-- A word of the command line, and the switches that may follow it. -/
structure Word where
  name : String
  help : String
  switches : List Switch
  required : List String

def globals : List Switch := [
  { name := "verbose", letter := some 'v'
    help := "Log at debug level unless RUST_LOG says otherwise" },
  { name := "config", operand := .path, help := "Engine configuration file (JSON)" }]

def pageSwitch : Switch :=
  { name := "schema", letter := some 's', operand := .path, help := "Schema file (JSON)" }

def contextSwitch : Switch := {
  name := "context", letter := some 'c', operand := .path
  help := "Context file (JSON object with data/state/variables/params/query/user/tenant)" }

def words : List Word := [
  { name := "render", help := "Render a schema and print the result tree"
    switches := [pageSwitch, contextSwitch,
      { name := "debug", help := "Bypass the cache and keep debug information" },
      { name := "perf", help := "Attach performance counters to the result" }]
    required := ["schema"] },
  { name := "analyze", help := "Print tree statistics and data dependencies"
    switches := [{ pageSwitch with help := "" }], required := ["schema"] },
  { name := "validate", help := "Check structural validity; exits non-zero when invalid"
    switches := [{ pageSwitch with help := "" }], required := ["schema"] },
  { name := "dispatch", help := "Mount a schema, fire one event and print the resulting state"
    switches := [pageSwitch, contextSwitch,
      { name := "event", letter := some 'e', operand := .text, help := "Event name, e.g. `click`" },
      { name := "data", letter := some 'd', operand := .text
        help := "Event payload as inline JSON [default: null]" }]
    required := ["schema", "event"] }]

def word? (name : String) : Option Word := words.find? (·.name == name)

/-! ## Help -/

def padTo (width : Nat) (s : String) : String :=
  s ++ String.ofList (List.replicate (width - s.length) ' ')

/-- Rows of two columns. -/
def table (rows : List (String × String)) : List String :=
  let width := (rows.map (·.1.length)).foldl max 0
  rows.map fun (l, r) => "  " ++ padTo width l ++ "  " ++ r

/-- How a value is named in a help text. -/
def operandName (x : Switch) : String :=
  if x.operand = .none then "" else " <" ++ (x.name.map Char.toUpper) ++ ">"

def synopsis (x : Switch) : String :=
  (match x.letter with
    | some c => String.ofList ['-', c] ++ ", "
    | none => "    ") ++ "--" ++ x.name ++ operandName x

def switchTable (xs : List Switch) : List String := table (xs.map fun x => (synopsis x, x.help))

/-- The word that asks for help, and what it is for. -/
def helpRow : String × String :=
  ("help", "Print this message or the help of the given subcommand(s)")

def help : List String :=
  ["Schema-driven rendering and interaction engine for low-code pages", "",
    "Usage: lowcoder [OPTIONS] <COMMAND>", "", "Commands:"] ++
  table (words.map (fun w => (w.name, w.help)) ++ [helpRow]) ++
  ["", "Options:"] ++ switchTable (globals ++ [Switch.helpSwitch, Switch.versionSwitch])

/-- Switches with the same place are in order of their letters, and of their names without one. -/
def sortKey (x : Switch) : String :=
  match x.letter with
  | some c => String.ofList [c.toLower, if c.isLower then '0' else '1']
  | none => x.name

/-- The switches of a word and the global ones, each by its place among its own. -/
def ordered (switches : List Switch) : List Switch :=
  ((switches.zipIdx ++ globals.zipIdx).mergeSort fun (x, i) (y, j) =>
    i < j || (i == j && !(sortKey y < sortKey x))).map (·.1)

def wordHelp (w : Word) : List String :=
  let needed := (w.switches.filter fun x => w.required.contains x.name).map fun x =>
    " --" ++ x.name ++ operandName x
  [w.help, "", "Usage: lowcoder " ++ w.name ++ " [OPTIONS]" ++ String.join needed, "",
    "Options:"] ++
  switchTable (ordered w.switches ++ [Switch.helpSwitch])

/-- The help on asking for help. -/
def helpHelp : List String :=
  [helpRow.2, "", "Usage: lowcoder help [COMMAND]...", "", "Arguments:"] ++
  table [("[COMMAND]...", "Print help for the subcommand(s)")]

def version : List String := ["lowcoder-runtime 0.1.0"]

/-! ## Reading -/

def requiredSetting (s : Settings) (name : String) : Except UsageError String :=
  match s.lookup name with
  | some v => .ok v
  | none => .error (.required name)

/-- The task of a word with its settings. -/
def taskOf (name : String) (s : Settings) : Except UsageError Task := do
  let page ← requiredSetting s "schema"
  match name with
  | "render" =>
    return .render page (s.lookup "context") (s.lookup "debug").isSome (s.lookup "perf").isSome
  | "analyze" => return .analyze page
  | "validate" => return .validate page
  | _ =>
    let event ← requiredSetting s "event"
    return .dispatch page (s.lookup "context") event ((s.lookup "data").getD "null")

/-- The help on a word, or on everything. -/
def helpOn : List String → Invocation
  | [] => .print help
  | [name] =>
    match word? name with
    | some w => .print (wordHelp w)
    | none => if name = helpRow.1 then .print helpHelp else .wrong (.unknown name)
  | name :: rest :: _ => .wrong (.unknown (if (word? name).isSome then rest else name))

/-- Reads a command behind its word. The settings behind the word come before those in front. -/
def readWord (outer : Settings) (w : Word) (args : List String) : Invocation :=
  match Switch.read (w.switches ++ globals ++ [Switch.helpSwitch]) [] args none [] with
  | .error (.usage e) => .wrong e
  | .error _ => .print (wordHelp w)
  | .ok (inner, _) =>
    match taskOf w.name inner with
    | .error e => .wrong e
    | .ok task =>
      let s := inner ++ outer
      .command ⟨(s.lookup "verbose").isSome, s.lookup "config", task⟩

/-- Reads a command line. -/
def read (args : List String) : Invocation :=
  let known := globals ++ [Switch.helpSwitch, Switch.versionSwitch]
  match Switch.read known (helpRow.1 :: words.map (·.name)) args none [] with
  | .error (.usage e) => .wrong e
  | .error .help => .print help
  | .error .version => .print version
  | .ok (_, none) => .wrong .noCommand
  | .ok (outer, some (name, rest)) =>
    match word? name with
    | some w => readWord outer w rest
    | none => helpOn rest

/-- The files that a command reads, in order. -/
def paths (c : Command) : List String :=
  c.config?.toList ++ match c.task with
    | .render page context? _ _ => page :: context?.toList
    | .dispatch page context? _ _ => page :: context?.toList
    | .analyze page | .validate page => [page]

end Command

end LivePage
