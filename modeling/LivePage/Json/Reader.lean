import LivePage.Json.Number
import LivePage.Text.Octets

/-!
# Reading documents

The text of a document is read into a tree that goes as far as the text can be read. A fault
stands in the tree at the place where it was met, so that whoever walks the tree in order meets
the first fault of the text, or an unwanted shape before it.
-/

namespace LivePage.Json

/-- A document as far as its text can be read. -/
inductive Tree where
  | null
  | bool (b : Bool)
  | num (n : Number)
  | str (s : String)
  /-- A list is `broken` where something else than an item or its end follows the last item. -/
  | arr (items : List Tree) (broken : Option Fault)
  /-- A key may be of no use, or not there at all; what it is a key of may then be skipped. -/
  | obj (members : List (Except Fault String × Tree)) (broken : Option Fault)
  /-- The text goes no further. -/
  | fault (f : Fault)
  /-- A word or a number that goes wrong behind its first character. -/
  | cut (f : Fault)
  /-- Well formed, but of no use: a number without float, text that is no text, a tree too deep.
  It can only be skipped. -/
  | unusable (t : Tree)
deriving Inhabited

/-- A document and what is wrong behind it. -/
structure Source where
  tree : Tree
  after : Option Fault

def isSpace (c : Char) : Bool := c == ' ' || c == '\n' || c == '\t' || c == '\r'

def skipSpace (cs : List Char) : List Char := cs.dropWhile isSpace

/-- The character of a one-letter escape. -/
def escaped? : Char → Option Char
  | '"' => some '"'
  | '\\' => some '\\'
  | '/' => some '/'
  | 'b' => some '\x08'
  | 'f' => some '\x0c'
  | 'n' => some '\n'
  | 'r' => some '\r'
  | 't' => some '\t'
  | _ => none

def hexValue? (c : Char) : Option Nat :=
  let n := c.toNat
  if '0' ≤ c ∧ c ≤ '9' then some (n - '0'.toNat)
  else if 'a' ≤ c ∧ c ≤ 'f' then some (n - 'a'.toNat + 10)
  else if 'A' ≤ c ∧ c ≤ 'F' then some (n - 'A'.toNat + 10)
  else none

def hexUnit? (a b c d : Char) : Option Nat := do
  return (((← hexValue? a) * 16 + (← hexValue? b)) * 16 + (← hexValue? c)) * 16 + (← hexValue? d)

/-- What has been read of a text: its characters, last first, the first half of a pair of units
that waits for the second, and whether every unit so far had its place. -/
structure Quoted where
  chars : List Char := []
  half : Option Nat := none
  sound : Bool := true

namespace Quoted

/-- A pair that stays without its second half makes the text unsound. -/
def push (q : Quoted) (c : Char) : Quoted :=
  ⟨c :: q.chars, none, q.sound && q.half.isNone⟩

def pushUnit (q : Quoted) (u : Nat) : Quoted :=
  let low := 0xdc00 ≤ u && u < 0xe000
  match q.half with
  | some h =>
    if low then
      ⟨Char.ofNat (0x10000 + (h - 0xd800) * 0x400 + (u - 0xdc00)) :: q.chars, none, q.sound⟩
    else ⟨q.chars, none, false⟩
  | none =>
    if low then ⟨q.chars, none, false⟩
    else if 0xd800 ≤ u && u < 0xdc00 then ⟨q.chars, some u, q.sound⟩
    else q.push (Char.ofNat u)

/-- A text between quotes: none where a unit has no place, whatever follows it. -/
def text? (q : Quoted) : Option String :=
  if q.sound && q.half.isNone then some (String.ofList q.chars.reverse) else none

end Quoted

/-- Reads up to the closing quote. What can be told of the text is told with a fault as well:
whether all units before it had their places. -/
def readQuoted (q : Quoted) : List Char → Except (Fault × Bool) (Option String × List Char)
  | [] => .error (.ended, q.sound)
  | '"' :: r => .ok (q.text?, r)
  | ['\\'] => .error (.ended, q.sound)
  | '\\' :: 'u' :: a :: b :: c :: d :: r =>
    match hexUnit? a b c d with
    | some u => readQuoted (q.pushUnit u) r
    | none => .error (.malformed, q.sound)
  | '\\' :: 'u' :: r =>
    .error (if 4 ≤ Text.byteLength r then .malformed else .ended, q.sound)
  | '\\' :: c :: r =>
    match escaped? c with
    | some e => readQuoted (q.push e) r
    | none => .error (.malformed, q.sound)
  | c :: r => if c < ' ' then .error (.malformed, q.sound) else readQuoted (q.push c) r

/-- Reads the letters of a word. -/
def readWord : List Char → List Char → Except Fault (List Char)
  | [], cs => .ok cs
  | _ :: _, [] => .error .ended
  | w :: ws, c :: cs => if w = c then readWord ws cs else .error .malformed

/-- How deep lists and objects may be nested. -/
def maxDepth : Nat := 127

/-- A word or a number; a number may be of no use. -/
def leaf : Except Fault (Option Tree × List Char) → Tree × Option (List Char)
  | .ok (t, r) => (t.getD (.unusable .null), some r)
  | .error f => (.cut f, none)

/-- A text. -/
def quoted : Except (Fault × Bool) (Option String × List Char) → Tree × Option (List Char)
  | .ok (s, r) => ((s.map .str).getD (.unusable .null), some r)
  | .error (f, sound) => (if sound then .fault f else .unusable (.fault f), none)

/-- A tree inside `depth` open lists and objects. -/
def inDepth (depth : Nat) (t : Tree) : Tree := if depth < maxDepth then t else .unusable t

mutual

/-- Reads a value, and gives what follows it if it could be read to its end. Every step takes a
character, so the length of the text is `fuel` enough. -/
def readTree : (fuel depth : Nat) → List Char → Tree × Option (List Char)
  | 0, _, cs => (.fault (faultAt cs), none)
  | fuel + 1, depth, cs =>
    match skipSpace cs with
    | [] => (.fault .ended, none)
    | 'n' :: r => leaf ((readWord "ull".toList r).map (some .null, ·))
    | 't' :: r => leaf ((readWord "rue".toList r).map (some (.bool true), ·))
    | 'f' :: r => leaf ((readWord "alse".toList r).map (some (.bool false), ·))
    | '"' :: r => quoted (readQuoted {} r)
    | '-' :: r => leaf ((readNumber true r).map fun (n, r) => (n.map .num, r))
    | '[' :: r =>
      match skipSpace r with
      | [] => (inDepth depth (.arr [] (some .ended)), none)
      | ']' :: r => (inDepth depth (.arr [] none), some r)
      | r =>
        let (items, broken, rest) := readItems fuel (depth + 1) [] r
        (inDepth depth (.arr items broken), rest)
    | '{' :: r =>
      match skipSpace r with
      | [] => (inDepth depth (.obj [] (some .ended)), none)
      | '}' :: r => (inDepth depth (.obj [] none), some r)
      | r =>
        let (members, broken, rest) := readMembers fuel (depth + 1) [] r
        (inDepth depth (.obj members broken), rest)
    | c :: r =>
      if c.isDigit then leaf ((readNumber false (c :: r)).map fun (n, r) => (n.map .num, r))
      else (.fault .malformed, none)

/-- Reads items up to the end of their list. -/
def readItems : (fuel depth : Nat) → List Tree → List Char →
    List Tree × Option Fault × Option (List Char)
  | 0, _, acc, cs => (acc.reverse, some (faultAt cs), none)
  | fuel + 1, depth, acc, cs =>
    match readTree fuel depth cs with
    | (t, none) => ((t :: acc).reverse, none, none)
    | (t, some r) =>
      match skipSpace r with
      | ']' :: r => ((t :: acc).reverse, none, some r)
      | ',' :: r =>
        match skipSpace r with
        | [] => ((t :: acc).reverse, some .ended, none)
        | ']' :: _ => ((t :: acc).reverse, some .malformed, none)
        | r => readItems fuel depth (t :: acc) r
      | r => ((t :: acc).reverse, some (faultAt r), none)

/-- Reads members up to the end of their object. -/
def readMembers : (fuel depth : Nat) → List (Except Fault String × Tree) → List Char →
    List (Except Fault String × Tree) × Option Fault × Option (List Char)
  | 0, _, acc, cs => (acc.reverse, some (faultAt cs), none)
  | fuel + 1, depth, acc, cs =>
    let last (key : Except Fault String) (t : Tree) :
        List (Except Fault String × Tree) × Option Fault × Option (List Char) :=
      (((key, t) :: acc).reverse, none, none)
    match cs with
    | '"' :: r =>
      match readQuoted {} r with
      | .error (f, sound) => last (.error (if sound then f else .malformed)) (.fault f)
      | .ok (key?, r) =>
        let key : Except Fault String := match key? with
          | some key => .ok key
          | none => .error .malformed
        match skipSpace r with
        | ':' :: r =>
          match readTree fuel depth r with
          | (t, none) => last key t
          | (t, some r) =>
            match skipSpace r with
            | '}' :: r => (((key, t) :: acc).reverse, none, some r)
            | ',' :: r => readMembers fuel depth ((key, t) :: acc) (skipSpace r)
            | r => (((key, t) :: acc).reverse, some (faultAt r), none)
        | r => last key (.fault (faultAt r))
    | r => last (.error (faultAt r)) (.fault (faultAt r))

end

/-- Reads a text that holds one document. -/
def read (cs : List Char) : Source :=
  match readTree (cs.length + 1) 0 cs with
  | (t, none) => ⟨t, none⟩
  | (t, some r) => ⟨t, if (skipSpace r).isEmpty then none else some .malformed⟩

mutual

/-- Every value is a document without faults. -/
def Tree.ofValue : Value → Tree
  | .null => .null
  | .bool b => .bool b
  | .num n => .num n
  | .str s => .str s
  | .arr items => .arr (treesOfItems items) none
  | .obj members => .obj (treesOfMembers members) none

def treesOfItems : List Value → List Tree
  | [] => []
  | v :: r => Tree.ofValue v :: treesOfItems r

def treesOfMembers : List (String × Value) → List (Except Fault String × Tree)
  | [] => []
  | (k, v) :: r => (.ok k, Tree.ofValue v) :: treesOfMembers r

end

mutual

/-- The value of a document; of a repeated member the last one stays. -/
def Tree.value : Tree → Except Fault Value
  | .null => .ok .null
  | .bool b => .ok (.bool b)
  | .num n => .ok (.num n)
  | .str s => .ok (.str s)
  | .arr items broken => do
    let items ← itemValues items
    match broken with
    | none => return .arr items
    | some f => throw f
  | .obj members broken => do
    let members ← memberValues members
    match broken with
    | none => return .object members
    | some f => throw f
  | .fault f => .error f
  | .cut f => .error f
  | .unusable _ => .error .malformed

def itemValues : List Tree → Except Fault (List Value)
  | [] => .ok []
  | t :: r => do return (← t.value) :: (← itemValues r)

def memberValues : List (Except Fault String × Tree) → Except Fault (List (String × Value))
  | [] => .ok []
  | (k, t) :: r => do return (← k, ← t.value) :: (← memberValues r)

end

mutual

/-- The first fault of a document whose content and keys do not matter. -/
def Tree.skip : Tree → Option Fault
  | .arr items broken => (skipItems items).or broken
  | .obj members broken => (skipMembers members).or broken
  | .fault f => some f
  | .cut f => some f
  | .unusable t => t.skip
  | _ => none

def skipItems : List Tree → Option Fault
  | [] => none
  | t :: r => t.skip.or (skipItems r)

def skipMembers : List (Except Fault String × Tree) → Option Fault
  | [] => none
  | (_, t) :: r => t.skip.or (skipMembers r)

end

def Source.value (s : Source) : Except Fault Value := do
  let v ← s.tree.value
  match s.after with
  | none => return v
  | some f => throw f

/-- The value of a text. -/
def parse (text : String) : Except Fault Value := (read text.toList).value

end LivePage.Json
