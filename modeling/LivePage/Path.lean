import LivePage.Value.Basic

/-!
# Paths

A path such as `orders[2].name` is a list of keys and indices. Reading follows it from a root
value; writing makes the objects that are missing on the way.
-/

namespace LivePage

inductive Segment where
  | key (k : String)
  | index (i : Nat)
deriving DecidableEq, Repr

abbrev Path := List Segment

inductive PathError where
  | notContainer (segment found : String)
  | outOfBounds (index length : Nat)
  | empty
deriving DecidableEq, Repr

def PathError.message : PathError → String
  | notContainer segment found => s!"cannot assign through `{segment}`: parent is a {found}"
  | outOfBounds index length => s!"index {index} is out of bounds for an array of length {length}"
  | empty => "empty path"

/-- An index is digits, after an optional plus sign, that fit a 64-bit word. -/
def readIndex? (cs : List Char) : Option Nat :=
  let digits := match cs with
    | '+' :: r => r
    | r => r
  if digits.isEmpty || !digits.all Char.isDigit then none
  else
    let n := digits.foldl (fun n c => 10 * n + (c.toNat - '0'.toNat)) 0
    if n < Nat.pow 2 64 then some n else none

/-- The parts of a text between the places of a character. -/
def splitOn (sep : Char) : List Char → List (List Char)
  | [] => [[]]
  | c :: r =>
    if c = sep then [] :: splitOn sep r
    else match splitOn sep r with
      | [] => [[c]]
      | part :: parts => (c :: part) :: parts

namespace Segment

def text : Segment → String
  | key k => k
  | index i => s!"[{i}]"

def isQuote (c : Char) : Bool := c == '"' || c == '\''

/-- What stands between brackets is an index, or a key with or without quotes. -/
def ofBody (body : List Char) : Segment :=
  match readIndex? body with
  | some i => index i
  | none => key (String.ofList ((body.dropWhile isQuote).reverse.dropWhile isQuote).reverse)

end Segment

namespace Path

/-- The segments of a row of brackets, where `body` is what an open one holds so far, last first.
A bracket that is never closed stays in its key. -/
def brackets : Option (List Char) → List Char → Path
  | none, '[' :: r => brackets (some []) r
  | none, _ => []
  | some body, [] => [.key (String.ofList ('[' :: body.reverse))]
  | some body, ']' :: r => Segment.ofBody body.reverse :: brackets none r
  | some body, c :: r => brackets (some (c :: body)) r

/-- The segments of a part between points: a key, if it does not start with a bracket, and the
brackets behind it. -/
def ofPart (part : List Char) : Path :=
  let name := part.takeWhile (· != '[')
  let rest := brackets none (part.dropWhile (· != '['))
  if name.isEmpty then rest else .key (String.ofList name) :: rest

def parse (text : String) : Path := (splitOn '.' text.toList).flatMap ofPart

end Path

namespace Value

/-- One step down. A key that is an index also selects an item of a list. -/
def step? : Value → Segment → Option Value
  | obj m, .key k => Fields.get? k m
  | arr items, .index i => items[i]?
  | arr items, .key k => (readIndex? k.toList).bind (items[·]?)
  | _, _ => none

def get? (root : Value) : Path → Option Value
  | [] => some root
  | s :: p => (root.step? s).bind (·.get? p)

/-- The value at a path; null where there is none. -/
def getD (root : Value) (p : Path) : Value := (root.get? p).getD .null

/-- The value at the path of a text. -/
def lookup (root : Value) (path : String) : Value := root.getD (Path.parse path)

/-- What a write at a path leaves behind, and why it failed if it did. Null on the way becomes an
object, and an index one past the end of a list adds an item. -/
def write (v : Value) : Path → Value → Value × Option PathError
  | [], _ => (v, none)
  | .key k :: p, root =>
    match root with
    | obj m =>
      let (child, fault) := write v p ((Fields.get? k m).getD null)
      (obj (Fields.insert k child m), fault)
    | null =>
      let (child, fault) := write v p null
      (obj [(k, child)], fault)
    | other => (other, some (.notContainer k other.kindName))
  | .index i :: p, root =>
    match root with
    | arr items =>
      match items[i]? with
      | some item =>
        let (child, fault) := write v p item
        (arr (items.set i child), fault)
      | none =>
        if i = items.length ∧ p = [] then (arr (items ++ [v]), none)
        else (root, some (.outOfBounds i items.length))
    | other => (other, some (.notContainer (Segment.index i).text other.kindName))

@[simp] theorem get?_nil (root : Value) : root.get? [] = some root := rfl

@[simp] theorem get?_cons (root : Value) (s : Segment) (p : Path) :
    root.get? (s :: p) = (root.step? s).bind (·.get? p) := rfl

@[simp] theorem write_nil (v root : Value) : write v [] root = (v, none) := rfl

end Value

end LivePage
