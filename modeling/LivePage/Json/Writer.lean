import LivePage.Decimal.Layout
import LivePage.Value.Basic

/-!
# Writing documents

A value is written on one line without blanks, or indented by two blanks a level. Members are
written in the order in which the value has them.
-/

namespace LivePage.Json

def hexDigits (n : Nat) : List Char :=
  let digits := Nat.toDigits 16 n
  List.replicate (4 - digits.length) '0' ++ digits

/-- Quotes, backslashes and control characters are escaped, all else stands for itself. -/
def escape : Char → List Char
  | '"' => ['\\', '"']
  | '\\' => ['\\', '\\']
  | '\x08' => ['\\', 'b']
  | '\x0c' => ['\\', 'f']
  | '\n' => ['\\', 'n']
  | '\r' => ['\\', 'r']
  | '\t' => ['\\', 't']
  | c => if c < ' ' then '\\' :: 'u' :: hexDigits c.toNat else [c]

def quote (s : String) : String :=
  "\"" ++ String.ofList (s.toList.flatMap escape) ++ "\""

/-- An integer has digits only, every other number a point or an exponent. -/
def numberText : Number → String
  | .int n => toString n
  | .float x _ => Decimal.Layout.document.text x

mutual

/-- A value on one line. -/
def compact : Value → String
  | .null => "null"
  | .bool b => if b then "true" else "false"
  | .num n => numberText n
  | .str s => quote s
  | .arr items => "[" ++ ",".intercalate (compactItems items) ++ "]"
  | .obj members => "\x7b" ++ ",".intercalate (compactMembers members) ++ "\x7d"

def compactItems : List Value → List String
  | [] => []
  | v :: r => compact v :: compactItems r

def compactMembers : List (String × Value) → List String
  | [] => []
  | (k, v) :: r => (quote k ++ ":" ++ compact v) :: compactMembers r

end

/-- Joins the lines of the entries of a list or an object, indented between its brackets. -/
private def block (opening closing : String) (entries : List (List String)) : List String :=
  match entries with
  | [] => [opening ++ closing]
  | entries =>
    let last := entries.length - 1
    let lines := (entries.zipIdx.map fun (lines, i) =>
      if i = last then lines
      else match lines.reverse with
        | l :: r => ((l ++ ",") :: r).reverse
        | [] => []).flatten
    [opening] ++ lines.map ("  " ++ ·) ++ [closing]

/-- Puts the name of a member in front of its first line. -/
private def named (k : String) : List String → List String
  | [] => []
  | l :: r => (quote k ++ ": " ++ l) :: r

mutual

/-- The lines of a value, one a scalar. -/
def prettyLines : Value → List String
  | .arr items => block "[" "]" (prettyItems items)
  | .obj members => block "\x7b" "\x7d" (prettyMembers members)
  | v => [compact v]

def prettyItems : List Value → List (List String)
  | [] => []
  | v :: r => prettyLines v :: prettyItems r

def prettyMembers : List (String × Value) → List (List String)
  | [] => []
  | (k, v) :: r => named k (prettyLines v) :: prettyMembers r

end

mutual

/-- The same value with the members of every object in the order of their keys. -/
def sorted : Value → Value
  | .arr items => .arr (sortedItems items)
  | .obj members => .object (sortedMembers members)
  | v => v

def sortedItems : List Value → List Value
  | [] => []
  | v :: r => sorted v :: sortedItems r

def sortedMembers : List (String × Value) → List (String × Value)
  | [] => []
  | (k, v) :: r => (k, sorted v) :: sortedMembers r

end

end LivePage.Json
