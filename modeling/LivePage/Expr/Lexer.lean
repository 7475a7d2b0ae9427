import LivePage.Decimal.Read
import LivePage.Expr.Token
import LivePage.Text.Letter
import LivePage.Text.Octets

/-!
# From text to tokens

At every place the longest token that starts there is taken, and blanks between tokens are
dropped.
-/

namespace LivePage

namespace Token

/-- A token at the front of a text, and how many characters it takes. -/
structure Munch where
  token : Token
  size : Nat
  size_pos : 0 < size

def isSpace (c : Char) : Bool := c == ' ' || c == '\t' || c == '\r' || c == '\n'

def isNameStart (c : Char) : Bool := Text.isAlphabetic c || c == '_' || c == '$'

def isNamePart (c : Char) : Bool := Text.isAlphanumeric c || c == '_' || c == '$'

def countDigits (cs : List Char) : Nat := (cs.takeWhile Char.isDigit).length

/-- Length of a point and digits, if both are there. -/
def fractionSize : List Char → Nat
  | '.' :: r => if countDigits r = 0 then 0 else countDigits r + 1
  | _ => 0

/-- Length of a mark, an optional sign and digits, if the digits are there. -/
def exponentSize : List Char → Nat
  | mark :: r =>
    if mark = 'e' ∨ mark = 'E' then
      let signSize := match r with
        | '+' :: _ | '-' :: _ => 1
        | _ => 0
      let digits := countDigits (r.drop signSize)
      if digits = 0 then 0 else digits + signSize + 1
    else 0
  | [] => 0

/-- Digits, then a fraction and an exponent if they are complete. -/
def number? (cs : List Char) : Option Munch :=
  let whole := countDigits cs
  if _ : 0 < whole then
    let fraction := fractionSize (cs.drop whole)
    let exponent := exponentSize (cs.drop (whole + fraction))
    let size := whole + fraction + exponent
    some ⟨.number ((Decimal.readMagnitude? (cs.take size)).getD 0.0), size, by omega⟩
  else none

def unescape : Char → Char
  | 'n' => '\n'
  | 't' => '\t'
  | 'r' => '\r'
  | '0' => '\x00'
  | c => c

/-- What a string says up to its closing quote, and how many characters that takes. -/
def quoted? (quote : Char) : List Char → Option (List Char × Nat)
  | [] => none
  | c :: r =>
    if c = quote then some ([], 1)
    else if c = '\\' then
      match r with
      | [] => none
      | d :: r => (quoted? quote r).map fun (cs, n) => (unescape d :: cs, n + 2)
    else (quoted? quote r).map fun (cs, n) => (c :: cs, n + 1)

def string? : List Char → Option Munch
  | c :: r =>
    if c = '"' ∨ c = '\'' then
      (quoted? c r).map fun (cs, n) => ⟨.string (String.ofList cs), n + 1, by omega⟩
    else none
  | [] => none

def operator? (cs : List Char) : Option Munch :=
  (Operator.all.find? fun o => o.text.toList.isPrefixOf cs).map fun o =>
    ⟨.operator o, o.text.length, o.length_text_pos⟩

def delimiter? : List Char → Option Munch
  | c :: _ => (Delimiter.ofChar? c).map fun d => ⟨.delimiter d, 1, by omega⟩
  | [] => none

def identifier? : List Char → Option Munch
  | c :: r =>
    if isNameStart c then
      let name := c :: r.takeWhile isNamePart
      some ⟨.identifier (String.ofList name), name.length, by simp [name]⟩
    else none
  | [] => none

/-- The token at the front of a text. A string that does not end is none. -/
def munch? (cs : List Char) : Option Munch :=
  ((((number? cs).or (string? cs)).or (operator? cs)).or (delimiter? cs)).or (identifier? cs)

end Token

/-- A place where no token starts, and the text found there. -/
structure LexError where
  found : String
  position : Nat
deriving DecidableEq, Repr

def LexError.message (e : LexError) : String := s!"unexpected input `{e.found}`"

set_option linter.unusedVariables false in
/-- The tokens of a text that starts at a byte of the source. -/
def lexFrom (position : Nat) (cs : List Char) : Except LexError (List Spanned) :=
  let start := position + Text.byteLength (cs.takeWhile Token.isSpace)
  match h : cs.dropWhile Token.isSpace with
  | [] => .ok []
  | c :: r =>
    match Token.munch? (c :: r) with
    | none => .error ⟨String.ofList ((c :: r).take 12), start⟩
    | some m =>
      let stop := start + Text.byteLength ((c :: r).take m.size)
      (lexFrom stop ((c :: r).drop m.size)).map (⟨m.token, start, stop⟩ :: ·)
termination_by cs.length
decreasing_by
  have le := (List.dropWhile_suffix (l := cs) Token.isSpace).length_le
  have pos := m.size_pos
  rw [h] at le
  simp only [List.length_drop, List.length_cons] at *
  omega

def tokenize (source : String) : Except LexError (List Spanned) := lexFrom 0 source.toList

end LivePage
