import LivePage.Decimal.Layout

/-!
# Tokens of expressions
-/

namespace LivePage

inductive Operator where
  | strictEqual
  | strictNotEqual
  | equal
  | notEqual
  | greaterEqual
  | lessEqual
  | and
  | or
  | nullish
  | optionalDot
  | greater
  | less
  | question
  | not
  | plus
  | minus
  | times
  | divide
  | modulo
  | dot
deriving DecidableEq, Repr

namespace Operator

def text : Operator → String
  | strictEqual => "==="
  | strictNotEqual => "!=="
  | equal => "=="
  | notEqual => "!="
  | greaterEqual => ">="
  | lessEqual => "<="
  | and => "&&"
  | or => "||"
  | nullish => "??"
  | optionalDot => "?."
  | greater => ">"
  | less => "<"
  | question => "?"
  | not => "!"
  | plus => "+"
  | minus => "-"
  | times => "*"
  | divide => "/"
  | modulo => "%"
  | dot => "."

/-- Every operator, none before a longer one that starts with it. -/
def all : List Operator :=
  [strictEqual, strictNotEqual, equal, notEqual, greaterEqual, lessEqual, and, or, nullish,
    optionalDot, greater, less, question, not, plus, minus, times, divide, modulo, dot]

theorem length_text_pos (o : Operator) : 0 < o.text.length := by
  cases o <;> decide

end Operator

inductive Delimiter where
  | openParen
  | closeParen
  | openBracket
  | closeBracket
  | openBrace
  | closeBrace
  | comma
  | colon
deriving DecidableEq, Repr

namespace Delimiter

def char : Delimiter → Char
  | openParen => '('
  | closeParen => ')'
  | openBracket => '['
  | closeBracket => ']'
  | openBrace => '{'
  | closeBrace => '}'
  | comma => ','
  | colon => ':'

def all : List Delimiter :=
  [openParen, closeParen, openBracket, closeBracket, openBrace, closeBrace, comma, colon]

def ofChar? (c : Char) : Option Delimiter := all.find? (·.char == c)

end Delimiter

inductive Token where
  | number (x : Float)
  | string (s : String)
  | identifier (name : String)
  | operator (o : Operator)
  | delimiter (d : Delimiter)
deriving DecidableEq, Repr

namespace Token

def kindName : Token → String
  | number _ => "number"
  | string _ => "string"
  | identifier _ => "identifier"
  | operator _ => "operator"
  | delimiter _ => "delimiter"

/-- What a token stands for, without the quotes of a string. -/
def text : Token → String
  | number x => Decimal.Layout.display.text x
  | string s => s
  | identifier name => name
  | operator o => o.text
  | delimiter d => d.char.toString

/-- A token as messages name it. -/
def describe : Token → String
  | string s => s!"'{s}'"
  | t => t.text

end Token

/-- A token and the bytes of the source that it takes. -/
structure Spanned where
  token : Token
  start : Nat
  stop : Nat
deriving DecidableEq, Repr

end LivePage
