import LivePage.Expr.Parser

/-!
# Names in expressions

The names that an expression may look up, in the order in which they are written. Text that is no
expression is scanned for words outside of its strings.
-/

namespace LivePage

namespace Expr

def reservedWords : List String :=
  ["break", "case", "catch", "class", "const", "continue", "debugger", "default", "delete", "do",
    "else", "export", "extends", "finally", "for", "function", "if", "import", "in", "instanceof",
    "let", "new", "return", "super", "switch", "this", "throw", "try", "typeof", "var", "void",
    "while", "with", "yield", "true", "false", "null", "undefined"]

def wellKnownGlobals : List String :=
  ["Array", "Boolean", "Date", "Error", "Function", "JSON", "Math", "Number", "Object", "Promise",
    "RegExp", "String", "Symbol", "console", "parseInt", "parseFloat", "isNaN", "isFinite",
    "encodeURI", "decodeURI", "encodeURIComponent", "decodeURIComponent"]

/-- Names that are no variables of a page. -/
def isCommonName (name : String) : Bool :=
  reservedWords.contains name || wellKnownGlobals.contains name

mutual

/-- Every name in an expression, called functions among them. -/
def names : Expr → List String
  | literal _ => []
  | identifier name => [name]
  | array items => namesOfItems items
  | object entries => namesOfEntries entries
  | member target _ _ => target.names
  | index target position _ => target.names ++ position.names
  | call callee arguments _ => callee.names ++ namesOfItems arguments
  | unary _ operand => operand.names
  | binary _ left right | logical _ left right => left.names ++ right.names
  | conditional test consequent alternate => test.names ++ consequent.names ++ alternate.names

def namesOfItems : List Expr → List String
  | [] => []
  | e :: r => e.names ++ namesOfItems r

def namesOfEntries : List (String × Expr) → List String
  | [] => []
  | (_, e) :: r => e.names ++ namesOfEntries r

end

/-- The length of a string behind its opening quote, with its closing quote; a backslash does not
go together with the end of a line. -/
def stringSize? (quote : Char) : List Char → Option Nat
  | [] => none
  | c :: r =>
    if c = quote then some 1
    else if c = '\\' then
      match r with
      | [] => none
      | d :: r => if d = '\n' then none else (stringSize? quote r).map (· + 2)
    else (stringSize? quote r).map (· + 1)

/-- The text with a blank for every string; `skip` characters of a string are still ahead. -/
def withoutStrings : (skip : Nat) → List Char → List Char
  | _, [] => []
  | skip + 1, _ :: r => withoutStrings skip r
  | 0, c :: r =>
    match if c = '"' ∨ c = '\'' then stringSize? c r else none with
    | some n => ' ' :: withoutStrings n r
    | none => c :: withoutStrings 0 r

def isWordStart (c : Char) : Bool := c.isAlpha || c == '_' || c == '$'

/-- The words of a text, in letters of ASCII; `word` is the one that is being read, last first. -/
def words : (word : List Char) → List Char → List String
  | [], [] => []
  | word, [] => [String.ofList word.reverse]
  | [], c :: r => if isWordStart c then words [c] r else words [] r
  | word, c :: r =>
    if isWordStart c || c.isDigit then words (c :: word) r
    else String.ofList word.reverse :: words [] r

/-- The variables among some names, each once. -/
def variablesAmong (names : List String) : List String :=
  (names.filter fun name => !isCommonName name).eraseDups

/-- The variables of a text that has been parsed, or could not be. -/
def variableNames (source : String) {ε : Type} : Except ε Expr → List String
  | .ok e => variablesAmong e.names
  | .error _ => variablesAmong (words [] (withoutStrings 0 source.toList))

end Expr

end LivePage
