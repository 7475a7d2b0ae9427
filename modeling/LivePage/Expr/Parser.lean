import LivePage.Expr.Lexer
import LivePage.Expr.Tree
import LivePage.Value.Coerce

/-!
# From tokens to expressions

Binary operators are read level by level, each level a chain of the next one that associates to
the left. Expressions and prefix operators may be nested in one another to a fixed depth, and no
tree may be higher than a fixed height.
-/

namespace LivePage

/-- How deep expressions and prefix operators may be nested in one another. -/
def maxNesting : Nat := 64

/-- How high a tree may be. -/
def maxHeight : Nat := 256

/-- Limits within which tokens are read. -/
structure Limits where
  nesting : Nat
  height : Nat
deriving DecidableEq, Repr

/-- The limits within which texts are read. -/
def Limits.standard : Limits := ⟨maxNesting, maxHeight⟩

/-- Why a sequence of tokens is no expression. -/
inductive SyntaxCause where
  | lexical (found : String)
  | emptySource
  | unexpected (token : Token)
  | expected (what : String) (found : Option Token)
  | tooDeep (limit : Nat)
deriving DecidableEq, Repr

def SyntaxCause.message : SyntaxCause → String
  | lexical found => LexError.message ⟨found, 0⟩
  | emptySource => "empty expression"
  | unexpected t => s!"unexpected token `{t.describe}`"
  | expected what none => s!"expected {what}, found end of input"
  | expected what (some t) => s!"expected {what}, found `{t.describe}`"
  | tooDeep limit => s!"expression nesting exceeds {limit} levels"

structure SyntaxError where
  cause : SyntaxCause
  position : Nat
deriving DecidableEq, Repr

def SyntaxError.message (e : SyntaxError) : String := e.cause.message

/-- A cause and the tokens from the offending one on. -/
structure Reject where
  cause : SyntaxCause
  rest : List Token
deriving Repr

/-- An expression that was read, and the tokens behind it. -/
abbrev Parsed := Except Reject (Expr × List Token)

/-- The levels of binary operators, the loosest first. -/
inductive Level where
  | nullish
  | or
  | and
  | equality
  | relational
  | additive
  | multiplicative
deriving DecidableEq, Repr

namespace Level

/-- The next tighter level; behind the last one come prefix operators. -/
def next : Level → Option Level
  | nullish => some or
  | or => some and
  | and => some equality
  | equality => some relational
  | relational => some additive
  | additive => some multiplicative
  | multiplicative => none

/-- How an operator of a level joins two expressions. -/
def join? : Level → Operator → Option (Expr → Expr → Expr)
  | nullish, .nullish => some (.logical .nullish)
  | or, .or => some (.logical .or)
  | and, .and => some (.logical .and)
  | equality, .equal => some (.binary .equal)
  | equality, .notEqual => some (.binary .notEqual)
  | equality, .strictEqual => some (.binary .strictEqual)
  | equality, .strictNotEqual => some (.binary .strictNotEqual)
  | relational, .less => some (.binary .less)
  | relational, .lessEqual => some (.binary .lessEqual)
  | relational, .greater => some (.binary .greater)
  | relational, .greaterEqual => some (.binary .greaterEqual)
  | additive, .plus => some (.binary .add)
  | additive, .minus => some (.binary .subtract)
  | multiplicative, .times => some (.binary .multiply)
  | multiplicative, .divide => some (.binary .divide)
  | multiplicative, .modulo => some (.binary .modulo)
  | _, _ => none

end Level

def UnaryOp.ofOperator? : Operator → Option UnaryOp
  | .not => some .not
  | .minus => some .negate
  | .plus => some .plus
  | _ => none

namespace Expr

variable (limits : Limits)

/-- Names that stand for values. -/
def ofName (name : String) : Expr :=
  if name = "true" then literal (.bool true)
  else if name = "false" then literal (.bool false)
  else if name = "null" ∨ name = "undefined" then literal .null
  else identifier name

/-- The name that a token gives to an entry of an object. -/
def key? : Token → Option String
  | .identifier name => some name
  | .string s => some s
  | .number x => some (Value.ofFloat x).display
  | _ => none

def expected {α : Type} (what : String) (ts : List Token) : Except Reject α :=
  .error ⟨.expected what ts.head?, ts⟩

/-- Takes a delimiter. -/
def take (d : Delimiter) : List Token → Except Reject (Unit × List Token)
  | .delimiter d' :: r =>
    if d' = d then .ok ((), r) else expected s!"`{d.char}`" (.delimiter d' :: r)
  | ts => expected s!"`{d.char}`" ts

/-- A tree that may be as high as it is. -/
def bounded (e : Expr) (ts : List Token) : Parsed :=
  if e.height ≤ limits.height then .ok (e, ts) else .error ⟨.tooDeep limits.height, ts⟩

def propertyName : List Token → Except Reject (String × List Token)
  | .identifier name :: r => .ok (name, r)
  | ts => expected "a property name" ts

/-- Goes on behind an item: behind a comma with more of them, or to the closing delimiter. -/
def separated {α : Type} (closing : Delimiter)
    (more : List Token → Except Reject (List α × List Token)) (x : α) :
    List Token → Except Reject (List α × List Token)
  | .delimiter .comma :: r => do
    let (xs, r) ← more r
    return (x :: xs, r)
  | r => do
    let ((), r) ← take closing r
    return ([x], r)

/-- The value of an entry: what is read behind a colon, or else its name. -/
def entryValue (read : List Token → Parsed) (key : String) : List Token → Parsed
  | .delimiter .colon :: r => read r
  | r => .ok (.identifier key, r)

mutual

/-- Reads an expression inside `depth` others. Every call takes one unit of `fuel`; a fixed number
for each token is enough. -/
def expression : (fuel depth : Nat) → List Token → Parsed
  | 0, _, ts => expected "an expression" ts
  | fuel + 1, depth, ts =>
    if depth ≥ limits.nesting then .error ⟨.tooDeep limits.nesting, ts⟩
    else do
      let (test, ts) ← chain fuel (depth + 1) .nullish ts
      match ts with
      | .operator .question :: ts =>
        let (consequent, ts) ← expression fuel (depth + 1) ts
        let ((), ts) ← take .colon ts
        let (alternate, ts) ← expression fuel (depth + 1) ts
        bounded limits (.conditional test consequent alternate) ts
      | ts => return (test, ts)

/-- Reads operands of a level, joined by its operators. -/
def chain : (fuel depth : Nat) → Level → List Token → Parsed
  | 0, _, _, ts => expected "an expression" ts
  | fuel + 1, depth, level, ts => do
    let (left, ts) ← operand fuel depth level ts
    chainRest fuel depth level left ts

def operand : (fuel depth : Nat) → Level → List Token → Parsed
  | 0, _, _, ts => expected "an expression" ts
  | fuel + 1, depth, level, ts =>
    match level.next with
    | some level => chain fuel depth level ts
    | none => prefixed fuel depth ts

/-- Reads on behind the left operand. -/
def chainRest : (fuel depth : Nat) → Level → Expr → List Token → Parsed
  | 0, _, _, _, ts => expected "an expression" ts
  | fuel + 1, depth, level, left, ts =>
    match ts with
    | .operator o :: r =>
      match level.join? o with
      | some join => do
        let (right, r) ← operand fuel depth level r
        let (left, r) ← bounded limits (join left right) r
        chainRest fuel depth level left r
      | none => .ok (left, ts)
    | _ => .ok (left, ts)

/-- Reads an expression that may have an operator in front. -/
def prefixed : (fuel depth : Nat) → List Token → Parsed
  | 0, _, ts => expected "an expression" ts
  | fuel + 1, depth, ts =>
    match ts with
    | .operator o :: r =>
      match UnaryOp.ofOperator? o with
      | some op =>
        if depth ≥ limits.nesting then .error ⟨.tooDeep limits.nesting, r⟩
        else do
          let (operand, r) ← prefixed fuel (depth + 1) r
          bounded limits (.unary op operand) r
      | none => linked fuel depth ts
    | _ => linked fuel depth ts

/-- Reads a primary expression and the links behind it. -/
def linked : (fuel depth : Nat) → List Token → Parsed
  | 0, _, ts => expected "an expression" ts
  | fuel + 1, depth, ts => do
    let (e, ts) ← primary fuel depth ts
    links fuel depth e ts

def links : (fuel depth : Nat) → Expr → List Token → Parsed
  | 0, _, _, ts => expected "an expression" ts
  | fuel + 1, depth, e, ts =>
    match ts with
    | .operator .dot :: r => do
      let (name, r) ← propertyName r
      let (e, r) ← bounded limits (.member e name false) r
      links fuel depth e r
    | .operator .optionalDot :: .delimiter .openBracket :: r => do
      let (position, r) ← expression fuel depth r
      let ((), r) ← take .closeBracket r
      let (e, r) ← bounded limits (.index e position true) r
      links fuel depth e r
    | .operator .optionalDot :: .delimiter .openParen :: r => do
      let (arguments, r) ← items fuel depth .closeParen r
      let (e, r) ← bounded limits (.call e arguments true) r
      links fuel depth e r
    | .operator .optionalDot :: r => do
      let (name, r) ← propertyName r
      let (e, r) ← bounded limits (.member e name true) r
      links fuel depth e r
    | .delimiter .openBracket :: r => do
      let (position, r) ← expression fuel depth r
      let ((), r) ← take .closeBracket r
      let (e, r) ← bounded limits (.index e position false) r
      links fuel depth e r
    | .delimiter .openParen :: r => do
      let (arguments, r) ← items fuel depth .closeParen r
      let (e, r) ← bounded limits (.call e arguments false) r
      links fuel depth e r
    | _ => .ok (e, ts)

def primary : (fuel depth : Nat) → List Token → Parsed
  | 0, _, ts => expected "an expression" ts
  | _ + 1, _, [] => expected "an expression" []
  | fuel + 1, depth, t :: r =>
    match t with
    | .number x => .ok (.literal (.ofFloat x), r)
    | .string s => .ok (.literal (.str s), r)
    | .identifier name => .ok (ofName name, r)
    | .delimiter .openParen => do
      let (e, r) ← expression fuel depth r
      let ((), r) ← take .closeParen r
      return (e, r)
    | .delimiter .openBracket => do
      let (items, r) ← items fuel depth .closeBracket r
      bounded limits (.array items) r
    | .delimiter .openBrace => do
      let (entries, r) ← entries fuel depth t r
      bounded limits (.object entries) r
    | t => .error ⟨.unexpected t, t :: r⟩

/-- Reads expressions between commas up to a closing delimiter, which may follow a comma. -/
def items : (fuel depth : Nat) → Delimiter → List Token → Except Reject (List Expr × List Token)
  | 0, _, _, ts => expected "an expression" ts
  | fuel + 1, depth, closing, ts =>
    match take closing ts with
    | .ok ((), r) => .ok ([], r)
    | .error _ => do
      let (e, r) ← expression fuel depth ts
      separated closing (items fuel depth closing) e r

/-- Reads the entries of an object up to its closing brace, which may follow a comma. `before` is
the token in front of them. -/
def entries : (fuel depth : Nat) → (before : Token) → List Token →
    Except Reject (List (String × Expr) × List Token)
  | 0, _, _, ts => expected "an expression" ts
  | _ + 1, _, before, [] => expected "a property name" [before]
  | fuel + 1, depth, _, t :: r =>
    if t = .delimiter .closeBrace then .ok ([], r)
    else match key? t with
      | none => expected "a property name" (t :: r)
      | some key => do
        let (e, r) ← entryValue (expression fuel depth) key r
        separated .closeBrace (entries fuel depth (.delimiter .comma)) (key, e) r

end

/-- Enough fuel for a number of tokens: no more calls than this are open at once between two
tokens. -/
def enough (tokens : Nat) : Nat := 24 * (tokens + 1)

/-- The expression that a whole sequence of tokens spells. -/
def ofTokens (ts : List Token) : Except Reject Expr := do
  let (e, rest) ← expression limits (enough ts.length) 0 ts
  match rest with
  | [] => return e
  | t :: _ => throw ⟨.unexpected t, rest⟩

/-- The place in the source where so many of its tokens are left. -/
def positionOf (ts : List Spanned) (stop left : Nat) : Nat :=
  match ts[ts.length - left]? with
  | some t => t.start
  | none => stop

/-- The expression that a text spells. -/
def parse (source : String) : Except SyntaxError Expr :=
  match tokenize source with
  | .error e => .error ⟨.lexical e.found, e.position⟩
  | .ok [] => .error ⟨.emptySource, 0⟩
  | .ok ts =>
    match ofTokens .standard (ts.map (·.token)) with
    | .ok e => .ok e
    | .error r => .error ⟨r.cause, positionOf ts source.utf8ByteSize r.rest.length⟩

end Expr

end LivePage
