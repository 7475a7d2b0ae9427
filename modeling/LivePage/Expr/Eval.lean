import LivePage.Context
import LivePage.Expr.Builtin

/-!
# Values of expressions

An expression is evaluated against the names of a scope. A chain of links has no value where an
optional link meets null; the rest of the chain is then left out and its result is null.
-/

namespace LivePage

/-- What an expression can see: names, and the time in milliseconds. -/
structure Env where
  scope : Scope
  clock : Int := 0
deriving Inhabited

namespace Value

/-- A named property. -/
def property : Value → String → Value
  | str s, "length" => nat s.length
  | arr items, "length" => nat items.length
  | obj m, k => (Fields.get? k m).getD null
  | _, _ => null

/-- The position that a number stands for. -/
def position? (n : Number) : Option Nat :=
  (Binary.whole? n.toFloat).bind fun i => if 0 ≤ i then some i.toNat else none

/-- What is found at an index. -/
def atIndex : Value → Value → Value
  | arr items, num n => ((position? n).bind (items[·]?)).getD null
  | str s, num n => (((position? n).bind (s.toList[·]?)).map fun c => str c.toString).getD null
  | obj m, k => (Fields.get? k.display m).getD null
  | v, str k => v.property k
  | _, _ => null

/-- Text, lists and objects are added as text. -/
def isJoined : Value → Bool
  | str _ | arr _ | obj _ => true
  | _ => false

end Value

namespace Expr

def applyUnary : UnaryOp → Value → Value
  | .not, v => .bool !v.truthy
  | .negate, v => .ofFloat (-v.toNumber)
  | .plus, v => .ofFloat v.toNumber

/-- Whether two values are in the order that a relation asks for. -/
def related : BinaryOp → Option Ordering → Bool
  | .less, o => o == some .lt
  | .lessEqual, o => o == some .lt || o == some .eq
  | .greater, o => o == some .gt
  | .greaterEqual, o => o == some .gt || o == some .eq
  | _, _ => false

def applyBinary (op : BinaryOp) (a b : Value) : Except EvalFault Value :=
  match op with
  | .add =>
    if a.isJoined || b.isJoined then .ok (.str (a.display ++ b.display))
    else .ok (.ofFloat (a.toNumber + b.toNumber))
  | .subtract => .ok (.ofFloat (a.toNumber - b.toNumber))
  | .multiply => .ok (.ofFloat (a.toNumber * b.toNumber))
  | .divide =>
    if b.toNumber == 0.0 then .error .divisionByZero
    else .ok (.ofFloat (a.toNumber / b.toNumber))
  | .modulo =>
    if b.toNumber == 0.0 then .error .divisionByZero
    else .ok (.ofFloat (Binary.remainder a.toNumber b.toNumber))
  | .equal => .ok (.bool (a.looseEq b))
  | .notEqual => .ok (.bool !(a.looseEq b))
  | .strictEqual => .ok (.bool (a.strictEq b))
  | .strictNotEqual => .ok (.bool !(a.strictEq b))
  | op => .ok (.bool (related op (a.order b)))

/-- Whether the left side alone decides. -/
def decidedBy : LogicalOp → Value → Bool
  | .and, v => !v.truthy
  | .or, v => v.truthy
  | .nullish, v => !v.isNull

/-- A name that stands for a group of functions, unless the scope has it. -/
def group? (env : Env) : Expr → Option String
  | identifier name =>
    if Builtin.isGroup name && (env.scope.get? name).isNone then some name else none
  | _ => none

mutual

/-- Evaluates an expression; there is no value if an optional link met null. -/
def reach (env : Env) : Expr → Except EvalFault (Option Value)
  | literal v => .ok (some v)
  | identifier name =>
    match env.scope.get? name with
    | some v => .ok (some v)
    | none => .error (.undefinedVariable name)
  | array items => do
    let vs ← evalItems env items
    return some (.arr vs)
  | object entries => do
    let members ← evalEntries env entries
    return some (.object members)
  | member target property optional =>
    match (group? env target).bind (Builtin.constant? · property) with
    | some v => .ok (some v)
    | none => do
      match ← reach env target with
      | none => return none
      | some v =>
        if v.isNull then
          if optional then return none else throw (.nullAccess property)
        else return some (v.property property)
  | index target position optional => do
    match ← reach env target with
    | none => return none
    | some v =>
      let i := (← reach env position).getD .null
      if v.isNull then
        if optional then return none else throw (.nullAccess i.display)
      else return some (v.atIndex i)
  | call (identifier name) arguments _ => do
    let args ← evalItems env arguments
    return some (← Builtin.callGlobal name args)
  | call (member target property optionalMember) arguments optional =>
    match group? env target with
    | some group => do
      let args ← evalItems env arguments
      return some (← Builtin.callGroup env.clock group property args)
    | none => do
      match ← reach env target with
      | none => return none
      | some v =>
        if v.isNull then
          if optionalMember || optional then return none else throw (.nullAccess property)
        else
          let args ← evalItems env arguments
          return some (← Builtin.callMethod v property args)
  | call _ _ _ => .error (.unknownFunction "<computed callee>")
  | unary op operand => do
    let v := (← reach env operand).getD .null
    return some (applyUnary op v)
  | binary op left right => do
    let a := (← reach env left).getD .null
    let b := (← reach env right).getD .null
    return some (← applyBinary op a b)
  | logical op left right => do
    let a := (← reach env left).getD .null
    if decidedBy op a then return some a
    else
      let b := (← reach env right).getD .null
      return some b
  | conditional test consequent alternate => do
    let t := (← reach env test).getD .null
    if t.truthy then
      let v := (← reach env consequent).getD .null
      return some v
    else
      let v := (← reach env alternate).getD .null
      return some v

def evalItems (env : Env) : List Expr → Except EvalFault (List Value)
  | [] => .ok []
  | e :: r => do
    let v := (← reach env e).getD .null
    let vs ← evalItems env r
    return v :: vs

def evalEntries (env : Env) : List (String × Expr) → Except EvalFault (List (String × Value))
  | [] => .ok []
  | (k, e) :: r => do
    let v := (← reach env e).getD .null
    let vs ← evalEntries env r
    return (k, v) :: vs

end

/-- The value of an expression. -/
def eval (env : Env) (e : Expr) : Except EvalFault Value := do
  return (← reach env e).getD .null

/-- The value that a text spells. -/
def run (env : Env) (source : String) : Except ExprError Value :=
  match parse source with
  | .error e => .error (.syntactic source e)
  | .ok e => (e.eval env).mapError (.evaluation source)

end Expr

end LivePage
