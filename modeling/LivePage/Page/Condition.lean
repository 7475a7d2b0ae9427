import LivePage.Expr.Eval
import LivePage.Page.Tree
import LivePage.Pattern.Parser

/-!
# Conditions

Whether a condition holds in a context. A condition that cannot be evaluated does not hold, and
neither does it anywhere inside of others.
-/

namespace LivePage

/-- The part of a path before its first point, and the rest. -/
def splitRoot (path : String) : String × String :=
  let cs := path.toList
  (String.ofList (cs.takeWhile (· != '.')), String.ofList ((cs.dropWhile (· != '.')).drop 1))

/-- The names that expressions see in a context, at a time in milliseconds. -/
def Context.env (c : Context) (clock : Int) : Env := ⟨c.scope, clock⟩

/-- The value of a field: a path in the part of the context that its root names, and else a path
in the data. -/
def Context.field (c : Context) (path : String) : Value :=
  let (root, rest) := splitRoot path
  match Namespace.ofName? root with
  | some k => c.lookup k rest
  | none => (c.snapshot .data).lookup path

inductive ConditionError where
  | expression (error : ExprError)
  | invalidPattern (pattern : String)
deriving DecidableEq, Repr

namespace ConditionError

/-- What failed, without the cause behind it. -/
def message : ConditionError → String
  | expression e => e.message
  | invalidPattern pattern => s!"invalid pattern `{pattern}`"

/-- What failed, and the cause behind it. -/
def chain : ConditionError → String
  | expression e => e.chain
  | e => e.message

end ConditionError

namespace Comparison

/-- Lists contain items, all else contains text. -/
def holdsIn (actual expected : Value) : Bool :=
  match actual with
  | .arr items => items.any (·.strictEq expected)
  | v => (Text.find? expected.display.toList v.display.toList).isSome

/-- The order of two values as numbers. -/
def numeric (actual expected : Value) : Option Ordering :=
  Value.orderFloats actual.toNumber expected.toNumber

/-- Whether a value is in a list; only lists have members. -/
def isMember (actual expected : Value) : Option Bool :=
  match expected with
  | .arr options => some (options.any (·.strictEq actual))
  | _ => none

/-- Compares a value with another one. -/
def holds (comparison : Comparison) (actual expected : Value) : Except ConditionError Bool :=
  match comparison with
  | equals => .ok (actual.strictEq expected)
  | notEquals => .ok !(actual.strictEq expected)
  | contains => .ok (holdsIn actual expected)
  | notContains => .ok !(holdsIn actual expected)
  | greaterThan => .ok (numeric actual expected == some .gt)
  | lessThan => .ok (numeric actual expected == some .lt)
  | greaterThanOrEqual =>
    .ok (numeric actual expected == some .gt || numeric actual expected == some .eq)
  | lessThanOrEqual =>
    .ok (numeric actual expected == some .lt || numeric actual expected == some .eq)
  | isEmpty => .ok actual.empty
  | isNotEmpty => .ok !actual.empty
  | isIn => .ok ((isMember actual expected).getD false)
  | notIn => .ok (((isMember actual expected).map (!·)).getD false)
  | startsWith => .ok (expected.display.toList.isPrefixOf actual.display.toList)
  | endsWith => .ok (expected.display.toList.isSuffixOf actual.display.toList)
  | isMatch =>
    match Pattern.parse? expected.display with
    | some p => .ok (p.occursIn actual.display)
    | none => .error (.invalidPattern expected.display)
  | unknown _ => .ok true

end Comparison

namespace Condition

/-- What fails does not hold. -/
def closed : Except ConditionError Bool → Bool
  | .ok b => b
  | .error _ => false

@[simp] theorem closed_ok (b : Bool) : closed (.ok b) = b := rfl
@[simp] theorem closed_error (e : ConditionError) : closed (.error e) = false := rfl

mutual

/-- Evaluates a condition. Without comparison or field, and for unknown kinds, it holds. -/
def test (c : Context) (clock : Int) : Condition → Except ConditionError Bool
  | simple _ none _ => .ok true
  | simple field (some comparison) value =>
    if field = "" then .ok true else comparison.holds (c.field field) value
  | complex .and conditions => .ok (allHold c clock conditions)
  | complex .or conditions => .ok (conditions.isEmpty || anyHolds c clock conditions)
  | raw expression =>
    match Expr.run (c.env clock) expression with
    | .ok v => .ok v.truthy
    | .error e => .error (.expression e)
  | unknown => .ok true

def allHold (c : Context) (clock : Int) : List Condition → Bool
  | [] => true
  | x :: r => closed (x.test c clock) && allHold c clock r

def anyHolds (c : Context) (clock : Int) : List Condition → Bool
  | [] => false
  | x :: r => closed (x.test c clock) || anyHolds c clock r

end

/-- Whether a condition holds. -/
def holds (c : Context) (clock : Int) (x : Condition) : Bool := closed (x.test c clock)

/-- Where no condition is given nothing has to hold. -/
def holds? (c : Context) (clock : Int) : Option Condition → Bool
  | none => true
  | some x => x.holds c clock

end Condition

end LivePage
