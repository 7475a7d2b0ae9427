import LivePage.Expr.Evaluator
import LivePage.Page.Condition

/-!
# Conditions with a memory

A judge evaluates conditions, and keeps the expressions and the patterns that it has read.
-/

namespace LivePage

structure Judge where
  expressions : Evaluator := {}
  patterns : List (String × Pattern) := []
deriving Inhabited

namespace Judge

/-- Reads a pattern, unless it is known. -/
def pattern (j : Judge) (source : String) : Option Pattern × Judge :=
  match j.patterns.lookup source with
  | some p => (some p, j)
  | none =>
    match Pattern.parse? source with
    | some p => (some p, { j with patterns := (source, p) :: j.patterns })
    | none => (none, j)

/-- Compares a value with another one. -/
def compare (j : Judge) (comparison : Comparison) (actual expected : Value) :
    Except ConditionError Bool × Judge :=
  match comparison with
  | .isMatch =>
    match j.pattern expected.display with
    | (some p, j) => (.ok (p.occursIn actual.display), j)
    | (none, j) => (.error (.invalidPattern expected.display), j)
  | comparison => (comparison.holds actual expected, j)

mutual

/-- Evaluates a condition. -/
def test (c : Context) (clock : Int) (j : Judge) :
    Condition → Except ConditionError Bool × Judge
  | .simple _ none _ => (.ok true, j)
  | .simple field (some comparison) value =>
    if field = "" then (.ok true, j) else j.compare comparison (c.field field) value
  | .complex .and conditions =>
    let (b, j) := allHold c clock j conditions
    (.ok b, j)
  | .complex .or conditions =>
    let (b, j) := anyHolds c clock j conditions
    (.ok (conditions.isEmpty || b), j)
  | .raw expression =>
    match j.expressions.execute (c.env clock) expression with
    | (.ok v, e) => (.ok v.truthy, { j with expressions := e })
    | (.error err, e) => (.error (.expression err), { j with expressions := e })
  | .unknown => (.ok true, j)

/-- The first condition that does not hold ends the evaluation. -/
def allHold (c : Context) (clock : Int) (j : Judge) : List Condition → Bool × Judge
  | [] => (true, j)
  | x :: r =>
    let (b, j) := test c clock j x
    if Condition.closed b then allHold c clock j r else (false, j)

/-- The first condition that holds ends the evaluation. -/
def anyHolds (c : Context) (clock : Int) (j : Judge) : List Condition → Bool × Judge
  | [] => (false, j)
  | x :: r =>
    let (b, j) := test c clock j x
    if Condition.closed b then (true, j) else anyHolds c clock j r

end

/-- Whether a condition holds. -/
def holds (c : Context) (clock : Int) (j : Judge) (x : Condition) : Bool × Judge :=
  let (b, j) := j.test c clock x
  (Condition.closed b, j)

/-- Whether each of some conditions holds. -/
def each (c : Context) (clock : Int) (j : Judge) : List Condition → List Bool × Judge
  | [] => ([], j)
  | x :: r =>
    let (b, j) := j.holds c clock x
    let (bs, j) := j.each c clock r
    (b :: bs, j)

end Judge

end LivePage
