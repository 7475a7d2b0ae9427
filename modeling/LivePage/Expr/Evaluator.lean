import LivePage.Expr.Eval
import LivePage.Expr.Variables

/-!
# Evaluation with a memory

An evaluator keeps the expressions that it has parsed. When it is full it forgets them all.
-/

namespace LivePage

structure Evaluator where
  capacity : Nat := 512
  parsed : List (String × Expr) := []
deriving Inhabited

namespace Evaluator

/-- How many expressions are kept. -/
def size (e : Evaluator) : Nat := e.parsed.length

def clear (e : Evaluator) : Evaluator := { e with parsed := [] }

/-- Keeps an expression, where anything is kept at all. -/
def keep (e : Evaluator) (source : String) (expr : Expr) : Evaluator :=
  if e.capacity = 0 then e
  else if e.size ≥ e.capacity then { e with parsed := [(source, expr)] }
  else { e with parsed := (source, expr) :: e.parsed }

/-- Parses a text, unless it is known. -/
def parse (e : Evaluator) (source : String) : Except ExprError Expr × Evaluator :=
  match e.parsed.lookup source with
  | some expr => (.ok expr, e)
  | none =>
    match Expr.parse source with
    | .ok expr => (.ok expr, e.keep source expr)
    | .error err => (.error (.syntactic source err), e)

/-- The value that a text spells. -/
def execute (e : Evaluator) (env : Env) (source : String) : Except ExprError Value × Evaluator :=
  let (parsed, e) := e.parse source
  (parsed.bind fun expr => (expr.eval env).mapError (.evaluation source), e)

/-- Whether a text spells an expression. -/
def validate (e : Evaluator) (source : String) : Bool × Evaluator :=
  let (parsed, e) := e.parse source
  (parsed.isOk, e)

/-- The variables of a text. -/
def extract (e : Evaluator) (source : String) : List String × Evaluator :=
  let (parsed, e) := e.parse source
  (Expr.variableNames source parsed, e)

@[simp] theorem size_clear (e : Evaluator) : e.clear.size = 0 := rfl
@[simp] theorem capacity_clear (e : Evaluator) : e.clear.capacity = e.capacity := rfl

end Evaluator

end LivePage
