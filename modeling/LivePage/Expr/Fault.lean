import LivePage.Expr.Parser
import LivePage.Json.Reader

/-!
# Faults of expressions
-/

namespace LivePage

/-- Why an expression has no value. -/
inductive EvalFault where
  | undefinedVariable (name : String)
  | nullAccess (property : String)
  | typeMismatch (operation found : String)
  | unknownFunction (name : String)
  | argumentCount (function : String) (expected found : Nat)
  | invalidArgument (function : String) (fault : Json.Fault)
  | divisionByZero
deriving DecidableEq, Repr

def EvalFault.message : EvalFault → String
  | undefinedVariable name => s!"`{name}` is not defined"
  | nullAccess property => s!"cannot read `{property}` of null"
  | typeMismatch operation found => s!"`{operation}` cannot be applied to a {found}"
  | unknownFunction name => s!"`{name}` is not a function"
  | argumentCount function expected found =>
    s!"`{function}` expects at least {expected} argument(s), got {found}"
  | invalidArgument function fault => s!"invalid argument to `{function}`: {fault.message}"
  | divisionByZero => "division by zero"

/-- The failure of an expression, with its text. -/
inductive ExprError where
  | syntactic (source : String) (error : SyntaxError)
  | evaluation (source : String) (fault : EvalFault)
deriving DecidableEq, Repr

namespace ExprError

def source : ExprError → String
  | syntactic source _ | evaluation source _ => source

/-- What failed, without the cause behind it. -/
def message : ExprError → String
  | syntactic source e => s!"syntax error in `{source}` at offset {e.position}: {e.message}"
  | evaluation source _ => s!"failed to evaluate `{source}`"

/-- What failed, and the cause behind it. -/
def chain : ExprError → String
  | syntactic source e => message (syntactic source e)
  | evaluation source fault => message (evaluation source fault) ++ ": " ++ fault.message

end ExprError

end LivePage
