import LivePage.Event.Bus
import LivePage.Interaction.Order
import LivePage.Json.Decode
import LivePage.Render.Fault

/-!
# Errors

A failure of any part, as it is told to the host. Its message names the part, and then says what
failed without the causes behind it.
-/

namespace LivePage

inductive Error where
  | render (e : RenderError)
  | invalid (violations : List Violation)
  | limit (e : LimitError)
  | expression (e : ExprError)
  | condition (e : ConditionError)
  | binding (e : BindingError)
  | path (e : PathError)
  | action (e : ActionError)
  | network (e : NetworkError)
  | receive (e : ReceiveError)
  | file (reason : String)
  | document (e : Json.DecodeError)
  | internal (reason : String)
deriving DecidableEq, Repr

namespace Error

def message : Error → String
  | render e => "Engine error: " ++ e.message
  | invalid xs => "Schema validation error: " ++ Violation.summary xs
  | limit e => "Resource limit error: " ++ e.message
  | expression e => "Expression error: " ++ e.message
  | condition e => "Condition error: " ++ e.message
  | binding e => "Binding error: " ++ e.message
  | path e => "Path error: " ++ e.message
  | action e => "Action error: " ++ e.message
  | network e => "Network error: " ++ e.message
  | receive e => "Event error: " ++ e.message
  | file reason => "IO error: " ++ reason
  | document e => "JSON error: " ++ e.message
  | internal reason => "Internal error: " ++ reason

/-- A text that holds no configuration. -/
def config (e : Json.DecodeError) : Error := internal ("Failed to parse config: " ++ e.message)

end Error

end LivePage
