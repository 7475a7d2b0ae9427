import LivePage.Page.Analysis
import LivePage.Page.Validation
import LivePage.Render.Element

/-!
# Failures of rendering
-/

namespace LivePage

inductive RenderError where
  | invalid (violations : List Violation)
  | limit (error : LimitError)
  | binding (error : PropError)
  | cancelled
deriving DecidableEq, Repr

namespace RenderError

/-- What failed, without the causes behind it. -/
def message : RenderError → String
  | invalid xs => Violation.summary xs
  | limit e => e.message
  | binding e => s!"binding `{e.target}` on node `{e.nodeId}` failed"
  | cancelled => "render cancelled"

/-- What failed, and the causes behind it. -/
def chain : RenderError → String
  | binding e => message (binding e) ++ ": " ++ e.error.chain
  | e => e.message

end RenderError

end LivePage
