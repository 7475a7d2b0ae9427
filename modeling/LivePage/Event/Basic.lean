import LivePage.Value.Basic

/-!
# Events

What a page announces: interactions, changes of state, wishes that only the host can fulfil, and
the course of rendering. Failures are announced apart from all else.
-/

namespace LivePage

inductive EventKind where
  | triggered (event : String)
  | stateUpdated (key : String)
  | variableUpdated (key : String)
  | navigate
  | showMessage
  | openModal
  | closeModal
  | apiCalled
  | renderStarted (page : String)
  | renderCached (page : String)
  | renderCompleted (page : String)
  | cacheCleared
deriving DecidableEq, Repr, Inhabited

namespace EventKind

def name : EventKind → String
  | triggered _ => "EventTriggered"
  | stateUpdated _ => "StateUpdated"
  | variableUpdated _ => "VariableUpdated"
  | navigate => "Navigate"
  | showMessage => "ShowMessage"
  | openModal => "OpenModal"
  | closeModal => "CloseModal"
  | apiCalled => "ApiCalled"
  | renderStarted _ => "RenderStarted"
  | renderCached _ => "RenderCached"
  | renderCompleted _ => "RenderCompleted"
  | cacheCleared => "CacheCleared"

end EventKind

structure Event where
  kind : EventKind
  parameters : Fields Value := []
deriving Repr, Inhabited

namespace Event

/-- A parameter; null where there is none. -/
def parameter (e : Event) (k : String) : Value := (e.parameters.get? k).getD .null

end Event

inductive Severity where
  | warning
  | error
  | critical
deriving DecidableEq, Repr, Inhabited

def Severity.name : Severity → String
  | warning => "Warning"
  | error => "Error"
  | critical => "Critical"

structure ErrorEvent where
  type : String
  message : String
  severity : Severity := .warning
  parameters : Fields Value := []
deriving Repr, Inhabited

/-- Something that is announced. -/
inductive Notice where
  | event (e : Event)
  | error (e : ErrorEvent)
deriving Repr, Inhabited

namespace Notice

def event? : Notice → Option Event
  | event e => some e
  | error _ => none

def error? : Notice → Option ErrorEvent
  | event _ => none
  | error e => some e

@[simp] theorem event?_event (e : Event) : (event e).event? = some e := rfl
@[simp] theorem event?_error (e : ErrorEvent) : (error e).event? = none := rfl
@[simp] theorem error?_event (e : Event) : (event e).error? = none := rfl
@[simp] theorem error?_error (e : ErrorEvent) : (error e).error? = some e := rfl

end Notice

end LivePage
