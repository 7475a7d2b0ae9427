/-!
# Tags of page documents

Kinds are written as text. A kind that is not known keeps its text, so that a page with it can
still be read and written; only a kind that is known may have more than one spelling.
-/

namespace LivePage

inductive BindingKind where
  | static
  | expression
  | datasource
  | state
  | var
  | context
  | computed
  | unknown (tag : String)
deriving DecidableEq, Repr, Inhabited

namespace BindingKind

def tag : BindingKind → String
  | static => "static"
  | expression => "expression"
  | datasource => "datasource"
  | state => "state"
  | var => "variable"
  | context => "context"
  | computed => "computed"
  | unknown tag => tag

def known : List BindingKind :=
  [static, expression, datasource, state, var, context, computed]

def ofTag (s : String) : BindingKind := (known.find? (·.tag == s)).getD (unknown s)

end BindingKind

inductive BindingMode where
  | oneWay
  | twoWay
  | strict
deriving DecidableEq, Repr, Inhabited

namespace BindingMode

def tag : BindingMode → String
  | oneWay => "one-way"
  | twoWay => "two-way"
  | strict => "strict"

def ofTag? (s : String) : Option BindingMode := [oneWay, twoWay, strict].find? (·.tag == s)

end BindingMode

inductive Logic where
  | and
  | or
deriving DecidableEq, Repr, Inhabited

namespace Logic

def tag : Logic → String
  | and => "and"
  | or => "or"

def ofTag? (s : String) : Option Logic := [and, or].find? (·.tag == s)

end Logic

/-- How a condition compares a field with a value. -/
inductive Comparison where
  | equals
  | notEquals
  | contains
  | notContains
  | greaterThan
  | lessThan
  | greaterThanOrEqual
  | lessThanOrEqual
  | isEmpty
  | isNotEmpty
  | isIn
  | notIn
  | startsWith
  | endsWith
  | isMatch
  | unknown (tag : String)
deriving DecidableEq, Repr, Inhabited

namespace Comparison

def tag : Comparison → String
  | equals => "equals"
  | notEquals => "notEquals"
  | contains => "contains"
  | notContains => "notContains"
  | greaterThan => "greaterThan"
  | lessThan => "lessThan"
  | greaterThanOrEqual => "greaterThanOrEqual"
  | lessThanOrEqual => "lessThanOrEqual"
  | isEmpty => "isEmpty"
  | isNotEmpty => "isNotEmpty"
  | isIn => "in"
  | notIn => "notIn"
  | startsWith => "startsWith"
  | endsWith => "endsWith"
  | isMatch => "matches"
  | unknown tag => tag

/-- Symbols that may be written for some comparisons. -/
def symbol? : Comparison → Option String
  | equals => some "=="
  | notEquals => some "!="
  | greaterThan => some ">"
  | lessThan => some "<"
  | greaterThanOrEqual => some ">="
  | lessThanOrEqual => some "<="
  | _ => none

def known : List Comparison :=
  [equals, notEquals, contains, notContains, greaterThan, lessThan, greaterThanOrEqual,
    lessThanOrEqual, isEmpty, isNotEmpty, isIn, notIn, startsWith, endsWith, isMatch]

def ofTag (s : String) : Comparison :=
  (known.find? fun c => c.tag == s || c.symbol? == some s).getD (unknown s)

end Comparison

/-- What an action does. The kinds behind `callFunction` may be written in a page and do
nothing. -/
inductive ActionKind where
  | setState
  | setVariable
  | callApi
  | navigate
  | showMessage
  | openModal
  | closeModal
  | executeCode
  | triggerEvent
  | callFunction
  | condition
  | loop
  | parallel
  | sequence
  | updateComponent
  | showComponent
  | hideComponent
  | showNotification
  | callWorkflow
  | unknown (tag : String)
deriving DecidableEq, Repr, Inhabited

namespace ActionKind

def tag : ActionKind → String
  | setState => "setState"
  | setVariable => "setVariable"
  | callApi => "callApi"
  | navigate => "navigate"
  | showMessage => "showMessage"
  | openModal => "openModal"
  | closeModal => "closeModal"
  | executeCode => "executeCode"
  | triggerEvent => "triggerEvent"
  | callFunction => "callFunction"
  | condition => "condition"
  | loop => "loop"
  | parallel => "parallel"
  | sequence => "sequence"
  | updateComponent => "updateComponent"
  | showComponent => "showComponent"
  | hideComponent => "hideComponent"
  | showNotification => "showNotification"
  | callWorkflow => "callWorkflow"
  | unknown tag => tag

/-- Another spelling of some kinds. -/
def alias? : ActionKind → Option String
  | callApi => some "callAPI"
  | executeCode => some "customCode"
  | _ => none

def reserved : List ActionKind :=
  [condition, loop, parallel, sequence, updateComponent, showComponent, hideComponent,
    showNotification, callWorkflow]

def known : List ActionKind :=
  [setState, setVariable, callApi, navigate, showMessage, openModal, closeModal, executeCode,
    triggerEvent, callFunction] ++ reserved

def ofTag (s : String) : ActionKind :=
  (known.find? fun k => k.tag == s || k.alias? == some s).getD (unknown s)

/-- Kinds that may be written in a page and do nothing. -/
def isReserved (k : ActionKind) : Bool := reserved.contains k

end ActionKind

end LivePage
