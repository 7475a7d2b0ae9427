import LivePage.Interaction.Host
import LivePage.Event.Basic
import LivePage.Page.Tree
import LivePage.Template

/-!
# Orders

What an action asks for, once the templates in its configuration are rendered.
-/

namespace LivePage

inductive ActionError where
  | missing (action field : String)
  | expression (error : ExprError)
  | network (error : NetworkError)
  | assign (key : String) (error : PathError)
  | unknownFunction (name : String)
  | function (name message : String)
  | tooDeep (depth limit : Nat)
deriving DecidableEq, Repr

namespace ActionError

/-- What failed, without the cause behind it. -/
def message : ActionError → String
  | missing action field => s!"{action} action requires `{field}`"
  | expression e => e.message
  | network e => e.message
  | assign key _ => s!"cannot assign `{key}`"
  | unknownFunction name => s!"function `{name}` is not registered"
  | function name message => s!"function `{name}` failed: {message}"
  | tooDeep depth limit =>
    s!"action chain too deep: depth {depth} exceeds the limit of {limit}"

/-- What failed, and the causes behind it. -/
def chain : ActionError → String
  | expression e => e.chain
  | assign key e => message (assign key e) ++ ": " ++ e.message
  | e => e.message

end ActionError

inductive Order where
  | setState (key : String) (v : Value)
  | setVariable (key : String) (v : Value)
  | announce (e : Event)
  /-- Keeps a value in the state, where a key is given. -/
  | keep (key? : Option String) (v : Value)
  | request (r : Request) (key? : Option String)
  | call (function : String) (args : List Value) (key? : Option String)
  | trigger (event : String) (data : Value)
  | nothing
deriving Repr, Inhabited

namespace Order

/-- A setting that must be there, and neither null nor empty text. -/
def required (kind : ActionKind) (config : Fields Value) (field : String) :
    Except ActionError Value :=
  match config.get? field with
  | none | some .null | some (.str "") => .error (.missing kind.tag field)
  | some v => .ok v

def requiredText (kind : ActionKind) (config : Fields Value) (field : String) :
    Except ActionError String :=
  (required kind config field).map Value.display

def optional (config : Fields Value) (field : String) : Value := (config.get? field).getD .null

/-- A setting that is text, or else a default. -/
def textOr (config : Fields Value) (field default : String) : String :=
  ((config.get? field).bind Value.text?).getD default

def resultKey? (config : Fields Value) : Option String :=
  (config.get? "resultKey").bind Value.text?

def requestOf (config : Fields Value) (url : String) : Request where
  url := url
  method := textOr config "method" "GET"
  headers := (optional config "headers").members.map fun (k, v) => (k, v.display)
  body := match optional config "body" with
    | .null => none
    | v => some v

/-- A list of arguments, or a single one; null is none. -/
def argsOf (config : Fields Value) : List Value :=
  match optional config "args" with
  | .null => []
  | .arr vs => vs
  | v => [v]

/-- The order of a kind of action, from its rendered configuration. -/
def ofConfig (kind : ActionKind) (config : Fields Value) : Except ActionError Order :=
  match kind with
  | .setState => do
    let key ← requiredText kind config "key"
    return setState key (optional config "value")
  | .setVariable => do
    let key ← requiredText kind config "key"
    return setVariable key (optional config "value")
  | .callApi => do
    let url ← requiredText kind config "url"
    return request (requestOf config url) (resultKey? config)
  | .navigate => do
    let url ← requiredText kind config "url"
    return announce ⟨.navigate, [("url", .str url)]⟩
  | .showMessage => do
    let message ← required kind config "message"
    let type := textOr config "type" "info"
    return announce ⟨.showMessage, [("message", message), ("type", .str type)]⟩
  | .openModal => do
    let modal ← required kind config "modalId"
    return announce ⟨.openModal, [("modalId", modal)]⟩
  | .closeModal => .ok (announce ⟨.closeModal, [("modalId", optional config "modalId")]⟩)
  | .triggerEvent => do
    let event ← requiredText kind config "event"
    return trigger event (optional config "data")
  | .callFunction => do
    let function ← requiredText kind config "function"
    return call function (argsOf config) (resultKey? config)
  | _ => .ok nothing

/-- What running a text asks for. Its configuration holds no templates. -/
def ofCode (env : Env) (config : Fields Value) : Except ActionError Order := do
  let code ← requiredText .executeCode config "code"
  let v ← (Expr.run env code).mapError .expression
  return keep (resultKey? config) v

/-- Whether the configuration of a kind of action is rendered at all. -/
def isRendered : ActionKind → Bool
  | .setState | .setVariable | .callApi | .navigate | .showMessage | .openModal | .closeModal
  | .triggerEvent | .callFunction => true
  | _ => false

/-- The order of an action. -/
def ofAction (env : Env) (a : Action) : Except ActionError Order :=
  match a.kind with
  | .executeCode => ofCode env a.config
  | kind =>
    if isRendered kind then do
      let config ← (Template.renderMembers env a.config).mapError .expression
      ofConfig kind config
    else .ok nothing

end Order

end LivePage
