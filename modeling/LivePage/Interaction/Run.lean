import LivePage.Interaction.Dispatch

/-!
# Running actions

Actions run one after another. What follows the success or the failure of an action, and the
handlers of an event that it triggers, run one level below it; the number of levels is limited.
-/

namespace LivePage

/-- The level below that of an action. -/
structure Below where
  /-- How many levels there are below this one. -/
  level : Nat
  run : Runner

namespace Action

/-- Where there is no level below, a chain of actions ends. -/
def tooDeep (st : Setting) : ActionError := .tooDeep (st.limit + 1) st.limit

/-- Runs actions on the level below. -/
def descend (st : Setting) (below : Option Below) (actions : List Action) (data : Value)
    (s : Interaction) : Interaction × Except ActionError Unit :=
  match below with
  | some b => b.run actions data s
  | none => (s, .error (tooDeep st))

/-- Does what an order asks for. -/
def obey (st : Setting) (below : Option Below) (data : Value) (s : Interaction) :
    Order → Interaction × Except ActionError Unit
  | .setState key v => s.setState key v
  | .setVariable key v => s.setVariable key v
  | .announce e => (s.announce (.event e), .ok ())
  | .keep key? v => s.keep key? v
  | .request r key? =>
    match s.ask st.host r with
    | (s, .ok v) => s.keep key? v
    | (s, .error e) => (s, .error e)
  | .call function args key? =>
    match s.call st.host ⟨function, args, data⟩ with
    | (s, .ok v) => s.keep key? v
    | (s, .error e) => (s, .error e)
  | .trigger event payload =>
    match below with
    | some b => ((Dispatch.dispatch st b.level b.run event payload s).1, .ok ())
    | none => (s, .error (tooDeep st))
  | .nothing => (s, .ok ())

def perform (st : Setting) (below : Option Below) (a : Action) (data : Value) (s : Interaction) :
    Interaction × Except ActionError Unit :=
  match Order.ofAction (s.env st.host.clock data) a with
  | .ok order => obey st below data s order
  | .error e => (s, .error e)

/-- The data with which actions follow a failure. -/
def faultData (e : ActionError) (data : Value) : Value :=
  .obj [("error", .str e.chain), ("originalEventData", data)]

/-- Performs an action and what follows its success; what follows its failure is run where there
is something to follow, unless the chain of actions is too deep. -/
def attempt (st : Setting) (below : Option Below) (a : Action) (data : Value) (s : Interaction) :
    Interaction × Except ActionError Unit :=
  let (s, outcome) :=
    match a.perform st below data s, a.onSuccess with
    | (s, .ok ()), some actions => descend st below actions data s
    | result, _ => result
  match outcome, a.onError with
  | .error (.tooDeep depth limit), _ => (s, .error (.tooDeep depth limit))
  | .error e, some actions => descend st below actions (faultData e data) s
  | outcome, _ => (s, outcome)

/-- Runs actions in order, up to the first failure that is not followed. An action whose condition
does not hold is passed over. -/
def runList (st : Setting) (below : Option Below) : Runner
  | [], _, s => (s, .ok ())
  | a :: r, data, s =>
    if Condition.holds? s.context st.host.clock a.condition then
      match a.attempt st below data s with
      | (s, .ok ()) => runList st below r data s
      | (s, .error e) => (s, .error e)
    else runList st below r data s

/-- Runs actions that have some levels below them. -/
def run (st : Setting) : (level : Nat) → Runner
  | 0, actions, data, s => runList st none actions data s
  | level + 1, actions, data, s => runList st (some ⟨level, run st level⟩) actions data s

end Action

end LivePage
