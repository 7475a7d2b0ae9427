import LivePage.Event.Registry
import LivePage.Interaction.Order
import LivePage.Page.Condition

/-!
# Interactions

What handlers read and change. Handlers do not see the runs that wait for their time: a run that
is put off is only noted here.
-/

namespace LivePage

/-- A run of a handler that is put off for a window of time. At its time the chain of its actions
has `level` levels left below it. -/
structure Deferral where
  target : Registered
  data : Value
  executionId : String
  level : Nat
  window : Nat
  positive : 0 < window

/-- What stays the same while handlers run. -/
structure Setting where
  host : Host
  registry : Registry
  now : Nat
  /-- How deep actions may follow from one another. -/
  limit : Nat

structure Interaction where
  context : Context := {}
  executions : Nat := 0
  requests : List Request := []
  calls : List Call := []
  notices : List Notice := []
  /-- When handlers with a throttle window were admitted last, by number. -/
  admitted : List (Nat × Nat) := []
  deferrals : List Deferral := []

namespace Interaction

def announce (s : Interaction) (n : Notice) : Interaction :=
  { s with notices := s.notices ++ [n] }

def notify (s : Interaction) (kind : EventKind) (parameters : Fields Value) : Interaction :=
  s.announce (.event ⟨kind, parameters⟩)

/-- Writes at a path in a part of the context, and announces what was written. -/
def write (s : Interaction) (k : Namespace) (kind : EventKind) (path : String) (v : Value) :
    Interaction × Except ActionError Unit :=
  match s.context.assign k path v with
  | (c, none) => (({ s with context := c }).notify kind [("value", v)], .ok ())
  | (c, some e) => ({ s with context := c }, .error (.assign path e))

def setState (s : Interaction) (key : String) (v : Value) : Interaction × Except ActionError Unit :=
  s.write .state (.stateUpdated key) key v

def setVariable (s : Interaction) (key : String) (v : Value) :
    Interaction × Except ActionError Unit :=
  s.write .vars (.variableUpdated key) key v

/-- Keeps a value in the state, where a key is given. -/
def keep (s : Interaction) (key? : Option String) (v : Value) :
    Interaction × Except ActionError Unit :=
  match key? with
  | some key => s.setState key v
  | none => (s, .ok ())

/-- Asks the host for the answer to a request. -/
def ask (s : Interaction) (h : Host) (r : Request) : Interaction × Except ActionError Value :=
  let answer := h.answer s.requests r
  let s := { s with requests := s.requests ++ [r] }
  match answer with
  | .ok v => (s.notify .apiCalled [("method", .str r.method), ("url", .str r.url)], .ok v)
  | .error e => (s, .error (.network e))

/-- Calls a function of the host. -/
def call (s : Interaction) (h : Host) (c : Call) : Interaction × Except ActionError Value :=
  match h.function? c.function with
  | none => (s, .error (.unknownFunction c.function))
  | some f =>
    let result := f s.calls c.args c.data
    let s := { s with calls := s.calls ++ [c] }
    (s, result.mapError (.function c.function))

/-- The names that expressions see in an action. -/
def env (s : Interaction) (clock : Int) (data : Value) : Env :=
  ⟨s.context.scope.insert "eventData" data, clock⟩

end Interaction

end LivePage
