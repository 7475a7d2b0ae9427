import LivePage.Interaction.Basic

/-!
# Dispatching events

On an event its handlers are taken in the order of registration. First it is decided on each of
them, and only then those that are admitted run, so that none of them changes what becomes of
another. How the actions of a handler run is left open here.
-/

namespace LivePage

/-- How a list of actions is run with the data of an event. -/
abbrev Runner := List Action → Value → Interaction → Interaction × Except ActionError Unit

structure Failure where
  nodeId : String
  event : String
  error : String
deriving DecidableEq, Repr

def Failure.toValue (f : Failure) : Value :=
  .obj [("nodeId", .str f.nodeId), ("event", .str f.event), ("error", .str f.error)]

/-- What became of the handlers of an event. -/
structure Report where
  event : String
  executionId : String
  handled : Nat
  skipped : Nat
  scheduled : Nat
  suppressed : Nat
  failures : List Failure
deriving DecidableEq, Repr

namespace Report

def succeeded (r : Report) : Bool := r.failures.isEmpty

def toValue (r : Report) : Value :=
  .obj [("event", .str r.event), ("executionId", .str r.executionId), ("handled", .nat r.handled),
    ("skipped", .nat r.skipped), ("scheduled", .nat r.scheduled),
    ("suppressed", .nat r.suppressed), ("failures", .arr (r.failures.map Failure.toValue))]

end Report

/-- Runs a handler, and announces its failure. -/
def Registered.run (run : Runner) (executionId : String) (data : Value) (x : Registered)
    (s : Interaction) : Interaction × Option Failure :=
  match run x.handler.actions data s with
  | (s, .ok ()) => (s, none)
  | (s, .error e) =>
    let f : Failure := ⟨x.nodeId, x.handler.event, e.chain⟩
    (s.announce (.error {
      type := "HandlerFailed", message := f.error, severity := .error
      parameters := [("event", .str f.event), ("executionId", .str executionId),
        ("nodeId", .str f.nodeId)] }), some f)

/-- What is decided on a handler before any handler of its event runs. -/
inductive Admission where
  | skipped
  | suppressed
  | scheduled
  | admitted
deriving DecidableEq, Repr

namespace Dispatch

/-- A window that is not empty. -/
def window? : Option Nat → Option { w : Nat // 0 < w }
  | some (w + 1) => some ⟨w + 1, w.succ_pos⟩
  | _ => none

/-- Whether a throttle window lets a handler pass. -/
def permits (now : Nat) (s : Interaction) (x : Registered) (w : Nat) : Bool :=
  match s.admitted.lookup x.number with
  | some last => now - last ≥ w
  | none => true

/-- Starts a throttle window. -/
def pass (now : Nat) (s : Interaction) (x : Registered) : Interaction :=
  { s with admitted := (x.number, now) :: s.admitted.filter (·.1 != x.number) }

/-- Puts a handler off, if it has a debounce window. -/
def defer (level : Nat) (executionId : String) (data : Value) (x : Registered) (s : Interaction) :
    Admission × Interaction :=
  match window? x.handler.debounce with
  | some ⟨w, h⟩ =>
    (.scheduled, { s with deferrals := s.deferrals ++ [⟨x, data, executionId, level, w, h⟩] })
  | none => (.admitted, s)

/-- Decides on a handler: by its condition, its throttle window and its debounce window. -/
def consider (st : Setting) (level : Nat) (executionId : String) (data : Value) (x : Registered)
    (s : Interaction) : Admission × Interaction :=
  if !Condition.holds? s.context st.host.clock x.handler.condition then (.skipped, s)
  else match window? x.handler.throttle with
    | some ⟨w, _⟩ =>
      if permits st.now s x w then defer level executionId data x (pass st.now s x)
      else (.suppressed, s)
    | none => defer level executionId data x s

def considerAll (st : Setting) (level : Nat) (executionId : String) (data : Value) :
    List Registered → Interaction → List (Registered × Admission) × Interaction
  | [], s => ([], s)
  | x :: r, s =>
    let (a, s) := consider st level executionId data x s
    let (rest, s) := considerAll st level executionId data r s
    ((x, a) :: rest, s)

/-- Runs handlers one after another; the failure of one is nothing to the others. -/
def runAll (run : Runner) (executionId : String) (data : Value) :
    List Registered → Interaction → Interaction × List Failure
  | [], s => (s, [])
  | x :: r, s =>
    let (s, f) := x.run run executionId data s
    let (s, fs) := runAll run executionId data r s
    (s, f.toList ++ fs)

/-- The handlers on which something was decided. -/
def chosen (a : Admission) (verdicts : List (Registered × Admission)) : List Registered :=
  (verdicts.filter (·.2 == a)).map Prod.fst

/-- Announces an event, decides on its handlers in order, and then runs those that are admitted. -/
def dispatch (st : Setting) (level : Nat) (run : Runner) (event : String) (data : Value)
    (s : Interaction) : Interaction × Report :=
  let id := s!"execution-{s.executions}"
  let s := { s with executions := s.executions + 1 }
  let s := s.notify (.triggered event) [("data", data), ("executionId", .str id)]
  let (verdicts, s) := considerAll st level id data (st.registry.handlersFor event) s
  let count (a : Admission) : Nat := (chosen a verdicts).length
  let (s, failures) := runAll run id data (chosen .admitted verdicts) s
  (s, {
    event := event, executionId := id, handled := count .admitted, skipped := count .skipped
    scheduled := count .scheduled, suppressed := count .suppressed, failures := failures })

end Dispatch

end LivePage
