import LivePage.Interaction.Run
import LivePage.Session.Basic

/-!
# Events and time in a session

Handlers are registered and removed, events are dispatched to them, and time passes. Time moves
only in `advance`, which starts the waiting runs that are due, each at its own time and with all
that follows from it.
-/

namespace LivePage.Session

/-! ## Handlers -/

def register (s : Session) (nodeId : String) (h : Handler) : Session :=
  { s with registry := s.registry.register nodeId h }

/-- Registers the handlers of all nodes of a page, and tells how many there are. -/
def registerPage (s : Session) (p : Page) : Nat × Session :=
  ((p.nodes.flatMap (·.events)).length, { s with registry := s.registry.registerPage p })

/-- Registers the handlers of a page, if it is valid. -/
def mount (s : Session) (p : Page) : Session × Except RenderError Nat :=
  if p.isValid then
    let (n, s) := s.registerPage p
    (s, .ok n)
  else (s, .error (.invalid p.violations))

/-- Cancels the waiting runs of handlers. -/
def cancel (s : Session) (xs : List Registered) : Session :=
  { s with waiting := xs.foldl (fun ws x => Waiting.cancel x.number ws) s.waiting }

/-- Removes the handlers of a node, or those of them for one event, and tells how many. -/
def unregister (s : Session) (nodeId : String) (event? : Option String) : Nat × Session :=
  let removed := s.registry.ofNode nodeId event?
  (removed.length, { s.cancel removed with registry := s.registry.unregister nodeId event? })

def unregisterAll (s : Session) : List Node → Nat × Session
  | [] => (0, s)
  | n :: r =>
    let (k, s) := s.unregister n.id none
    let (m, s) := s.unregisterAll r
    (k + m, s)

/-- Removes the handlers of all nodes of a page, and tells how many. -/
def unmount (s : Session) (p : Page) : Nat × Session := s.unregisterAll p.nodes

def clearHandlers (s : Session) : Session :=
  { s.cancel s.registry.all with registry := s.registry.clear }

/-! ## Events and time -/

/-- Takes over what handlers have done; the runs that they put off wait from now on. -/
def absorb (s : Session) (i : Interaction) : Session :=
  { s with
    waiting := i.deferrals.foldl (Waiting.add s.now) s.waiting
    interaction := { i with deferrals := [] } }

def dispatch (s : Session) (event : String) (data : Value) : Session × Report :=
  let level := s.setting.limit
  let (i, r) :=
    Dispatch.dispatch s.setting level (Action.run s.setting level) event data s.interaction
  (s.absorb i, r)

/-- Starts a waiting run. -/
def fire (s : Session) (w : Waiting) : Session :=
  let s := { s with now := max s.now w.due, waiting := Waiting.cancel w.number s.waiting }
  let run := Action.run s.setting w.run.level
  s.absorb (w.run.target.run run w.run.executionId w.run.data s.interaction).1

@[simp] theorem now_fire (s : Session) (w : Waiting) : (s.fire w).now = max s.now w.due := rfl

theorem countDue_fire_lt {s : Session} {w : Waiting} (hw : w ∈ s.waiting) (hd : w.due ≤ s.now) :
    Waiting.countDue s.now (s.fire w).waiting < Waiting.countDue s.now s.waiting := by
  have h : max s.now w.due = s.now := by omega
  simp only [fire, absorb, h]
  exact Nat.lt_of_le_of_lt (Waiting.countDue_foldl_add_le ..) (Waiting.countDue_cancel_lt hw hd)

/-- Lets time pass up to a time. -/
def advance (s : Session) (target : Nat) : Session :=
  match _h : Waiting.next? target s.waiting with
  | some w => (s.fire w).advance target
  | none => { s with now := max s.now target, cache := s.cache.expire (max s.now target) }
termination_by (target - s.now, Waiting.countDue s.now s.waiting)
decreasing_by
  obtain ⟨hw, ht⟩ := Waiting.mem_of_next? _h
  by_cases hd : w.due ≤ s.now
  · have hn : (s.fire w).now = s.now := by simp [hd]
    rw [hn]
    exact Prod.Lex.right _ (countDue_fire_lt hw hd)
  · exact Prod.Lex.left _ _ (by simp only [now_fire]; omega)

end LivePage.Session
