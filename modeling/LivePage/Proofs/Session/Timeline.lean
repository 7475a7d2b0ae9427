import LivePage.Proofs.Interaction.Account
import LivePage.Proofs.Session.Consequences

/-!
# Timelines

A timeline is a history of a session in which is kept what happened in each operation.  It leaves
open in which of their courses events and waiting runs come to their end.
-/

namespace LivePage.Session

variable {s t u : Session} {ms : List Moment} {i : Interaction} {w : Waiting} {limit : Nat}

/-- A waiting run that has started: the session in which it did, and what happened in it. -/
structure Started where
  session : Session
  run : Deferral
  moments : List Moment

namespace Started

def time (r : Started) : Nat := r.session.now

def depth (r : Started) : Nat := r.session.setting.limit - r.run.level

/-- The run as it has waited, if it starts at its time. -/
def waiting (r : Started) : Waiting := ⟨r.time, r.run⟩

end Started

/-- Time passes up to a time.  Whatever is due until then starts, each run at its own time. -/
inductive Passes (target : Nat) : Session → List Started → Session → Prop where
  | arrived {s : Session} (none : Waiting.next? target s.waiting = none) :
    Passes target s []
      { s with now := max s.now target, cache := s.cache.expire (max s.now target) }
  | started {s t : Session} {w : Waiting} {ms : List Moment} {i : Interaction} {r : List Started}
      (next : Waiting.next? target s.waiting = some w) (fires : s.Fires w ms i)
      (rest : Passes target ((s.begin w).absorb i) r t) :
    Passes target s (⟨s.begin w, w.run, ms⟩ :: r) t

/-- Operations in which actions are run. -/
def Operation.Runs : Operation → Prop
  | dispatch _ _ | advance _ => True
  | _ => False

/-- What an operation does: the runs that start in it, what happens, and where it leads. -/
inductive Step (s : Session) : Operation → List Started → List Moment → Session → Prop where
  | dispatch {event : String} {data : Value} {ms : List Moment} {i : Interaction}
      (h : s.Dispatches event data ms i) : Step s (.dispatch event data) [] ms (s.absorb i)
  | advance {duration : Nat} {rs : List Started} {t : Session}
      (h : Passes (s.now + duration) s rs t) :
    Step s (.advance duration) rs (rs.flatMap (·.moments)) t
  | still {op : Operation} (h : ¬op.Runs) : Step s op [] [] (s.after op)

/-- An operation that was done to a session, with what happened in it. -/
structure Entry where
  before : Session
  operation : Operation
  started : List Started
  moments : List Moment
  after : Session
  step : Step before operation started moments after

namespace Entry

variable {e : Entry} {op : Operation}

theorem exists_dispatches {event : String} {data : Value}
    (he : e.operation = .dispatch event data) :
    ∃ i, e.before.Dispatches event data e.moments i ∧ e.after = e.before.absorb i := by
  obtain ⟨s, op, rs, ms, t, step⟩ := e
  cases step with
  | dispatch h =>
    cases he
    exact ⟨_, h, rfl⟩
  | advance => cases he
  | still hop =>
    cases he
    exact absurd trivial hop

theorem passes {duration : Nat} (he : e.operation = .advance duration) :
    Passes (e.before.now + duration) e.before e.started e.after := by
  obtain ⟨s, op, rs, ms, t, step⟩ := e
  cases step with
  | advance h =>
    cases he
    exact h
  | dispatch => cases he
  | still hop =>
    cases he
    exact absurd trivial hop

theorem still (he : e.operation = op) (hop : ¬op.Runs) :
    e.started = [] ∧ e.moments = [] ∧ e.after = e.before.after op := by
  obtain ⟨s, op, rs, ms, t, step⟩ := e
  subst he
  cases step with
  | still => exact ⟨rfl, rfl, rfl⟩
  | dispatch | advance => exact absurd trivial hop

end Entry

/-- Each entry finds the session that the one before it has left. -/
def Timeline : Session → List Entry → Session → Prop
  | s, [], t => s = t
  | s, e :: r, t => e.before = s ∧ Timeline e.after r t

theorem timeline_append {es fs : List Entry} :
    Timeline s (es ++ fs) t ↔ ∃ u, Timeline s es u ∧ Timeline u fs t := by
  induction es generalizing s with
  | nil => exact ⟨fun h ↦ ⟨s, rfl, h⟩, fun ⟨_, h, h'⟩ ↦ h ▸ h'⟩
  | cons e r ih =>
    simp only [Timeline, List.cons_append, ih]
    exact ⟨fun ⟨h, u, hr, hf⟩ ↦ ⟨u, ⟨h, hr⟩, hf⟩, fun ⟨u, ⟨h, hr⟩, hf⟩ ↦ ⟨h, u, hr, hf⟩⟩

/-- What was before an entry is a timeline that leads to it. -/
theorem Timeline.until {es fs : List Entry} {e : Entry} (h : Timeline s (es ++ e :: fs) t) :
    Timeline s es e.before := by
  obtain ⟨u, h, rfl, -⟩ := timeline_append.mp h
  exact h

/-! ## What a session does is a timeline -/

theorem Orderly.exists_passes (h : Orderly limit s) (target : Nat) :
    ∃ rs, Passes target s rs (s.advance target) := by
  fun_induction Session.advance s target with
  | case1 s w next ih =>
    have hw := (Waiting.mem_of_next? next).1
    obtain ⟨ms, i, fires, he⟩ := h.exists_fires hw
    obtain ⟨rs, rest⟩ := ih (h.fire hw)
    generalize (s.fire w).advance target = t at rest ⊢
    rw [he] at rest
    exact ⟨_, .started next fires rest⟩
  | case2 s next => exact ⟨[], .arrived next⟩

theorem Orderly.exists_step (h : Orderly limit s) (op : Operation) :
    ∃ rs ms, Step s op rs ms (s.after op) := by
  cases op with
  | dispatch event data =>
    obtain ⟨ms, i, hd, he⟩ := s.exists_dispatches event data
    refine ⟨[], ms, ?_⟩
    rw [Session.after, he]
    exact .dispatch hd
  | advance duration =>
    obtain ⟨rs, hp⟩ := h.exists_passes (s.now + duration)
    exact ⟨rs, _, .advance hp⟩
  | _ => exact ⟨[], [], .still id⟩

theorem Orderly.exists_timeline (h : Orderly limit s) (ops : List Operation) :
    ∃ es, es.map (·.operation) = ops ∧ Timeline s es (s.run ops) := by
  induction ops generalizing s with
  | nil => exact ⟨[], rfl, rfl⟩
  | cons op r ih =>
    obtain ⟨rs, ms, step⟩ := h.exists_step op
    obtain ⟨es, rfl, timeline⟩ := ih (h.after op)
    exact ⟨⟨s, op, rs, ms, _, step⟩ :: es, rfl, rfl, timeline⟩

end LivePage.Session
