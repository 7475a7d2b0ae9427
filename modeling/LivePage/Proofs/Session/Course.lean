import LivePage.Proofs.Interaction.Adequacy
import LivePage.Session.Dispatch

/-!
# Courses of events in a session

What follows at once from an event, and from a run that has waited for its time, is a course.
-/

namespace LivePage.Session

variable {s : Session} {w : Waiting}

/-- The moments that can follow from an event at once, and the interaction that they lead to. -/
def Dispatches (s : Session) (event : String) (data : Value) (ms : List Moment) (t : Interaction) :
    Prop :=
  Course s.setting 0 (.event event data) ms (.ok ()) ∧ Moment.Joined s.setting s.interaction ms t

theorem exists_dispatches (s : Session) (event : String) (data : Value) :
    ∃ ms t, s.Dispatches event data ms t ∧ (s.dispatch event data).1 = s.absorb t := by
  have hd : 0 + s.setting.limit = s.setting.limit := Nat.zero_add _
  obtain ⟨ms, hc, hj⟩ := reaches_dispatch (reaches_run hd) hd event data s.interaction
  exact ⟨ms, _, ⟨hc, hj⟩, rfl⟩

/-- The session in which a waiting run starts. -/
def begin (s : Session) (w : Waiting) : Session :=
  { s with now := max s.now w.due, waiting := Waiting.cancel w.number s.waiting }

/-- How deep a waiting run was when it was put off. -/
def depthOf (s : Session) (w : Waiting) : Nat := s.setting.limit - w.run.level

/-- The moments that can follow from a waiting run, and the interaction that they lead to. -/
def Fires (s : Session) (w : Waiting) (ms : List Moment) (t : Interaction) : Prop :=
  Course (s.begin w).setting (s.depthOf w)
      (.handler w.run.target w.run.executionId w.run.data) ms (.ok ()) ∧
    Moment.Joined (s.begin w).setting s.interaction ms t

theorem exists_fires (h : w.run.level ≤ s.setting.limit) :
    ∃ ms t, s.Fires w ms t ∧ s.fire w = (s.begin w).absorb t := by
  have hd : s.depthOf w + w.run.level = (s.begin w).setting.limit := Nat.sub_add_cancel h
  obtain ⟨ms, hc, hj⟩ := reaches_handler (reaches_run hd) w.run.target w.run.executionId
    w.run.data s.interaction
  exact ⟨ms, _, ⟨hc, hj⟩, rfl⟩

end LivePage.Session
