import LivePage.Interaction.Dispatch

/-!
# Deciding on handlers

Before any handler of an event runs, the event is announced and it is decided on all of them.  That
is done at once, and leaves the context alone.
-/

namespace LivePage

namespace Dispatch

/-- Announces an event and decides on its handlers. -/
def decide (st : Setting) (level : Nat) (event : String) (data : Value) (s : Interaction) :
    List (Registered × Admission) × Interaction :=
  let id := s!"execution-{s.executions}"
  let s := { s with executions := s.executions + 1 }
  let s := s.notify (.triggered event) [("data", data), ("executionId", .str id)]
  considerAll st level id data (st.registry.handlersFor event) s

/-- The handlers of an event that run at once. -/
def admitted (st : Setting) (level : Nat) (event : String) (data : Value) (s : Interaction) :
    List Registered :=
  chosen .admitted (decide st level event data s).1

/-! ## What decisions leave -/

theorem exists_defer_eq (level : Nat) (id : String) (data : Value) (x : Registered)
    (s : Interaction) :
    ∃ ds, (defer level id data x s).2 = { s with deferrals := s.deferrals ++ ds } ∧
      ∀ d ∈ ds, d.target = x ∧ d.level = level := by
  unfold defer
  split
  · exact ⟨_, rfl, List.forall_mem_singleton.mpr ⟨rfl, rfl⟩⟩
  · exact ⟨[], by rw [List.append_nil], List.forall_mem_nil _⟩

theorem exists_consider_eq (st : Setting) (level : Nat) (id : String) (data : Value)
    (x : Registered) (s : Interaction) :
    ∃ as ds, (consider st level id data x s).2 =
        { s with admitted := as, deferrals := s.deferrals ++ ds } ∧
      ∀ d ∈ ds, d.target = x ∧ d.level = level := by
  have unchanged : ∃ as ds, s = { s with admitted := as, deferrals := s.deferrals ++ ds } ∧
      ∀ d ∈ ds, d.target = x ∧ d.level = level :=
    ⟨s.admitted, [], by rw [List.append_nil], List.forall_mem_nil _⟩
  unfold consider
  split
  · exact unchanged
  · split
    · split
      · obtain ⟨ds, h, hd⟩ := exists_defer_eq level id data x (pass st.now s x)
        exact ⟨_, ds, h, hd⟩
      · exact unchanged
    · obtain ⟨ds, h, hd⟩ := exists_defer_eq level id data x s
      exact ⟨_, ds, h, hd⟩

theorem exists_considerAll_eq (st : Setting) (level : Nat) (id : String) (data : Value)
    (xs : List Registered) (s : Interaction) :
    ∃ as ds, (considerAll st level id data xs s).2 =
        { s with admitted := as, deferrals := s.deferrals ++ ds } ∧
      ∀ d ∈ ds, d.target ∈ xs ∧ d.level = level := by
  induction xs generalizing s with
  | nil => exact ⟨s.admitted, [], by rw [List.append_nil]; rfl, List.forall_mem_nil _⟩
  | cons x r ih =>
    obtain ⟨_, ds, h, hd⟩ := exists_consider_eq st level id data x s
    obtain ⟨as, es, h', he⟩ := ih (consider st level id data x s).2
    refine ⟨as, ds ++ es, ?_, fun d hm ↦ ?_⟩
    · rw [considerAll, h', h, List.append_assoc]
    · rcases List.mem_append.mp hm with hm | hm
      · exact ⟨(hd d hm).1 ▸ .head _, (hd d hm).2⟩
      · exact ⟨.tail _ (he d hm).1, (he d hm).2⟩

/-- A decision announces the event, and puts off handlers of it; for all else that can be seen, it
changes nothing. -/
theorem exists_decide_eq (st : Setting) (level : Nat) (event : String) (data : Value)
    (s : Interaction) :
    ∃ parameters as ds, (decide st level event data s).2 =
        { s with
          executions := s.executions + 1
          notices := s.notices ++ [.event ⟨.triggered event, parameters⟩]
          admitted := as, deferrals := s.deferrals ++ ds } ∧
      ∀ d ∈ ds, d.target ∈ st.registry.handlersFor event ∧ d.level = level := by
  obtain ⟨_, ds, h, hd⟩ := exists_considerAll_eq st level s!"execution-{s.executions}" data
    (st.registry.handlersFor event)
    ({ s with executions := s.executions + 1 }.notify (.triggered event)
      [("data", data), ("executionId", .str s!"execution-{s.executions}")])
  exact ⟨_, _, ds, h, hd⟩

end Dispatch

end LivePage
