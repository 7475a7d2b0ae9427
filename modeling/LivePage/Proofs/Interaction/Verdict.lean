import Mathlib.Data.List.Basic
import LivePage.Proofs.Interaction.Decision

/-!
# What is decided on a handler

It is decided on the handlers of an event one after another, and each decision leaves something
behind.  But that is nothing to handlers of other numbers: what is decided on each of them can be told
from what was before all of these decisions.
-/

namespace LivePage.Dispatch

variable {st : Setting} {level : Nat} {id : String} {data : Value} {x : Registered}
  {xs : List Registered} {s t : Interaction}

/-- What becomes of a handler, by its condition, its throttle window and its debounce window. -/
def verdict (st : Setting) (s : Interaction) (x : Registered) : Admission :=
  if !Condition.holds? s.context st.host.clock x.handler.condition then .skipped
  else if (window? x.handler.throttle).any (!permits st.now s x ·.1) then .suppressed
  else if (window? x.handler.debounce).isSome then .scheduled
  else .admitted

/-- How a handler with a debounce window is put off. -/
def deferral? (level : Nat) (id : String) (data : Value) (x : Registered) : Option Deferral :=
  (window? x.handler.debounce).map fun ⟨w, h⟩ ↦ ⟨x, data, id, level, w, h⟩

/-- What a verdict puts off. -/
def deferred (level : Nat) (id : String) (data : Value) (x : Registered) :
    Admission → List Deferral
  | .scheduled => (deferral? level id data x).toList
  | _ => []

theorem window?_of_pos {n : Nat} (h : 0 < n) : window? (some n) = some ⟨n, h⟩ := by
  cases n with
  | zero => cases h
  | succ n => rfl

theorem mem_deferred_iff {a : Admission} {d : Deferral} :
    d ∈ deferred level id data x a ↔ a = .scheduled ∧ deferral? level id data x = some d := by
  cases a with
  | scheduled => simp [deferred]
  | _ => simp [deferred]

theorem target_of_deferral? {d : Deferral} (h : deferral? level id data x = some d) : d.target = x := by
  obtain ⟨w, -, rfl⟩ := Option.map_eq_some_iff.mp h
  rfl

/-- The context and the last admission of a handler are all that its verdict depends on. -/
theorem verdict_congr (hc : t.context = s.context)
    (ha : t.admitted.lookup x.number = s.admitted.lookup x.number) :
    verdict st t x = verdict st s x := by
  have hp (w : Nat) : permits st.now t x w = permits st.now s x w := by
    unfold permits
    rw [ha]
  simp only [verdict, hc, hp]

theorem debounce_eq_none_of_admitted (h : verdict st s x = .admitted) :
    window? x.handler.debounce = none := by
  unfold verdict at h
  split at h
  · cases h
  · split at h
    · cases h
    · split at h
      · cases h
      · next hd => simpa using hd

/-! ## Decisions one after another -/

theorem lookup_pass_of_ne (now : Nat) (s : Interaction) {k : Nat} (h : k ≠ x.number) :
    (pass now s x).admitted.lookup k = s.admitted.lookup k := by
  have hk : (k == x.number) = false := beq_false_of_ne h
  simp only [pass, List.lookup_cons, hk]
  induction s.admitted with
  | nil => rfl
  | cons head r ih =>
    obtain ⟨j, time⟩ := head
    by_cases hj : j = x.number
    · have hkj : (k == j) = false := hj ▸ hk
      simp [hj, ih, List.lookup_cons, hk]
    · simp [hj, List.lookup_cons, ih]

theorem defer_eq (level : Nat) (id : String) (data : Value) (x : Registered) (s : Interaction) :
    let a := if (window? x.handler.debounce).isSome then Admission.scheduled else .admitted
    defer level id data x s =
      (a, { s with deferrals := s.deferrals ++ deferred level id data x a }) := by
  unfold defer
  cases h : window? x.handler.debounce with
  | none => simp [deferred]
  | some w => simp [deferred, deferral?, h]

/-- A decision follows the verdict on its handler, and leaves the last admissions of others. -/
theorem consider_eq (st : Setting) (level : Nat) (id : String) (data : Value) (x : Registered)
    (s : Interaction) :
    ∃ as, consider st level id data x s = (verdict st s x, { s with
        admitted := as
        deferrals := s.deferrals ++ deferred level id data x (verdict st s x) }) ∧
      ∀ k, k ≠ x.number → as.lookup k = s.admitted.lookup k := by
  unfold consider verdict
  split
  · exact ⟨s.admitted, by simp [deferred], fun _ _ ↦ rfl⟩
  · cases ht : window? x.handler.throttle with
    | none => exact ⟨s.admitted, by simpa using defer_eq level id data x s, fun _ _ ↦ rfl⟩
    | some w =>
      cases hp : permits st.now s x w.1 with
      | false => exact ⟨s.admitted, by simp [hp, deferred], fun _ _ ↦ rfl⟩
      | true =>
        refine ⟨(pass st.now s x).admitted, ?_, fun k ↦ lookup_pass_of_ne st.now s⟩
        simp only [hp, Option.any_some, Bool.not_true, Bool.false_eq_true, if_false, if_true]
        exact defer_eq level id data x (pass st.now s x)

/-- Each decision is the verdict on its handler at some time. -/
theorem exists_verdict_of_mem {a : Admission} (h : (x, a) ∈ (considerAll st level id data xs s).1) :
    ∃ t, verdict st t x = a := by
  induction xs generalizing s with
  | nil => cases h
  | cons y r ih =>
    rw [considerAll] at h
    rcases List.mem_cons.mp h with h | h
    · obtain ⟨_, hc, -⟩ := consider_eq st level id data y s
      rw [hc] at h
      cases h
      exact ⟨s, rfl⟩
    · exact ih h

theorem fst_considerAll (st : Setting) (level : Nat) (id : String) (data : Value)
    (xs : List Registered) (s : Interaction) :
    (considerAll st level id data xs s).1.map Prod.fst = xs := by
  induction xs generalizing s with
  | nil => rfl
  | cons x r ih =>
    rw [considerAll, List.map_cons, ih]

theorem mem_handlersFor_of_mem_admitted {event : String} (h : x ∈ admitted st level event data s) :
    x ∈ st.registry.handlersFor event := by
  obtain ⟨y, hm, rfl⟩ := List.mem_map.mp h
  have hy := List.mem_map_of_mem (f := Prod.fst) (List.mem_filter.mp hm).1
  rwa [decide, fst_considerAll] at hy

/-- A handler with a debounce window never runs at once. -/
theorem debounce_eq_none_of_mem_admitted {event : String}
    (h : x ∈ admitted st level event data s) : window? x.handler.debounce = none := by
  obtain ⟨⟨y, a⟩, hm, rfl⟩ := List.mem_map.mp h
  obtain ⟨hm, ha⟩ := List.mem_filter.mp hm
  obtain ⟨t, ht⟩ := exists_verdict_of_mem hm
  exact debounce_eq_none_of_admitted (ht.trans (beq_iff_eq.mp ha))

/-- Decisions follow the verdicts on their handlers as these are before all of them, where the
handlers have different numbers. -/
theorem considerAll_eq (st : Setting) (level : Nat) (id : String) (data : Value)
    (hn : xs.Pairwise fun x y ↦ x.number ≠ y.number) (s : Interaction) :
    ∃ as, considerAll st level id data xs s = (xs.map fun x ↦ (x, verdict st s x), { s with
      admitted := as
      deferrals := s.deferrals ++ xs.flatMap fun x ↦ deferred level id data x (verdict st s x) }) := by
  induction xs generalizing s with
  | nil => exact ⟨s.admitted, by simp [considerAll]⟩
  | cons x r ih =>
    obtain ⟨hx, hr⟩ := List.pairwise_cons.mp hn
    obtain ⟨as, hc, ha⟩ := consider_eq st level id data x s
    obtain ⟨bs, hb⟩ := ih hr { s with
      admitted := as, deferrals := s.deferrals ++ deferred level id data x (verdict st s x) }
    have verdicts : ∀ y ∈ r, verdict st { s with
        admitted := as
        deferrals := s.deferrals ++ deferred level id data x (verdict st s x) } y =
        verdict st s y := fun y hy ↦ verdict_congr rfl (ha y.number (hx y hy).symm)
    refine ⟨bs, ?_⟩
    rw [considerAll, hc]
    simp only [hb, List.map_cons, List.flatMap_cons, List.append_assoc]
    rw [List.map_congr_left fun y hy ↦ by rw [verdicts y hy],
      List.flatMap_congr fun y hy ↦ by rw [verdicts y hy]]

/-- What is decided on the handlers of an event, and what that leaves. -/
theorem decide_eq (level : Nat) (data : Value) {event : String}
    (hn : (st.registry.handlersFor event).Pairwise fun x y ↦ x.number ≠ y.number)
    (s : Interaction) :
    let xs := st.registry.handlersFor event
    ∃ parameters as, decide st level event data s = (xs.map fun x ↦ (x, verdict st s x), { s with
      executions := s.executions + 1
      notices := s.notices ++ [.event ⟨.triggered event, parameters⟩]
      admitted := as
      deferrals := s.deferrals ++ xs.flatMap fun x ↦
        deferred level s!"execution-{s.executions}" data x (verdict st s x) }) := by
  obtain ⟨as, h⟩ := considerAll_eq st level s!"execution-{s.executions}" data hn
    ({ s with executions := s.executions + 1 }.notify (.triggered event)
      [("data", data), ("executionId", .str s!"execution-{s.executions}")])
  exact ⟨_, as, h⟩

/-! ## Counts -/

theorem chosen_map (a : Admission) (f : Registered → Admission) (xs : List Registered) :
    chosen a (xs.map fun x ↦ (x, f x)) = xs.filter (f · == a) := by
  rw [chosen, List.filter_map, List.map_map]
  exact List.map_id _

/-- Everything is decided on in one of four ways. -/
theorem length_eq_sum_countP (f : Registered → Admission) (xs : List Registered) :
    xs.countP (f · == .admitted) + xs.countP (f · == .skipped) + xs.countP (f · == .suppressed) +
      xs.countP (f · == .scheduled) = xs.length := by
  induction xs with
  | nil => rfl
  | cons x r ih =>
    simp only [List.countP_cons, List.length_cons]
    cases f x with
    | _ =>
      simp only [BEq.rfl, if_true, reduceCtorEq, beq_iff_eq, if_false]
      omega

end LivePage.Dispatch
