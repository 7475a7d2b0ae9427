import Mathlib.Data.List.Induction
import LivePage.Proofs.Interaction.Ruling

/-!
# Throttle windows

Where rulings follow on each other in the order of time, a handler with a throttle window gets through
once in each window: whenever its condition holds, and its last window is over.
-/

namespace LivePage

open Dispatch

variable {x : Registered} {w : Nat} {p q : Ruling} {qs before behind : List Ruling}
  {last : Nat → Option Nat}

/-- The last time that a handler has got through. -/
structure LastPassed (x : Registered) (qs : List Ruling) (q : Ruling) : Prop where
  target : q.target = x
  passes : q.verdict.passes = true
  split : ∃ before behind, qs = before ++ q :: behind ∧
    ∀ p ∈ behind, p.target = x → p.verdict.passes = false

/-- The law of a throttle window.  A handler is passed over where its condition does not hold.  Else it
gets through, unless it has got through last within the window: so it does for the first time, those
that get through are a window apart, and each one that does not is close to the last that did. -/
structure Throttled (x : Registered) (w : Nat) (qs : List Ruling) : Prop where
  ordered : qs.Pairwise fun p q ↦ p.time ≤ q.time
  skipped : ∀ q ∈ qs, q.target = x → (q.verdict = .skipped ↔ ¬q.Holds)
  passes (before : List Ruling) (q : Ruling) (behind : List Ruling) :
    qs = before ++ q :: behind → q.target = x →
      (q.verdict.passes = true ↔ q.Holds ∧ ∀ p, LastPassed x before p → p.time + w ≤ q.time)
  first (before : List Ruling) (q : Ruling) (behind : List Ruling) :
    qs = before ++ q :: behind → q.target = x → q.Holds →
      (∀ p ∈ before, p.target = x → ¬p.Holds) → q.verdict.passes = true
  apart (before : List Ruling) (q : Ruling) (behind : List Ruling) :
    qs = before ++ q :: behind → q.target = x → q.verdict.passes = true →
      ∀ p ∈ before, p.target = x → p.verdict.passes = true → p.time + w ≤ q.time
  close (before : List Ruling) (q : Ruling) (behind : List Ruling) :
    qs = before ++ q :: behind → q.target = x → q.verdict = .suppressed →
      ∃ p, LastPassed x before p ∧ q.time < p.time + w

theorem lastPassed_append_iff : LastPassed x (qs ++ [q]) p ↔
    (q.target = x ∧ q.verdict.passes = true ∧ p = q) ∨
      (¬(q.target = x ∧ q.verdict.passes = true) ∧ LastPassed x qs p) := by
  constructor
  · rintro ⟨target, passes, before, behind, he, shut⟩
    rcases List.eq_nil_or_concat behind with rfl | ⟨mid, r, rfl⟩
    · obtain ⟨-, he⟩ := List.append_inj' he rfl
      obtain rfl := List.singleton_inj.mp he
      exact .inl ⟨target, passes, rfl⟩
    · rw [List.concat_eq_append] at he shut
      rw [← List.cons_append, ← List.append_assoc] at he
      obtain ⟨rfl, last⟩ := List.append_inj' he rfl
      obtain rfl := List.singleton_inj.mp last
      refine .inr ⟨fun own ↦ ?_, target, passes, before, mid, rfl, fun r hr ↦ shut r (by simp [hr])⟩
      cases (shut q (by simp) own.1).symm.trans own.2
  · rintro (⟨target, passes, rfl⟩ | ⟨other, target, passes, before, behind, rfl, shut⟩)
    · exact ⟨target, passes, qs, [], rfl, List.forall_mem_nil _⟩
    · refine ⟨target, passes, before, behind ++ [q],
        by rw [List.append_assoc, List.cons_append], ?_⟩
      refine List.forall_mem_append.mpr ⟨shut, List.forall_mem_singleton.mpr fun hx ↦ ?_⟩
      exact Bool.not_eq_true _ ▸ fun passes ↦ other ⟨hx, passes⟩

/-- A handler that does not get through again got through last when it did. -/
theorem lastPassed_append_iff_of_not_passes
    (h : ∀ q ∈ behind, q.target = x → q.verdict.passes = false) :
    LastPassed x (qs ++ behind) p ↔ LastPassed x qs p := by
  induction behind using List.reverseRecOn with
  | nil => rw [List.append_nil]
  | append_singleton behind q ih =>
    obtain ⟨h, hq⟩ := List.forall_mem_append.mp h
    have shut : ¬(q.target = x ∧ q.verdict.passes = true) := fun own ↦
      nomatch (hq q (.head _) own.1).symm.trans own.2
    rw [← List.append_assoc, lastPassed_append_iff, or_iff_right fun own ↦ shut ⟨own.1, own.2.1⟩,
      and_iff_right shut, ih h]

theorem LastPassed.eq (h : LastPassed x qs q) (h' : LastPassed x qs p) : q = p := by
  induction qs using List.reverseRecOn with
  | nil =>
    obtain ⟨-, -, before, behind, he, -⟩ := h
    cases before <;> cases he
  | append_singleton qs r ih =>
    rcases lastPassed_append_iff.mp h with ⟨target, passes, rfl⟩ | ⟨other, h⟩
    · rcases lastPassed_append_iff.mp h' with ⟨-, -, rfl⟩ | ⟨other, -⟩
      · rfl
      · exact absurd ⟨target, passes⟩ other
    · rcases lastPassed_append_iff.mp h' with ⟨target, passes, -⟩ | ⟨-, h'⟩
      · exact absurd ⟨target, passes⟩ other
      · exact ih h h'

/-- What has got through last did so behind all that has. -/
theorem exists_lastPassed (ordered : qs.Pairwise fun p q ↦ p.time ≤ q.time) (hp : p ∈ qs)
    (target : p.target = x) (passes : p.verdict.passes = true) :
    ∃ q, LastPassed x qs q ∧ p.time ≤ q.time := by
  induction qs using List.reverseRecOn with
  | nil => cases hp
  | append_singleton qs r ih =>
    obtain ⟨ordered, -, last⟩ := List.pairwise_append.mp ordered
    by_cases own : r.target = x ∧ r.verdict.passes = true
    · refine ⟨r, lastPassed_append_iff.mpr (.inl ⟨own.1, own.2, rfl⟩), ?_⟩
      rcases List.mem_append.mp hp with hp | hp
      · exact last p hp r (.head _)
      · exact Nat.le_of_eq (congrArg Ruling.time (List.mem_singleton.mp hp))
    · have hp : p ∈ qs := (List.mem_append.mp hp).resolve_right fun hm ↦
        own (List.mem_singleton.mp hm ▸ ⟨target, passes⟩)
      obtain ⟨q, hq, le⟩ := ih ordered hp
      exact ⟨q, lastPassed_append_iff.mpr (.inr ⟨own, hq⟩), le⟩

namespace Ruling

theorem mark_apply (q : Ruling) (last : Nat → Option Nat) (k : Nat) :
    q.mark last k = if q.number = k ∧ q.opens = true then some q.time else last k := by
  unfold mark
  by_cases ho : q.opens = true
  · by_cases hk : q.number = k
    · subst hk
      simp [ho]
    · simp [ho, hk, Function.update_of_ne (Ne.symm hk)]
  · simp [ho]

namespace Joined

/-- What is kept of a number is when a window of it has begun last. -/
theorem last_cases (h : Joined (fun _ ↦ none) qs last) (k : Nat) :
    (last k = none ∧ ∀ p ∈ qs, p.number = k → p.opens = false) ∨
      ∃ before p behind, qs = before ++ p :: behind ∧ p.number = k ∧ p.opens = true ∧
        last k = some p.time ∧ ∀ r ∈ behind, r.number = k → r.opens = false := by
  induction qs using List.reverseRecOn generalizing last with
  | nil =>
    cases h
    exact .inl ⟨rfl, List.forall_mem_nil _⟩
  | append_singleton qs q ih =>
    obtain ⟨mid, first, -, rfl⟩ := joined_append.mp h
    rw [mark_apply]
    split
    · next own => exact .inr ⟨qs, q, [], rfl, own.1, own.2, rfl, List.forall_mem_nil _⟩
    · next other =>
      have other : ∀ p ∈ [q], p.number = k → p.opens = false := by simpa using other
      rcases ih first with ⟨none, shut⟩ | ⟨before, p, behind, rfl, hk, opens, hl, shut⟩
      · exact .inl ⟨none, List.forall_mem_append.mpr ⟨shut, other⟩⟩
      · refine .inr ⟨before, p, behind ++ [q], ?_, hk, opens, hl,
          List.forall_mem_append.mpr ⟨shut, other⟩⟩
        rw [List.append_assoc, List.cons_append]

theorem exists_fits (h : Joined (fun _ ↦ none) (before ++ q :: behind) last) :
    ∃ mid, Joined (fun _ ↦ none) before mid ∧ q.Fits (mid q.number) := by
  obtain ⟨mid, first, fits, -⟩ := joined_append.mp h
  exact ⟨mid, first, fits⟩

theorem exists_fits_of_mem (h : Joined (fun _ ↦ none) qs last) (hq : q ∈ qs) :
    ∃ last?, q.Fits last? := by
  obtain ⟨before, behind, rfl⟩ := List.append_of_mem hq
  obtain ⟨_, -, fits⟩ := h.exists_fits
  exact ⟨_, fits⟩

/-- A handler with a throttle window finds when it has got through last. -/
theorem exists_fits_of_throttle (h : Joined (fun _ ↦ none) qs last)
    (same : ∀ p ∈ qs, ∀ q ∈ qs, p.number = q.number → p.target = q.target)
    (ht : (window? x.handler.throttle).isSome) (he : qs = before ++ q :: behind)
    (hx : q.target = x) : ∃ last?, q.Fits last? ∧
      ((last? = none ∧ ∀ p ∈ before, p.target = x → p.verdict.passes = false) ∨
        ∃ p, LastPassed x before p ∧ last? = some p.time) := by
  subst he hx
  obtain ⟨mid, first, fits⟩ := h.exists_fits
  have shut {p : Ruling} (hp : p.target = q.target) : p.opens = p.verdict.passes := by
    rw [opens, hp, ht, Bool.and_true]
  have number {p : Ruling} (hp : p.target = q.target) : p.number = q.number :=
    congrArg Registered.number hp
  refine ⟨_, fits, ?_⟩
  rcases first.last_cases q.number with
    ⟨none, closed⟩ | ⟨front, p, back, rfl, hk, opens, hl, closed⟩
  · exact .inl ⟨none, fun p hp ht ↦ shut ht ▸ closed p hp (number ht)⟩
  · have hp : p.target = q.target := same p (by simp) q (by simp) hk
    refine .inr ⟨p, ⟨hp, shut hp ▸ opens, front, back, rfl, fun r hr ht ↦ ?_⟩, hl⟩
    exact shut ht ▸ closed r hr (number ht)

theorem passes_iff (h : Joined (fun _ ↦ none) qs last)
    (same : ∀ p ∈ qs, ∀ q ∈ qs, p.number = q.number → p.target = q.target) {hw : 0 < w}
    (ht : window? x.handler.throttle = some ⟨w, hw⟩) (he : qs = before ++ q :: behind)
    (hx : q.target = x) :
    q.verdict.passes = true ↔ q.Holds ∧ ∀ p, LastPassed x before p → p.time + w ≤ q.time := by
  obtain ⟨last?, fits, found⟩ := h.exists_fits_of_throttle same (ht ▸ rfl) he hx
  rw [fits.passes, hx, ht]
  refine and_congr_right fun _ ↦ ?_
  simp only [Option.mem_def, Option.some.injEq, forall_eq']
  rcases found with ⟨rfl, shut⟩ | ⟨p, passed, rfl⟩
  · refine iff_of_true nofun fun p passed ↦ ?_
    obtain ⟨front, back, rfl, -⟩ := passed.split
    cases (shut p (by simp) passed.target).symm.trans passed.passes
  · simp only [Option.some.injEq, forall_eq']
    exact ⟨fun far p' passed' ↦ passed.eq passed' ▸ far, fun far ↦ far p passed⟩

theorem throttled (h : Joined (fun _ ↦ none) qs last)
    (ordered : qs.Pairwise fun p q ↦ p.time ≤ q.time)
    (same : ∀ p ∈ qs, ∀ q ∈ qs, p.number = q.number → p.target = q.target) {hw : 0 < w}
    (ht : window? x.handler.throttle = some ⟨w, hw⟩) : Throttled x w qs := by
  have skipped {q : Ruling} (hq : q ∈ qs) : q.verdict = .skipped ↔ ¬q.Holds := by
    obtain ⟨last?, fits⟩ := h.exists_fits_of_mem hq
    exact fits.skipped
  refine ⟨ordered, fun q hq _ ↦ skipped hq, ?_, ?_, ?_, ?_⟩
  · exact fun before q behind he hx ↦ h.passes_iff same ht he hx
  · intro before q behind he hx hq none
    refine (h.passes_iff same ht he hx).mpr ⟨hq, fun p passed ↦ ?_⟩
    obtain ⟨front, back, rfl, -⟩ := passed.split
    obtain ⟨last?, fits⟩ := h.exists_fits_of_mem (q := p) (he ▸ by simp)
    exact absurd (fits.passes.mp passed.passes).1 (none p (by simp) passed.target)
  · intro before q behind he hx passes p hp hpx hpp
    have ordered : before.Pairwise fun p q ↦ p.time ≤ q.time := by
      rw [he] at ordered
      exact (List.pairwise_append.mp ordered).1
    obtain ⟨l, passed, le⟩ := exists_lastPassed ordered hp hpx hpp
    have far := ((h.passes_iff same ht he hx).mp passes).2 l passed
    exact Nat.le_trans (Nat.add_le_add_right le w) far
  · intro before q behind he hx suppressed
    have holds : q.Holds := by
      refine not_not.mp fun fails ↦ ?_
      cases ((skipped (he ▸ by simp)).mpr fails).symm.trans suppressed
    have shut : ¬∀ p, LastPassed x before p → p.time + w ≤ q.time := by
      intro far
      have passes := (h.passes_iff same ht he hx).mpr ⟨holds, far⟩
      rw [suppressed] at passes
      cases passes
    simpa using shut

end Joined

end Ruling

/-! ## What is put off -/

/-- A run that waits from now on. -/
def Deferral.waiting (now : Nat) (d : Deferral) : Waiting := ⟨now + d.window, d⟩

namespace Waiting

/-- The last of some runs that is of the handler of a number. -/
def last? (k : Nat) (ws : List Waiting) : Option Waiting := (ws.filter (·.number == k)).getLast?

variable {v : Waiting} {vs ws : List Waiting} {k : Nat}

theorem mem_of_last? (h : last? k ws = some v) : v ∈ ws :=
  (List.mem_filter.mp (List.mem_of_getLast? h)).1

theorem last?_append : last? k (ws ++ vs) = (last? k vs).or (last? k ws) := by
  simp [last?, List.getLast?_append]

theorem last?_singleton : last? k [v] = if v.number = k then some v else none := by
  by_cases h : v.number = k <;> simp [last?, h]

/-- Of each handler there waits what was put off last, or else what has waited before. -/
theorem mem_foldl_add_iff {now : Nat} {ds : List Deferral} :
    v ∈ ds.foldl (add now) ws ↔ last? v.number (ds.map (·.waiting now)) = some v ∨
      last? v.number (ds.map (·.waiting now)) = none ∧ v ∈ ws := by
  induction ds using List.reverseRecOn with
  | nil => simp [last?]
  | append_singleton ds d ih =>
    rw [List.foldl_append, List.foldl_cons, List.foldl_nil, mem_add_iff, ih, List.map_append,
      last?_append, List.map_cons, List.map_nil, last?_singleton]
    by_cases h : v.number = d.target.number
    · have own : (d.waiting now).number = v.number := h.symm
      rw [if_pos own, Option.some_or]
      simp [h, Deferral.waiting, eq_comm]
    · have other : ¬(d.waiting now).number = v.number := Ne.symm h
      rw [if_neg other, Option.none_or, and_iff_left h, or_iff_left]
      rintro rfl
      exact h rfl

end Waiting

namespace Ruling

variable {v : Nat} {hv : 0 < v} {p : Ruling} {u : Waiting} {k : Nat}

/-- The runs that wait by a ruling. -/
def waitings (q : Ruling) : List Waiting := q.deferrals.map (·.waiting q.time)

/-- The run of a handler with this debounce window that waits if the handler gets through. -/
def waiting (q : Ruling) (v : Nat) (hv : 0 < v) : Waiting :=
  ⟨q.time + v, ⟨q.target, q.data, q.executionId, q.level, v, hv⟩⟩

theorem waitings_of_passes {last? : Option Nat} (fits : q.Fits last?)
    (hd : window? q.target.handler.debounce = some ⟨v, hv⟩) :
    q.waitings = if q.verdict.passes = true then [q.waiting v hv] else [] := by
  have scheduled := fits.scheduled
  rw [hd, Option.isSome_some, and_iff_left rfl] at scheduled
  unfold waitings deferrals
  split
  · next passes =>
    rw [scheduled.mpr passes]
    simp [deferred, deferral?, hd, Deferral.waiting, waiting]
  · next fails =>
    have : q.verdict ≠ .scheduled := fun e ↦ fails (scheduled.mp e)
    cases hq : q.verdict with
    | scheduled => exact absurd hq this
    | _ => rfl

theorem target_of_mem_waitings (h : u ∈ q.waitings) : u.run.target = q.target := by
  obtain ⟨d, hd, rfl⟩ := List.mem_map.mp h
  obtain ⟨-, hd⟩ := mem_deferred_iff.mp hd
  exact target_of_deferral? hd

theorem lt_due_of_mem_waitings (h : u ∈ q.waitings) : q.time < u.due := by
  obtain ⟨d, -, rfl⟩ := List.mem_map.mp h
  exact Nat.lt_add_of_pos_right d.positive

end Ruling

/-- Where a handler has a debounce window, what was put off of it last is the run of the last ruling
that it has passed. -/
theorem last?_waitings_iff {v : Nat} {hv : 0 < v} {u : Waiting}
    (hd : window? x.handler.debounce = some ⟨v, hv⟩) (fits : ∀ q ∈ qs, ∃ last?, q.Fits last?)
    (own : ∀ q ∈ qs, q.number = x.number → q.target = x) :
    Waiting.last? x.number (qs.flatMap (·.waitings)) = some u ↔
      ∃ q, LastPassed x qs q ∧ u = q.waiting v hv := by
  induction qs using List.reverseRecOn with
  | nil =>
    refine iff_of_false nofun ?_
    rintro ⟨q, ⟨-, -, before, behind, he, -⟩, -⟩
    cases before <;> cases he
  | append_singleton qs q ih =>
    obtain ⟨fits, hf⟩ := List.forall_mem_append.mp fits
    obtain ⟨own, ho⟩ := List.forall_mem_append.mp own
    rw [List.flatMap_append, List.flatMap_singleton, Waiting.last?_append]
    by_cases hx : q.target = x ∧ q.verdict.passes = true
    · obtain ⟨rfl, passes⟩ := hx
      obtain ⟨last?, hf⟩ := hf q (.head _)
      have number : (q.waiting v hv).number = q.target.number := rfl
      have last (p : Ruling) : LastPassed q.target (qs ++ [q]) p ↔ p = q := by
        simp [lastPassed_append_iff, passes]
      rw [Ruling.waitings_of_passes hf hd, if_pos passes, Waiting.last?_singleton, if_pos number,
        Option.some_or]
      simp [last, eq_comm]
    · have last (p : Ruling) : LastPassed x (qs ++ [q]) p ↔ LastPassed x qs p := by
        rw [lastPassed_append_iff, or_iff_right fun h ↦ hx ⟨h.1, h.2.1⟩, and_iff_right hx]
      have none : Waiting.last? x.number q.waitings = none := by
        by_cases ht : q.target = x
        · subst ht
          obtain ⟨last?, hf⟩ := hf q (.head _)
          rw [Ruling.waitings_of_passes hf hd, if_neg fun passes ↦ hx ⟨rfl, passes⟩]
          rfl
        · have others : q.waitings.filter (·.number == x.number) = [] := by
            refine List.filter_eq_nil_iff.mpr fun w hw hn ↦ ht (ho q (.head _) ?_)
            rw [← beq_iff_eq.mp hn, Waiting.number, Ruling.target_of_mem_waitings hw]
            rfl
          rw [Waiting.last?, others]
          rfl
      rw [none, Option.none_or, ih fits own]
      simp only [last]

end LivePage
