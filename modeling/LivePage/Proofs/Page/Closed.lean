import Mathlib.Data.List.Perm.Basic
import LivePage.Proofs.Page.Memory

/-!
# Conditions fail closed

All that a condition takes from the conditions inside of it is whether they hold, and where more of
them hold it does not hold any less.  So what fails somewhere inside of a condition never makes the
condition hold, and in which order the conditions inside of it stand makes no difference.
-/

namespace LivePage

namespace Condition

variable {c : Context} {clock : Int} {logic : Logic} {x y : Condition} {xs ys : List Condition}

/-! ## Joined conditions -/

theorem allHold_iff : allHold c clock xs = true ↔ ∀ x ∈ xs, x.holds c clock = true := by
  induction xs with
  | nil => simp [allHold]
  | cons x r ih => rw [allHold, Bool.and_eq_true, ih, List.forall_mem_cons, holds]

theorem anyHolds_iff : anyHolds c clock xs = true ↔ ∃ x ∈ xs, x.holds c clock = true := by
  induction xs with
  | nil => simp [anyHolds]
  | cons x r ih => simp only [anyHolds, Bool.or_eq_true, ih, List.mem_cons, exists_eq_or_imp, holds]

theorem holds_and_iff :
    (complex .and xs).holds c clock = true ↔ ∀ x ∈ xs, x.holds c clock = true := allHold_iff

/-- Where there is nothing to choose from, joined conditions hold. -/
theorem holds_or_iff :
    (complex .or xs).holds c clock = true ↔ xs = [] ∨ ∃ x ∈ xs, x.holds c clock = true := by
  rw [holds, test, closed_ok, Bool.or_eq_true, List.isEmpty_iff, anyHolds_iff]

theorem holds_complex_mono {before behind : List Condition}
    (h : x.holds c clock = true → y.holds c clock = true)
    (hx : (complex logic (before ++ x :: behind)).holds c clock = true) :
    (complex logic (before ++ y :: behind)).holds c clock = true := by
  cases logic with
  | and =>
    rw [holds_and_iff, List.forall_mem_append, List.forall_mem_cons] at hx ⊢
    exact ⟨hx.1, h hx.2.1, hx.2.2⟩
  | or =>
    rw [holds_or_iff] at hx ⊢
    obtain ⟨z, hz, holds⟩ := hx.resolve_left (by simp)
    refine .inr ?_
    rcases List.mem_append.mp hz with hz | hz
    · exact ⟨z, List.mem_append_left _ hz, holds⟩
    · rcases List.mem_cons.mp hz with rfl | hz
      · exact ⟨y, List.mem_append_right _ (.head _), h holds⟩
      · exact ⟨z, List.mem_append_right _ (.tail _ hz), holds⟩

theorem holds_complex_perm (h : xs.Perm ys) :
    (complex logic xs).holds c clock = (complex logic ys).holds c clock := by
  rw [Bool.eq_iff_iff]
  cases logic with
  | and => simp only [holds_and_iff, h.mem_iff]
  | or =>
    have empty : xs = [] ↔ ys = [] := by
      rw [← List.length_eq_zero_iff, h.length_eq, List.length_eq_zero_iff]
    simp only [holds_or_iff, h.mem_iff, empty]

/-! ## At any depth -/

/-- A place for a condition inside of others. -/
inductive Gap where
  | here
  | inside (logic : Logic) (before : List Condition) (gap : Gap) (behind : List Condition)

/-- Puts a condition in its place. -/
def Gap.fill (x : Condition) : Gap → Condition
  | here => x
  | inside logic before gap behind => complex logic (before ++ gap.fill x :: behind)

/-- Conditions inside of others stand in another order, at any number of places. -/
inductive Reordered : Condition → Condition → Prop where
  | refl (x : Condition) : Reordered x x
  | perm (logic : Logic) {xs ys : List Condition} (h : xs.Perm ys) :
    Reordered (complex logic xs) (complex logic ys)
  | inside (logic : Logic) (before : List Condition) {x y : Condition} (h : Reordered x y)
      (behind : List Condition) :
    Reordered (complex logic (before ++ x :: behind)) (complex logic (before ++ y :: behind))
  | trans {x y z : Condition} (h : Reordered x y) (h' : Reordered y z) : Reordered x z

/-- A condition that holds goes on to hold with another one inside of it that holds where the first
one did. -/
theorem holds_fill_mono (h : x.holds c clock = true → y.holds c clock = true) (gap : Gap) :
    (gap.fill x).holds c clock = true → (gap.fill y).holds c clock = true := by
  induction gap with
  | here => exact h
  | inside logic before gap behind ih => exact holds_complex_mono ih

theorem Reordered.holds_eq (h : Reordered x y) : x.holds c clock = y.holds c clock := by
  induction h with
  | refl => rfl
  | perm logic h => exact holds_complex_perm h
  | inside logic before h behind ih =>
    rw [Bool.eq_iff_iff]
    exact ⟨holds_complex_mono (Bool.eq_iff_iff.mp ih).mp,
      holds_complex_mono (Bool.eq_iff_iff.mp ih).mpr⟩
  | trans _ _ ih ih' => exact ih.trans ih'

end Condition

namespace Judge

open Condition (Gap Reordered)

/-- Whatever two judges were asked before, a condition that does not hold for the one does not hold
for the other with another condition at some place inside of it, if that one fails or does not
hold.  With the conditions inside of it in another order, a condition holds where it did before. -/
theorem fails_closed (capacity capacity' : Nat) (calls calls' : List Call) (c : Context)
    (clock : Int) :
    let j := (replies answer { expressions := { capacity } } calls).2
    let j' := (replies answer { expressions := { capacity := capacity' } } calls').2
    (∀ (gap : Gap) (x y : Condition),
      (∃ e, (j'.test c clock y).1 = .error e) ∨ (j'.holds c clock y).1 = false →
      (j.holds c clock (gap.fill x)).1 = false → (j'.holds c clock (gap.fill y)).1 = false) ∧
    ∀ x y, Reordered x y → (j.holds c clock x).1 = (j'.holds c clock y).1 := by
  intro j j'
  have faithful (capacity : Nat) (calls : List Call) :
      (replies answer { expressions := { capacity } } calls).2.Faithful :=
    (replies_eq_map (fun j call h ↦ h.answer call) (Faithful.empty capacity) calls).2
  have same (x : Condition) : (j.holds c clock x).1 = x.holds c clock :=
    ((faithful capacity calls).holds c clock x).1
  have same' (x : Condition) : (j'.holds c clock x).1 = x.holds c clock :=
    ((faithful capacity' calls').holds c clock x).1
  simp only [same, same']
  refine ⟨fun gap x y fails hx ↦ ?_, fun x y reordered ↦ reordered.holds_eq⟩
  have closed : y.holds c clock = false := by
    rcases fails with ⟨e, error⟩ | fails
    · rw [((faithful capacity' calls').test c clock y).1] at error
      rw [Condition.holds, error, Condition.closed_error]
    · exact fails
  rw [← Bool.not_eq_true] at hx ⊢
  refine mt (Condition.holds_fill_mono (fun holds ↦ ?_) gap) hx
  rw [closed] at holds
  cases holds

/-- An open parenthesis inside of a choice inside of other conditions, where `null` was before. -/
theorem fails_closed_on_open_parenthesis :
    let gap : Gap := .inside .and [.unknown] (.inside .or [] .here [.raw "false"]) []
    let j := (replies answer { expressions := { capacity := 1 } } [.holds {} 0 (.raw "null")]).2
    let j' := (replies answer { expressions := { capacity := 2 } } []).2
    (∃ e, (j'.test {} 0 (.raw "(")).1 = .error e) ∧
      (j.holds {} 0 (gap.fill (.raw "null"))).1 = false ∧
      (j'.holds {} 0 (gap.fill (.raw "("))).1 = false ∧
      Reordered (gap.fill (.raw "("))
        (.complex .and [.complex .or [.raw "false", .raw "("], .unknown]) ∧
      (j.holds {} 0 (gap.fill (.raw "("))).1 =
        (j'.holds {} 0 (.complex .and [.complex .or [.raw "false", .raw "("], .unknown])).1 := by
  intro gap j j'
  obtain ⟨closed, reordered⟩ := fails_closed 1 2 [.holds {} 0 (.raw "null")] [] {} 0
  have fails : ∃ e, (j'.test {} 0 (.raw "(")).1 = .error e := ⟨_, by cbv⟩
  have before : (j.holds {} 0 (gap.fill (.raw "null"))).1 = false := by
    subst gap j
    cbv
  have swapped : Reordered (gap.fill (.raw "("))
      (.complex .and [.complex .or [.raw "false", .raw "("], .unknown]) :=
    .trans (.inside .and [.unknown] (.perm .or (.swap ..)) []) (.perm .and (.swap ..))
  exact ⟨fails, before, closed gap _ _ (.inl fails) before, swapped, reordered _ _ swapped⟩

end Judge

end LivePage
