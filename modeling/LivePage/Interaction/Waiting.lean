import LivePage.Interaction.Basic

/-!
# Waiting runs

Runs that are put off wait for their time, in the order in which they were put off. A handler has
at most one of them: a new one takes the place of the old.
-/

namespace LivePage

structure Waiting where
  due : Nat
  run : Deferral

namespace Waiting

def number (w : Waiting) : Nat := w.run.target.number

/-- Removes the run of a handler. -/
def cancel (number : Nat) (ws : List Waiting) : List Waiting := ws.filter (·.number != number)

/-- Lets a run wait from now on. -/
def add (now : Nat) (ws : List Waiting) (d : Deferral) : List Waiting :=
  cancel d.target.number ws ++ [⟨now + d.window, d⟩]

/-- The run with the earliest time; of several the first. -/
def earliest? : List Waiting → Option Waiting
  | [] => none
  | w :: r =>
    match earliest? r with
    | none => some w
    | some v => if v.due < w.due then some v else some w

/-- The next run that is due at a time. -/
def next? (target : Nat) (ws : List Waiting) : Option Waiting :=
  (earliest? ws).filter (·.due ≤ target)

/-- How many runs are due at a time. -/
def countDue (now : Nat) (ws : List Waiting) : Nat := ws.countP (·.due ≤ now)

theorem mem_of_earliest? {w : Waiting} {ws : List Waiting} (h : earliest? ws = some w) :
    w ∈ ws := by
  induction ws generalizing w with
  | nil => simp [earliest?] at h
  | cons v r ih =>
    simp only [earliest?] at h
    split at h
    · simp_all
    · next u hu =>
      split at h
      · exact List.mem_cons_of_mem _ (ih (h ▸ hu))
      · simp_all

theorem mem_of_next? {w : Waiting} {target : Nat} {ws : List Waiting}
    (h : next? target ws = some w) : w ∈ ws ∧ w.due ≤ target := by
  simp only [next?, Option.filter_eq_some_iff, decide_eq_true_eq] at h
  exact ⟨mem_of_earliest? h.1, h.2⟩

theorem countDue_cancel_le (now number : Nat) (ws : List Waiting) :
    countDue now (cancel number ws) ≤ countDue now ws :=
  List.Sublist.countP_le List.filter_sublist

/-- A run that is put off is not due at once. -/
theorem countDue_add_le (now : Nat) (ws : List Waiting) (d : Deferral) :
    countDue now (add now ws d) ≤ countDue now ws := by
  have hd := d.positive
  have h : countDue now (add now ws d) = countDue now (cancel d.target.number ws) := by
    simp only [countDue, add, List.countP_append, List.countP_singleton]
    simp only [Nat.add_eq_left, ite_eq_right_iff]
    intro h
    simp only [decide_eq_true_eq] at h
    omega
  rw [h]
  exact countDue_cancel_le ..

theorem countDue_foldl_add_le (now : Nat) (ds : List Deferral) (ws : List Waiting) :
    countDue now (ds.foldl (add now) ws) ≤ countDue now ws := by
  induction ds generalizing ws with
  | nil => exact Nat.le_refl _
  | cons d r ih => exact Nat.le_trans (ih _) (countDue_add_le ..)

theorem countDue_cancel_lt {now : Nat} {w : Waiting} {ws : List Waiting} (hw : w ∈ ws)
    (hd : w.due ≤ now) : countDue now (cancel w.number ws) < countDue now ws := by
  induction ws with
  | nil => simp at hw
  | cons v r ih =>
    have hle := countDue_cancel_le now w.number r
    simp only [countDue, cancel, List.countP_cons, List.filter_cons] at ih hle ⊢
    rcases List.mem_cons.mp hw with rfl | hr
    · simp [hd]
      omega
    · have h := ih hr
      split
      · simp only [List.countP_cons]
        omega
      · omega

end Waiting

end LivePage
