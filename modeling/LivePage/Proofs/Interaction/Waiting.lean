import Mathlib.Algebra.Order.BigOperators.Group.List
import Mathlib.Algebra.Order.Ring.Nat
import Mathlib.Data.List.Induction
import Mathlib.Data.List.Perm.Subperm
import LivePage.Interaction.Waiting

/-!
# How much waits

A run that starts may put off other runs, but only on lower levels, and at most one for each handler.
So runs on higher levels weigh so much more that all that waits becomes less with every start.
-/

namespace LivePage.Waiting

variable {now n level : Nat} {w : Waiting} {ws : List Waiting} {ds : List Deferral}

theorem nodup_add {d : Deferral} (h : (ws.map number).Nodup) :
    ((add now ws d).map number).Nodup := by
  have hc : ((cancel d.target.number ws).map number).Nodup :=
    h.sublist (List.filter_sublist.map number)
  rw [add, List.map_append, List.nodup_append]
  refine ⟨hc, List.pairwise_singleton .., ?_⟩
  intro i hi j hj
  obtain ⟨v, hv, rfl⟩ := List.mem_map.mp hi
  obtain rfl : j = d.target.number := List.mem_singleton.mp hj
  simpa using (List.mem_filter.mp hv).2

/-- What waits after runs are put off: some of what has waited before, and behind it some of them, at
most one for each handler. -/
theorem exists_foldl_add_eq (now : Nat) (ds : List Deferral) (ws : List Waiting) :
    ∃ old new, ds.foldl (add now) ws = old ++ new ∧ old.Sublist ws ∧ (new.map number).Nodup ∧
      ∀ w ∈ new, w.run ∈ ds := by
  induction ds using List.reverseRecOn with
  | nil => exact ⟨ws, [], by simp, .refl ws, .nil, nofun⟩
  | append_singleton ds d ih =>
    obtain ⟨old, new, h, hs, hn, hm⟩ := ih
    refine ⟨cancel d.target.number old, add now new d, ?_, .trans List.filter_sublist hs,
      nodup_add hn, ?_⟩
    · rw [List.foldl_append, h]
      simp [add, cancel]
    · intro w hw
      rcases List.mem_append.mp hw with hw | hw
      · exact List.mem_append_left _ (hm w (List.mem_filter.mp hw).1)
      · obtain rfl := List.mem_singleton.mp hw
        exact List.mem_append_right _ (.head _)

theorem mem_foldl_add (h : w ∈ ds.foldl (add now) ws) : w ∈ ws ∨ w.run ∈ ds := by
  obtain ⟨old, new, he, hs, -, hm⟩ := exists_foldl_add_eq now ds ws
  rw [he] at h
  exact (List.mem_append.mp h).imp (hs.mem ·) (hm w)

theorem mem_cancel_iff {k : Nat} : w ∈ cancel k ws ↔ w ∈ ws ∧ w.number ≠ k := by
  rw [cancel, List.mem_filter, bne_iff_ne]

theorem mem_foldl_cancel_iff {xs : List Registered} :
    w ∈ xs.foldl (fun ws x ↦ cancel x.number ws) ws ↔ w ∈ ws ∧ ∀ x ∈ xs, w.number ≠ x.number := by
  induction xs generalizing ws with
  | nil => simp
  | cons x r ih => rw [List.foldl_cons, ih, mem_cancel_iff, List.forall_mem_cons, and_assoc]

theorem foldl_cancel_sublist (xs : List Registered) (ws : List Waiting) :
    (xs.foldl (fun ws x ↦ cancel x.number ws) ws).Sublist ws := by
  exact List.foldlRecOn (motive := (List.Sublist · ws)) xs _ (.refl ws) fun _ hvs _ _ ↦
    List.filter_sublist.trans hvs

theorem mem_add_iff {d : Deferral} :
    w ∈ add now ws d ↔ (w ∈ ws ∧ w.number ≠ d.target.number) ∨ w = ⟨now + d.window, d⟩ := by
  rw [add, List.mem_append, mem_cancel_iff, List.mem_singleton]

theorem eq_of_mem_foldl_add (h : w ∈ ds.foldl (add now) ws) :
    (w ∈ ws ∧ ∀ d ∈ ds, d.target.number ≠ w.number) ∨ ∃ d ∈ ds, w = ⟨now + d.window, d⟩ := by
  induction ds generalizing ws with
  | nil => exact .inl ⟨h, List.forall_mem_nil _⟩
  | cons d r ih =>
    rcases ih h with ⟨hw, hr⟩ | ⟨e, he, rfl⟩
    · rcases mem_add_iff.mp hw with ⟨hw, hne⟩ | rfl
      · exact .inl ⟨hw, List.forall_mem_cons.mpr ⟨hne.symm, hr⟩⟩
      · exact .inr ⟨d, .head _, rfl⟩
    · exact .inr ⟨e, .tail _ he, rfl⟩

theorem mem_foldl_add_of_ne (h : w ∈ ws) (hd : ∀ d ∈ ds, d.target.number ≠ w.number) :
    w ∈ ds.foldl (add now) ws := by
  induction ds generalizing ws with
  | nil => exact h
  | cons d r ih =>
    obtain ⟨hne, hr⟩ := List.forall_mem_cons.mp hd
    exact ih (mem_add_iff.mpr (.inl ⟨h, hne.symm⟩)) hr

/-- What waits is not touched by what is put off of other handlers. -/
theorem mem_foldl_add_iff_of_ne (hd : ∀ d ∈ ds, d.target.number ≠ w.number) :
    w ∈ ds.foldl (add now) ws ↔ w ∈ ws := by
  refine ⟨fun h ↦ ?_, fun h ↦ mem_foldl_add_of_ne h hd⟩
  rcases eq_of_mem_foldl_add h with ⟨hw, -⟩ | ⟨d, hm, rfl⟩
  · exact hw
  · exact absurd rfl (hd d hm)

/-- What is put off once of a handler takes the place of what has waited of it. -/
theorem mem_foldl_add_iff_of_mem {d : Deferral} (h : d ∈ ds)
    (hd : ∀ e ∈ ds, e.target.number = d.target.number → e = d)
    (hw : w.number = d.target.number) :
    w ∈ ds.foldl (add now) ws ↔ w = ⟨now + d.window, d⟩ := by
  constructor
  · intro hm
    rcases eq_of_mem_foldl_add hm with ⟨-, hne⟩ | ⟨e, he, rfl⟩
    · exact absurd hw.symm (hne d h)
    · rw [hd e he hw]
  · rintro rfl
    clear hw
    induction ds generalizing ws with
    | nil => cases h
    | cons e r ih =>
      obtain ⟨he, hr⟩ := List.forall_mem_cons.mp hd
      by_cases hm : d ∈ r
      · exact ih hm hr
      · obtain rfl : d = e := (List.mem_cons.mp h).resolve_right hm
        rw [List.foldl_cons]
        refine mem_foldl_add_of_ne (mem_add_iff.mpr (.inr rfl)) fun f hf hn ↦ hm ?_
        exact hr f hf hn ▸ hf

theorem nodup_foldl_add (h : (ws.map number).Nodup) :
    ((ds.foldl (add now) ws).map number).Nodup := by
  induction ds generalizing ws with
  | nil => exact h
  | cons d r ih => exact ih (nodup_add h)

/-! ## The earliest run -/

theorem eq_nil_of_earliest? (h : earliest? ws = none) : ws = [] := by
  cases ws with
  | nil => rfl
  | cons w r =>
    simp only [earliest?] at h
    split at h
    · cases h
    · split at h
      · cases h
      · cases h

theorem due_le_of_earliest? {v : Waiting} (h : earliest? ws = some w) (hv : v ∈ ws) :
    w.due ≤ v.due := by
  induction ws generalizing w v with
  | nil => cases hv
  | cons u r ih =>
    cases he : earliest? r with
    | none =>
      simp only [earliest?, he, Option.some.injEq] at h
      rw [eq_nil_of_earliest? he] at hv
      obtain rfl := List.mem_singleton.mp hv
      exact Nat.le_of_eq (congrArg due h.symm)
    | some x =>
      have hx : ∀ v ∈ r, x.due ≤ v.due := fun v hv ↦ ih he hv
      simp only [earliest?, he] at h
      rcases List.mem_cons.mp hv with rfl | hv
      · split at h
        · obtain rfl := Option.some.inj h
          omega
        · obtain rfl := Option.some.inj h
          exact Nat.le_refl _
      · have := hx v hv
        split at h
        · obtain rfl := Option.some.inj h
          exact this
        · obtain rfl := Option.some.inj h
          omega

/-- Where no run is due next, none is due at all. -/
theorem lt_due_of_next? {target : Nat} (h : next? target ws = none) (hw : w ∈ ws) :
    target < w.due := by
  cases he : earliest? ws with
  | none =>
    rw [eq_nil_of_earliest? he] at hw
    cases hw
  | some v =>
    have hv := due_le_of_earliest? he hw
    simp [next?, he] at h
    omega

/-! ## Weights -/

/-- Each level weighs more than `n` runs on the level below it. -/
def weight (n : Nat) (ws : List Waiting) : Nat := (ws.map fun w ↦ (n + 1) ^ w.run.level).sum

theorem weight_append (n : Nat) (vs ws : List Waiting) :
    weight n (vs ++ ws) = weight n vs + weight n ws := by
  rw [weight, List.map_append, List.sum_append]
  rfl

theorem weight_le_of_sublist {vs : List Waiting} (h : vs.Sublist ws) :
    weight n vs ≤ weight n ws :=
  (h.map _).sum_le_sum fun _ _ ↦ Nat.zero_le _

/-- What is left when a run has started weighs less by that run. -/
theorem weight_cancel_add_le (hw : w ∈ ws) :
    weight n (cancel w.number ws) + (n + 1) ^ w.run.level ≤ weight n ws := by
  obtain ⟨before, behind, rfl⟩ := List.append_of_mem hw
  have hc : (cancel w.number (before ++ w :: behind)).Sublist (before ++ behind) := by
    simp only [cancel, List.filter_append, List.filter_cons, bne_self_eq_false, Bool.false_eq_true,
      if_false]
    exact .append List.filter_sublist List.filter_sublist
  have h := weight_le_of_sublist (n := n) hc
  have hb : weight n (w :: behind) = (n + 1) ^ w.run.level + weight n behind := List.sum_cons
  rw [weight_append] at h ⊢
  omega

/-- Runs on lower levels, at most one for each of `n` handlers, weigh less than one run. -/
theorem weight_lt_pow {xs : List Registered} (hn : (ws.map number).Nodup)
    (hx : ∀ w ∈ ws, w.run.target ∈ xs) (hl : ∀ w ∈ ws, w.run.level < level) :
    weight xs.length ws < (xs.length + 1) ^ level := by
  cases level with
  | zero =>
    have : ws = [] := List.eq_nil_iff_forall_not_mem.mpr fun w hw ↦ Nat.not_lt_zero _ (hl w hw)
    simp [this, weight]
  | succ l =>
    have hlength : ws.length ≤ xs.length := by
      have hsub : ws.map number ⊆ xs.map Registered.number := by
        intro i hi
        obtain ⟨w, hw, rfl⟩ := List.mem_map.mp hi
        exact List.mem_map_of_mem (hx w hw)
      simpa using (hn.subperm hsub).length_le
    have hpow : ∀ i ∈ ws.map fun w : Waiting ↦ (xs.length + 1) ^ w.run.level, i ≤ (xs.length + 1) ^ l := by
      intro i hi
      obtain ⟨w, hw, rfl⟩ := List.mem_map.mp hi
      exact Nat.pow_le_pow_right (Nat.succ_pos _) (Nat.le_of_lt_succ (hl w hw))
    calc weight xs.length ws
        ≤ ws.length * (xs.length + 1) ^ l := by
          have h := List.sum_le_card_nsmul _ _ hpow
          rwa [List.length_map] at h
      _ ≤ xs.length * (xs.length + 1) ^ l := Nat.mul_le_mul_right _ hlength
      _ < (xs.length + 1) * (xs.length + 1) ^ l :=
          Nat.mul_lt_mul_of_pos_right (Nat.lt_succ_self _) (Nat.pow_pos (Nat.succ_pos _))
      _ = (xs.length + 1) ^ (l + 1) := (Nat.pow_succ').symm

/-- A run that starts and puts off others on lower levels makes what waits weigh less. -/
theorem weight_foldl_add_lt {xs : List Registered} (hw : w ∈ ws)
    (hx : ∀ d ∈ ds, d.target ∈ xs) (hl : ∀ d ∈ ds, d.level < w.run.level) :
    weight xs.length (ds.foldl (add now) (cancel w.number ws)) < weight xs.length ws := by
  obtain ⟨old, new, he, hs, hn, hm⟩ := exists_foldl_add_eq now ds (cancel w.number ws)
  have hold := weight_le_of_sublist (n := xs.length) hs
  have hnew := weight_lt_pow hn (fun v hv ↦ hx _ (hm v hv)) fun v hv ↦ hl _ (hm v hv)
  have hleft := weight_cancel_add_le (n := xs.length) hw
  rw [he, weight_append]
  omega

end LivePage.Waiting
