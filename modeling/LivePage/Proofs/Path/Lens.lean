import LivePage.Proofs.Fields
import LivePage.Proofs.Path.Failure

/-!
# Writes and reads at paths

A write at a path is a write one step down, and the value below is put in the place of what was
there.  Where it succeeds, what was written is read back, a later write at the same path overwrites
it, and what is read elsewhere stays as it was.
-/

namespace LivePage

/-- Segments of one kind that differ. -/
def Segment.Parts : Segment → Segment → Prop
  | .key k, .key l => k ≠ l
  | .index i, .index j => i ≠ j
  | _, _ => False

namespace Path

/-- Paths that part at segments of one kind. -/
def Forks (p q : Path) : Prop :=
  ∃ r s t p' q', p = r ++ s :: p' ∧ q = r ++ t :: q' ∧ s.Parts t

variable {s t : Segment} {p q : Path}

theorem forks_cons : Forks (s :: p) (t :: q) ↔ s.Parts t ∨ s = t ∧ p.Forks q := by
  constructor
  · rintro ⟨r, s', t', p', q', hp, hq, h⟩
    cases r with
    | nil =>
      cases hp
      cases hq
      exact .inl h
    | cons a r =>
      cases hp
      cases hq
      exact .inr ⟨rfl, r, s', t', p', q', rfl, rfl, h⟩
  · rintro (h | ⟨rfl, r, s', t', p', q', rfl, rfl, h⟩)
    · exact ⟨[], s, t, p, q, rfl, rfl, h⟩
    · exact ⟨s :: r, s', t', p', q', rfl, rfl, h⟩

theorem Forks.ne_nil (h : p.Forks q) : p ≠ [] ∧ q ≠ [] := by
  obtain ⟨r, s, t, p', q', rfl, rfl, -⟩ := h
  exact ⟨List.append_ne_nil_of_right_ne_nil r (List.cons_ne_nil s p'),
    List.append_ne_nil_of_right_ne_nil r (List.cons_ne_nil t q')⟩

end Path

namespace Value

variable {root child v w : Value} {s t : Segment} {p q : Path}

/-! ## One step -/

/-- What a write finds one step down: null where nothing is there yet. -/
def under (root : Value) (s : Segment) : Value := (root.step? s).getD .null

/-- Puts a value one step down. -/
def put : Value → Segment → Value → Value
  | obj m, .key k, child => obj (Fields.insert k child m)
  | null, .key k, child => obj [(k, child)]
  | arr items, .index i, child =>
    arr (if i < items.length then items.set i child else items ++ [child])
  | root, _, _ => root

/-- Where a segment has a place: in an object, in null, at an item of a list, and behind the last
item at the end of a path. -/
theorem not_refuses_cases (h : ¬root.Refuses s p) :
    (∃ k m, s = .key k ∧ root = obj m) ∨ (∃ k, s = .key k ∧ root = null) ∨
    (∃ i items, s = .index i ∧ root = arr items ∧ i < items.length) ∨
    ∃ items, s = .index items.length ∧ root = arr items ∧ p = [] := by
  match s, root with
  | .key k, obj m => exact .inl ⟨k, m, rfl, rfl⟩
  | .key k, null => exact .inr (.inl ⟨k, rfl, rfl⟩)
  | .index i, arr items =>
    by_cases hi : i < items.length
    · exact .inr (.inr (.inl ⟨i, items, rfl, rfl, hi⟩))
    · obtain ⟨rfl, rfl⟩ : i = items.length ∧ p = [] := by
        by_contra hend
        exact h ⟨not_lt.mp hi, hend⟩
      exact .inr (.inr (.inr ⟨items, rfl, rfl, rfl⟩))
  | .key k, arr _ | .key k, bool _ | .key k, num _ | .key k, str _ => exact absurd trivial h
  | .index i, null | .index i, bool _ | .index i, num _ | .index i, str _ | .index i, obj _ =>
    exact absurd trivial h

/-- Where the next segment has a place, a write goes on below. -/
theorem write_cons (h : ¬root.Refuses s p) :
    write v (s :: p) root = (root.put s (write v p (root.under s)).1,
      (write v p (root.under s)).2) := by
  obtain ⟨k, m, rfl, rfl⟩ | ⟨k, rfl, rfl⟩ | ⟨i, items, rfl, rfl, hi⟩ | ⟨items, rfl, rfl, rfl⟩ :=
    not_refuses_cases h
  · rfl
  · rfl
  · simp [write, put, under, step?, hi]
  · simp [write, put]

/-- A write succeeds just where the next segment has a place and the write below succeeds. -/
theorem write_cons_succeeds_iff :
    (write v (s :: p) root).2 = none ↔ ¬root.Refuses s p ∧ (write v p (root.under s)).2 = none := by
  by_cases h : root.Refuses s p
  · have hf := (write_fails_unchanged_iff (v := v)).mpr (blocks_cons.mpr (.inl h))
    simp [h, Option.isSome_iff_ne_none.mp hf.1]
  · simp [write_cons h, h]

/-- What is put below is found there. -/
theorem step?_put (h : ¬root.Refuses s p) : (root.put s child).step? s = some child := by
  obtain ⟨k, m, rfl, rfl⟩ | ⟨k, rfl, rfl⟩ | ⟨i, items, rfl, rfl, hi⟩ | ⟨items, rfl, rfl, rfl⟩ :=
    not_refuses_cases h
  · simp [put, step?]
  · simp [put, step?, Fields.get?]
  · simp [put, step?, hi]
  · simp [put, step?]

theorem under_put (h : ¬root.Refuses s p) : (root.put s child).under s = child := by
  rw [under, step?_put h]
  rfl

/-- What is put below has a place there. -/
theorem not_refuses_put (h : ¬root.Refuses s p) : ¬(root.put s child).Refuses s p := by
  obtain ⟨k, m, rfl, rfl⟩ | ⟨k, rfl, rfl⟩ | ⟨i, items, rfl, rfl, hi⟩ | ⟨items, rfl, rfl, rfl⟩ :=
    not_refuses_cases h
  · exact id
  · exact id
  · simp [put, Refuses, hi]
  · simp [put, Refuses]

/-- Of two values that are put below the last one counts. -/
theorem put_put (h : ¬root.Refuses s p) : (root.put s v).put s w = root.put s w := by
  obtain ⟨k, m, rfl, rfl⟩ | ⟨k, rfl, rfl⟩ | ⟨i, items, rfl, rfl, hi⟩ | ⟨items, rfl, rfl, rfl⟩ :=
    not_refuses_cases h
  · simp [put]
  · simp [put, Fields.insert, Fields.get?, Fields.replace]
  · simp [put, hi]
  · simp [put]

/-- What is put below is not met by other segments of its kind. -/
theorem step?_put_of_parts (h : ¬root.Refuses s p) (hst : s.Parts t) :
    (root.put s child).step? t = root.step? t := by
  obtain ⟨k, m, rfl, rfl⟩ | ⟨k, rfl, rfl⟩ | ⟨i, items, rfl, rfl, hi⟩ | ⟨items, rfl, rfl, rfl⟩ :=
    not_refuses_cases h
  all_goals cases t
  case inl.key l => exact Fields.get?_insert_of_ne child m (Ne.symm hst)
  case inr.inl.key l => simp [put, step?, Fields.get?, show k ≠ l from hst]
  case inr.inr.inl.index j => simp [put, step?, hi, List.getElem?_set_ne (show i ≠ j from hst)]
  case inr.inr.inr.index j =>
    have hj : items.length ≠ j := hst
    simp only [put, step?, lt_irrefl, if_false]
    rcases lt_or_gt_of_ne hj with hj | hj
    · rw [List.getElem?_eq_none (by simp; omega), List.getElem?_eq_none hj.le]
    · exact List.getElem?_append_left hj
  all_goals exact hst.elim

/-- What is put in its own place changes nothing. -/
theorem put_of_step? (h : ¬root.Refuses s p) (hs : root.step? s = some child) :
    root.put s child = root := by
  obtain ⟨k, m, rfl, rfl⟩ | ⟨k, rfl, rfl⟩ | ⟨i, items, rfl, rfl, hi⟩ | ⟨items, rfl, rfl, rfl⟩ :=
    not_refuses_cases h
  · simp [put, Fields.insert_eq_self_iff.mpr hs]
  · cases hs
  · obtain rfl : items[i] = child := by simpa [step?, hi] using hs
    simp [put, hi]
  · simp [step?] at hs

/-- Nothing is found under null, so it does no harm to go on from null where nothing is there. -/
theorem get?_cons_eq_under (hq : q ≠ []) : root.get? (s :: q) = (root.under s).get? q := by
  cases hs : root.step? s with
  | some child => simp [under, hs]
  | none =>
    obtain ⟨t, q, rfl⟩ := List.exists_cons_of_ne_nil hq
    have hnull : null.step? t = none := by cases t <;> rfl
    simp [under, hs, hnull]

/-! ## Whole paths -/

/-- What was written is read back. -/
theorem get?_write (h : (write v p root).2 = none) : (write v p root).1.get? p = some v := by
  induction p generalizing root with
  | nil => rfl
  | cons s p ih =>
    obtain ⟨hs, hp⟩ := write_cons_succeeds_iff.mp h
    rw [write_cons hs, get?_cons, step?_put hs]
    exact ih hp

/-- Whether a write succeeds does not depend on what is written. -/
theorem write_succeeds_congr : (write v p root).2 = none ↔ (write w p root).2 = none := by
  induction p generalizing root with
  | nil => exact Iff.rfl
  | cons s p ih => rw [write_cons_succeeds_iff, write_cons_succeeds_iff, ih]

/-- A later write at the same path overwrites what was written. -/
theorem write_write (h : (write v p root).2 = none) :
    write w p (write v p root).1 = write w p root := by
  induction p generalizing root with
  | nil => rfl
  | cons s p ih =>
    obtain ⟨hs, hp⟩ := write_cons_succeeds_iff.mp h
    rw [write_cons hs, write_cons (not_refuses_put hs), under_put hs, ih hp, put_put hs,
      write_cons hs]

/-- What is read elsewhere stays as it was. -/
theorem get?_write_of_forks (h : (write v p root).2 = none) (hpq : p.Forks q) :
    (write v p root).1.get? q = root.get? q := by
  induction p generalizing root q with
  | nil => exact absurd rfl hpq.ne_nil.1
  | cons s p ih =>
    obtain ⟨hs, hp⟩ := write_cons_succeeds_iff.mp h
    obtain ⟨t, q, rfl⟩ := List.exists_cons_of_ne_nil hpq.ne_nil.2
    rw [write_cons hs]
    rcases Path.forks_cons.mp hpq with hst | ⟨rfl, hfork⟩
    · rw [get?_cons, get?_cons, step?_put_of_parts hs hst]
    · have hq := hfork.ne_nil.2
      rw [get?_cons_eq_under hq, under_put hs, ih hp hfork, get?_cons_eq_under hq]

/-- Writing what is there changes nothing. -/
theorem write_of_get? (h : (write v p root).2 = none) (hv : root.get? p = some v) :
    (write v p root).1 = root := by
  induction p generalizing root with
  | nil => exact (Option.some.inj hv).symm
  | cons s p ih =>
    obtain ⟨hs, hp⟩ := write_cons_succeeds_iff.mp h
    obtain ⟨child, hc, hv⟩ := Option.bind_eq_some_iff.mp hv
    have hu : root.under s = child := by simp [under, hc]
    rw [hu] at hp
    rw [write_cons hs, hu, ih hp hv]
    exact put_of_step? hs hc

/-- A path goes through an item of a list, or ends at one, by a key and not by an index. -/
def NamesItem (root : Value) (p : Path) : Prop :=
  ∃ q k rest items, p = q ++ .key k :: rest ∧ root.get? q = some (arr items)

/-- Where a value is found without naming an item by a key, a write succeeds. -/
theorem write_of_get?_eq_some (hw : root.get? p = some w) (hn : ¬root.NamesItem p) :
    (write v p root).2 = none := by
  induction p generalizing root with
  | nil => rfl
  | cons s p ih =>
    obtain ⟨child, hc, hw⟩ := Option.bind_eq_some_iff.mp hw
    have hs : ¬root.Refuses s p := by
      match s, root with
      | .key k, obj m => exact id
      | .key k, arr items => exact (hn ⟨[], k, p, items, rfl, rfl⟩).elim
      | .index i, arr items =>
        obtain ⟨hlt, -⟩ := List.getElem?_eq_some_iff.mp hc
        exact fun h ↦ absurd h.1 (not_le.mpr hlt)
    have hu : root.under s = child := by simp [under, hc]
    rw [write_cons_succeeds_iff, hu]
    refine ⟨hs, ih hw ?_⟩
    rintro ⟨q, k, rest, items, rfl, hq⟩
    exact hn ⟨s :: q, k, rest, items, rfl, by simp [hc, hq]⟩

/-- Writes and reads at paths are a lens.  Where a write succeeds, what was written is read back; a
further write at the same path succeeds and leaves what it leaves without the first one; what is
read at a path that parts from it at two keys or at two indices is the same before and after; and
where the value was there already nothing is changed. -/
theorem write_lens (root v : Value) (p : Path) (h : (write v p root).2 = none) :
    (write v p root).1.get? p = some v ∧
    (∀ w, (write w p (write v p root).1).2 = none ∧
      write w p (write v p root).1 = write w p root) ∧
    (∀ q, p.Forks q → (write v p root).1.get? q = root.get? q) ∧
    (root.get? p = some v → (write v p root).1 = root) := by
  refine ⟨get?_write h, fun w ↦ ?_, fun q ↦ get?_write_of_forks h, write_of_get? h⟩
  have hw := write_write (w := w) h
  exact ⟨hw ▸ write_succeeds_congr.mp h, hw⟩

/-- A row that is added behind the last one is read back and overwritten, and the row before it
stays. -/
theorem write_lens_at_end :
    let root := obj [("form", null), ("rows", arr [obj [("id", .int 1)]])]
    let p : Path := [.key "rows", .index 1]
    (write (.int 2) p root).2 = none ∧
    (write (.int 2) p root).1.get? p = some (.int 2) ∧
    write (.int 3) p (write (.int 2) p root).1 = write (.int 3) p root ∧
    (write (.int 2) p root).1.get? [.key "rows", .index 0] = some (obj [("id", .int 1)]) := by
  intro root p
  have h : (write (.int 2) p root).2 = none := rfl
  have hfork : p.Forks [.key "rows", .index 0] :=
    ⟨[.key "rows"], .index 1, .index 0, [], [], rfl, rfl, Nat.one_ne_zero⟩
  obtain ⟨hget, hagain, helse, -⟩ := write_lens root (.int 2) p h
  exact ⟨h, hget, (hagain (.int 3)).2, (helse _ hfork).trans rfl⟩

end Value

end LivePage
