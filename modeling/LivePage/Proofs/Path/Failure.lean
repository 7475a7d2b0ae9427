import LivePage.Path

/-!
# What a failed write leaves behind

A write makes the objects and members that are missing on its way before it knows whether the rest
of its path can be followed.  So a write that fails leaves the root as it was just where it fails at
a value that was there before; where it fails at a null that it has made itself, what it has made
stays.
-/

namespace LivePage.Value

variable {root v : Value} {s : Segment} {p : Path}

/-- A value has no place for a segment that `rest` follows.  Null has one for every key, since it
becomes an object, and a list has one behind its last item, but only for the end of a path. -/
def Refuses : Value → Segment → (rest : Path) → Prop
  | obj _, .key _, _ | null, .key _, _ => False
  | arr items, .index i, rest => items.length ≤ i ∧ ¬(i = items.length ∧ rest = [])
  | _, _, _ => True

/-- A write at a path meets a value in the root that has no place for the next segment. -/
def Blocks (root : Value) (p : Path) : Prop :=
  ∃ q s rest w, p = q ++ s :: rest ∧ root.get? q = some w ∧ w.Refuses s rest

theorem not_blocks_nil (root : Value) : ¬root.Blocks [] := by
  rintro ⟨q, s, rest, w, h, -⟩
  cases q <;> cases h

/-- A path is blocked at its first segment or behind it. -/
theorem blocks_cons :
    root.Blocks (s :: p) ↔
      root.Refuses s p ∨ ∃ child, root.step? s = some child ∧ child.Blocks p := by
  constructor
  · rintro ⟨q, s', rest, w, h, hq, hw⟩
    cases q with
    | nil =>
      cases h
      cases hq
      exact .inl hw
    | cons s'' q =>
      cases h
      obtain ⟨child, hc, hq⟩ := Option.bind_eq_some_iff.mp hq
      exact .inr ⟨child, hc, q, s', rest, w, rfl, hq, hw⟩
  · rintro (h | ⟨child, hc, q, s', rest, w, rfl, hq, hw⟩)
    · exact ⟨[], s, p, root, rfl, rfl, h⟩
    · exact ⟨s :: q, s', rest, w, rfl, by simp [hc, hq], hw⟩

/-- A member that is missing is made, so a write that comes to it changes the object. -/
theorem write_member_unchanged_iff {k : String} {m : Fields Value} :
    (write v (.key k :: p) (obj m)).1 = obj m ↔
      ∃ w, m.get? k = some w ∧ (write v p w).1 = w := by
  have h : (write v (.key k :: p) (obj m)).1 = obj m ↔
      m.get? k = some (write v p ((m.get? k).getD null)).1 := by
    simp only [write, obj.injEq]
    exact Fields.insert_eq_self_iff
  rw [h]
  cases m.get? k with
  | none => simp
  | some w => simp [eq_comm]

theorem write_item_unchanged_iff {i : Nat} {items : List Value} {item : Value}
    (hi : items[i]? = some item) :
    (write v (.index i :: p) (arr items)).1 = arr items ↔ (write v p item).1 = item := by
  obtain ⟨hlt, rfl⟩ := List.getElem?_eq_some_iff.mp hi
  simp only [write, hi, arr.injEq]
  constructor
  · intro h
    have hset := List.getElem_set_self (l := items) (a := (write v p items[i]).1)
      (h := by simpa using hlt)
    exact hset.symm.trans (by simp only [h])
  · intro h
    rw [h]
    exact List.set_getElem_self hlt

/-- A write fails and leaves the root as it was just where the root blocks its path. -/
theorem write_fails_unchanged_iff :
    (write v p root).2.isSome = true ∧ (write v p root).1 = root ↔ root.Blocks p := by
  induction p generalizing root with
  | nil => simp [not_blocks_nil]
  | cons s p ih =>
    rw [blocks_cons]
    match s, root with
    | .key k, obj m =>
      rw [write_member_unchanged_iff]
      cases hm : Fields.get? k m with
      | none => simp [Refuses, step?, hm]
      | some w => simpa [Refuses, step?, hm, write] using @ih w
    | .key k, null => simp [write, Refuses, step?]
    | .key k, arr _ => simp [write, Refuses]
    | .key k, bool _ | .key k, num _ | .key k, str _ => simp [write, Refuses]
    | .index i, arr items =>
      cases hi : items[i]? with
      | none =>
        have hlen : items.length ≤ i := List.getElem?_eq_none_iff.mp hi
        by_cases hend : i = items.length ∧ p = []
        · simp [write, Refuses, step?, hend]
        · simp [write, Refuses, step?, hend, hlen]
      | some item =>
        have hlen : ¬items.length ≤ i := fun h ↦ by simp [List.getElem?_eq_none h] at hi
        rw [write_item_unchanged_iff hi]
        simpa [Refuses, step?, hi, hlen, write] using @ih item
    | .index i, null | .index i, bool _ | .index i, num _ | .index i, str _ | .index i, obj _ =>
      simp [write, Refuses]

/-- A failed write leaves the root as it was just where the root blocks its path. -/
theorem write_eq_self_iff (h : (write v p root).2.isSome = true) :
    (write v p root).1 = root ↔ root.Blocks p := by
  rw [← write_fails_unchanged_iff (v := v)]
  exact ⟨fun he ↦ ⟨h, he⟩, fun he ↦ he.2⟩

end LivePage.Value
