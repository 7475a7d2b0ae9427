import LivePage.Proofs.Render.Store

/-!
# What a cache gives later

A cache gives what was written last under a key, or nothing any more: no operation but a write makes
it give something else.
-/

namespace LivePage.Cache

variable {α : Type} {c d e : Cache α} {key : String} {v : α}

/-- All that a cache gives, another one gives as well. -/
def Sub (c d : Cache α) : Prop := ∀ ⦃key v⦄, c.get? key = some v → d.get? key = some v

namespace Sub

theorem refl (c : Cache α) : c.Sub c := fun _ _ h ↦ h

theorem trans (h : c.Sub d) (h' : d.Sub e) : c.Sub e := fun _ _ hk ↦ h' (h hk)

end Sub

theorem erase_sub (c : Cache α) (key : String) (order : List String) :
    Sub { c with entries := c.entries.erase key, order := order } c := by
  intro k v h
  by_cases hk : k = key
  · simp [get?, hk] at h
  · simpa [get?, hk] using h

theorem remove_sub (c : Cache α) (key : String) : (c.remove key).Sub c := by
  unfold remove
  split
  · exact erase_sub ..
  · exact .refl c

theorem clear_sub (c : Cache α) : c.clear.Sub c := nofun

theorem makeRoom_sub (c : Cache α) : c.makeRoom.2.Sub c := by
  unfold makeRoom
  split
  · exact .refl c
  · split
    · exact .refl c
    · exact erase_sub ..

theorem drop_sub (c : Cache α) (x : Expiry) : (c.drop x).Sub c := by
  unfold drop
  split
  · exact remove_sub c _
  · exact .refl c

theorem foldl_drop_sub (c : Cache α) (xs : List Expiry) : (xs.foldl drop c).Sub c := by
  induction xs generalizing c with
  | nil => exact .refl c
  | cons x r ih => exact (ih _).trans (drop_sub c x)

theorem expire_sub (c : Cache α) (now : Nat) : (c.expire now).Sub c :=
  foldl_drop_sub c (c.expiries.filter (·.due ≤ now))

/-! ## Writes -/

theorem insert_of_maxSize_eq_zero (h : c.maxSize = 0) (now : Nat) (key : String) (v : α) :
    c.insert now key v = (none, c) := if_pos h

theorem insert_eq_append (h : c.maxSize ≠ 0) (now : Nat) (key : String) (v : α) :
    (c.insert now key v).2 = (c.remove key).makeRoom.2.append now key v := by
  rw [insert, if_neg h]

theorem get?_append_self (now : Nat) : (c.append now key v).get? key = some v := by
  simp [get?, append]

theorem get?_append_of_ne {k : String} (h : k ≠ key) (now : Nat) :
    (c.append now key v).get? k = c.get? k := by
  simp [get?, append, h]

/-- What is written is given, and is the newest. -/
theorem insert_newest (h : c.maxSize ≠ 0) (now : Nat) (key : String) (v : α) :
    (c.insert now key v).2.get? key = some v ∧ (c.insert now key v).2.order.getLast? = some key := by
  rw [insert_eq_append h]
  exact ⟨get?_append_self now, by simp [append]⟩

/-- A write changes nothing under other keys, but that one of them may have to go. -/
theorem get?_of_insert {now : Nat} {k : String} {w : α} (hk : k ≠ key)
    (h : (c.insert now key v).2.get? k = some w) : c.get? k = some w := by
  by_cases hm : c.maxSize = 0
  · rwa [insert_of_maxSize_eq_zero hm] at h
  · rw [insert_eq_append hm, get?_append_of_ne hk] at h
    exact (makeRoom_sub _).trans (remove_sub c key) h

/-! ## Sizes -/

@[simp] theorem maxSize_insert (c : Cache α) (now : Nat) (key : String) (v : α) :
    (c.insert now key v).2.maxSize = c.maxSize := by
  by_cases hm : c.maxSize = 0
  · rw [insert_of_maxSize_eq_zero hm]
  · rw [insert_eq_append hm]
    obtain ⟨_, _, hr⟩ := c.exists_remove_eq key
    obtain ⟨_, _, he⟩ := (c.remove key).exists_makeRoom_eq
    rw [append, he, hr]

@[simp] theorem maxSize_expire (c : Cache α) (now : Nat) :
    (c.expire now).maxSize = c.maxSize := by
  obtain ⟨_, _, h⟩ := exists_foldl_drop_eq (c.expiries.filter (·.due ≤ now)) c
  rw [expire, h]

end LivePage.Cache
