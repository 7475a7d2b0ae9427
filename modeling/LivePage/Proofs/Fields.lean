import Mathlib.Data.String.Basic
import LivePage.Fields

/-!
# Members in order

Members that are written one by one stay in the order of their keys.
-/

namespace LivePage.Fields

variable {α : Type} {k : String} {v : α} {m : Fields α}

/-- The keys ascend, so that each is there at most once. -/
def Sorted (m : Fields α) : Prop := m.keys.Pairwise (· < ·)

@[simp] theorem sorted_nil : Sorted ([] : Fields α) := .nil

@[simp] theorem sorted_cons {l : String} {w : α} :
    Sorted ((l, w) :: m) ↔ (∀ j ∈ m.keys, l < j) ∧ m.Sorted := List.pairwise_cons

theorem keys_replace : (m.replace k v).keys = m.keys := by
  induction m with
  | nil => rfl
  | cons head r ih =>
    obtain ⟨l, w⟩ := head
    by_cases e : l = k
    · simp [replace, keys, e]
    · simpa [replace, keys, e] using ih

theorem mem_keys_place {j : String} : j ∈ (m.place k v).keys ↔ j = k ∨ j ∈ m.keys := by
  induction m with
  | nil => simp [place, keys]
  | cons head r ih =>
    obtain ⟨l, w⟩ := head
    by_cases o : k < l
    · simp [place, keys, o]
    · simp only [keys] at ih
      simp only [place, keys, o, if_false, List.map_cons, List.mem_cons, ih]
      exact or_left_comm

theorem mem_keys_iff : k ∈ m.keys ↔ (m.get? k).isSome := by
  induction m with
  | nil => simp [keys]
  | cons head r ih =>
    obtain ⟨l, w⟩ := head
    by_cases e : l = k
    · simp [get?, keys, e]
    · simpa [get?, keys, e, Ne.symm e] using ih

theorem sorted_place (hk : k ∉ m.keys) (h : m.Sorted) : (m.place k v).Sorted := by
  induction m with
  | nil => simp [place, keys]
  | cons head r ih =>
    obtain ⟨l, w⟩ := head
    obtain ⟨hl, hr⟩ := sorted_cons.mp h
    obtain ⟨hne, hk⟩ := not_or.mp (List.mem_cons.not.mp hk)
    by_cases o : k < l
    · rw [place, if_pos o, sorted_cons]
      refine ⟨fun j hj ↦ ?_, h⟩
      rcases List.mem_cons.mp hj with rfl | hj
      · exact o
      · exact o.trans (hl j hj)
    · rw [place, if_neg o, sorted_cons]
      refine ⟨fun j hj ↦ ?_, ih hk hr⟩
      rcases mem_keys_place.mp hj with rfl | hj
      · exact lt_of_le_of_ne (not_lt.mp o) (Ne.symm hne)
      · exact hl j hj

/-- A write keeps the order. -/
theorem sorted_insert (h : m.Sorted) : (m.insert k v).Sorted := by
  unfold insert
  split
  · rw [Sorted, keys_replace]
    exact h
  · next hk => exact sorted_place (mem_keys_iff.not.mpr hk) h

@[simp] theorem get?_erase_self (k : String) (m : Fields α) : (m.erase k).get? k = none := by
  induction m with
  | nil => rfl
  | cons head r ih =>
    obtain ⟨l, w⟩ := head
    by_cases e : l = k
    · simpa [erase, e] using ih
    · simpa [erase, e, get?] using ih

@[simp] theorem get?_erase_of_ne {j : String} (m : Fields α) (h : j ≠ k) :
    (m.erase k).get? j = m.get? j := by
  induction m with
  | nil => rfl
  | cons head r ih =>
    obtain ⟨l, w⟩ := head
    simp only [erase] at ih
    by_cases e : l = k
    · simp [erase, e, ih, get?, Ne.symm h]
    · simp [erase, e, ih, get?]

theorem sorted_erase (h : m.Sorted) : (m.erase k).Sorted :=
  List.Pairwise.sublist (List.filter_sublist.map Prod.fst) h

theorem Sorted.nodup_keys (h : m.Sorted) : m.keys.Nodup := h.imp ne_of_lt

theorem sorted_overlay (extra : List (String × α)) (h : m.Sorted) : (m.overlay extra).Sorted := by
  induction extra generalizing m with
  | nil => exact h
  | cons head r ih => exact ih (sorted_insert h)

/-- Members are in order, whatever order they are read in. -/
theorem sorted_ofList (members : List (String × α)) : (ofList members).Sorted :=
  sorted_overlay members sorted_nil

/-- The last value of a key that is written counts. -/
theorem get?_overlay (k : String) (extra : List (String × α)) (m : Fields α) :
    (m.overlay extra).get? k = (extra.reverse.lookup k).or (m.get? k) := by
  induction extra generalizing m with
  | nil => rfl
  | cons head r ih =>
    obtain ⟨l, w⟩ := head
    rw [overlay_cons, ih, List.reverse_cons, List.lookup_append, Option.or_assoc]
    by_cases e : k = l
    · subst e
      simp
    · simp [List.lookup_cons, beq_eq_false_iff_ne.mpr e, e]

theorem get?_eq_none_iff : m.get? k = none ↔ k ∉ m.keys := by
  rw [mem_keys_iff, Option.not_isSome_iff_eq_none]

theorem place_of_keys_lt (h : ∀ l ∈ m.keys, l < k) : m.place k v = m ++ [(k, v)] := by
  induction m with
  | nil => rfl
  | cons head r ih =>
    obtain ⟨l, w⟩ := head
    obtain ⟨hl, hr⟩ := List.forall_mem_cons.mp h
    rw [place, if_neg (not_lt_of_gt hl), ih hr, List.cons_append]

theorem overlay_of_sorted {extra : List (String × α)} (h : (m ++ extra).Sorted) :
    m.overlay extra = m ++ extra := by
  induction extra generalizing m with
  | nil => rw [overlay_nil, List.append_nil]
  | cons head r ih =>
    obtain ⟨k, v⟩ := head
    have before : ∀ l ∈ m.keys, l < k := by
      intro l hl
      rw [Sorted, keys, List.map_append, List.pairwise_append] at h
      exact h.2.2 l hl k (.head _)
    have last : m.insert k v = m ++ [(k, v)] := by
      rw [insert, get?_eq_none_iff.mpr fun hk ↦ lt_irrefl k (before k hk)]
      exact place_of_keys_lt before
    rw [List.append_cons] at h
    rw [overlay_cons, last, ih h, List.append_assoc, List.singleton_append]

/-- Members that are in order stay as they are. -/
theorem ofList_of_sorted (h : m.Sorted) : ofList m = m := overlay_of_sorted (m := []) h

theorem mem_of_mem_replace {x : String × α} (h : x ∈ m.replace k v) : x = (k, v) ∨ x ∈ m := by
  induction m with
  | nil => cases h
  | cons head r ih => grind [replace]

theorem mem_of_mem_place {x : String × α} (h : x ∈ m.place k v) : x = (k, v) ∨ x ∈ m := by
  induction m with
  | nil => exact .inl (List.mem_singleton.mp h)
  | cons head r ih => grind [place]

/-- What is there was written, or there before. -/
theorem mem_of_mem_insert {x : String × α} (h : x ∈ m.insert k v) : x = (k, v) ∨ x ∈ m := by
  unfold insert at h
  split at h
  · exact mem_of_mem_replace h
  · exact mem_of_mem_place h

theorem mem_of_mem_overlay {x : String × α} {extra : List (String × α)}
    (h : x ∈ m.overlay extra) : x ∈ extra ∨ x ∈ m := by
  induction extra generalizing m with
  | nil => exact .inr h
  | cons head r ih =>
    rcases ih h with h | h
    · exact .inl (List.mem_cons_of_mem _ h)
    · rcases mem_of_mem_insert h with h | h
      · exact .inl (h ▸ List.mem_cons_self)
      · exact .inr h

theorem mem_of_mem_ofList {x : String × α} {members : List (String × α)}
    (h : x ∈ ofList members) : x ∈ members := by
  rcases mem_of_mem_overlay h with h | h
  · exact h
  · cases h

theorem replace_replace (k : String) (v w : α) (m : Fields α) :
    (m.replace k v).replace k w = m.replace k w := by
  induction m with
  | nil => rfl
  | cons head r ih =>
    obtain ⟨l, u⟩ := head
    by_cases e : l = k
    · simp [replace, e]
    · simp [replace, e, ih]

theorem replace_place (w : α) (h : m.get? k = none) :
    (m.place k v).replace k w = m.place k w := by
  induction m with
  | nil => simp [place, replace]
  | cons head r ih =>
    obtain ⟨l, u⟩ := head
    by_cases e : l = k
    · simp [get?, e] at h
    · simp only [get?, e, if_false] at h
      by_cases o : k < l
      · simp [place, replace, o]
      · simp [place, replace, o, e, ih h]

/-- Of two writes under a key the last one counts. -/
@[simp] theorem insert_insert (k : String) (v w : α) (m : Fields α) :
    (m.insert k v).insert k w = m.insert k w := by
  rw [insert, if_pos (by simp), insert, insert]
  split
  · exact replace_replace k v w m
  · next h => exact replace_place w (by simpa using h)

/-! ## Members of which each key is there once -/

theorem nodup_keys_place (hk : k ∉ m.keys) (h : m.keys.Nodup) : (m.place k v).keys.Nodup := by
  induction m with
  | nil => simp [place, keys]
  | cons head r ih =>
    obtain ⟨l, w⟩ := head
    obtain ⟨hl, hr⟩ := List.nodup_cons.mp h
    by_cases o : k < l
    · rw [place, if_pos o]
      exact List.nodup_cons.mpr ⟨hk, h⟩
    · obtain ⟨hne, hk⟩ := not_or.mp (List.mem_cons.not.mp hk)
      rw [place, if_neg o]
      refine List.nodup_cons.mpr ⟨fun hm ↦ ?_, ih hk hr⟩
      exact (mem_keys_place.mp hm).elim (Ne.symm hne) hl

theorem nodup_keys_insert (h : m.keys.Nodup) : (m.insert k v).keys.Nodup := by
  unfold insert
  split
  · rwa [keys_replace]
  · next hk => exact nodup_keys_place (mem_keys_iff.not.mpr hk) h

theorem mem_iff_get? (h : m.keys.Nodup) : (k, v) ∈ m ↔ m.get? k = some v := by
  induction m with
  | nil => simp
  | cons head r ih =>
    obtain ⟨l, w⟩ := head
    obtain ⟨hl, hr⟩ := List.nodup_cons.mp h
    rw [List.mem_cons, ih hr, get?]
    by_cases e : l = k
    · subst e
      have hn : get? l r ≠ some v := fun hs ↦ hl (mem_keys_iff.mpr (by simp [hs]))
      simp [hn, eq_comm]
    · simp [e, Ne.symm e]

/-- Where each key is there once, the order of members is nothing to a look-up. -/
theorem get?_of_perm {n : Fields α} (h : m.keys.Nodup) (hp : m.Perm n) (k : String) :
    n.get? k = m.get? k := by
  have hn : n.keys.Nodup := (hp.map Prod.fst).nodup_iff.mp h
  refine Option.ext fun v ↦ ?_
  rw [← mem_iff_get? hn, ← mem_iff_get? h]
  exact hp.symm.mem_iff

/-- Puts something else in the place of each member, or nothing. -/
def sift (f : String → α → Option α) (m : Fields α) : Fields α :=
  m.filterMap fun x ↦ (f x.1 x.2).map (x.1, ·)

theorem keys_sift_sublist (f : String → α → Option α) (m : Fields α) :
    (m.sift f).keys.Sublist m.keys := by
  induction m with
  | nil => exact .slnil
  | cons head r ih =>
    obtain ⟨l, w⟩ := head
    cases hf : f l w with
    | none => simpa [sift, keys, hf] using ih.cons l
    | some u => simpa [sift, keys, hf] using ih.cons_cons l

theorem get?_sift (f : String → α → Option α) (h : m.keys.Nodup) (k : String) :
    (m.sift f).get? k = (m.get? k).bind (f k) := by
  induction m with
  | nil => rfl
  | cons head r ih =>
    obtain ⟨l, w⟩ := head
    obtain ⟨hl, hr⟩ := List.nodup_cons.mp h
    have ih := ih hr
    simp only [sift] at ih
    by_cases e : l = k
    · subst e
      have hn : get? l r = none := by simpa using mem_keys_iff.not.mp hl
      rw [hn] at ih
      cases hf : f l w with
      | none => simpa [sift, hf, get?] using ih
      | some u => simp [sift, hf, get?]
    · cases hf : f l w with
      | none => simpa [sift, hf, get?, e] using ih
      | some u => simpa [sift, hf, get?, e] using ih

end LivePage.Fields
