import LivePage.Proofs.Fields
import LivePage.Render.Cache

/-!
# Caches are stores with insertion times

A store is a list of values, oldest first, each with the time at which it was written and for which
it is kept from then on.  A cache has no such list: its values are kept by key, their order is kept
apart, and the removal of each is done later, when the key may stand for something else.  It gives
the answers of a store all the same.
-/

namespace LivePage

/-- A value, and when it was written. -/
structure Store.Item (α : Type) where
  key : String
  value : α
  time : Nat

/-- A limited number of values, oldest first. -/
structure Store (α : Type) where
  maxSize : Nat
  ttl : Nat
  items : List (Store.Item α) := []

namespace Store

variable {α : Type}

def get? (s : Store α) (key : String) : Option α := (s.items.find? (·.key == key)).map (·.value)

def contains (s : Store α) (key : String) : Bool := s.items.any (·.key == key)

def remove (s : Store α) (key : String) : Store α :=
  { s with items := s.items.filter (·.key != key) }

def clear (s : Store α) : Store α := { s with items := [] }

/-- Makes room for one more value by dropping the oldest. -/
def makeRoom (s : Store α) : Option String × Store α :=
  if s.items.length < s.maxSize then (none, s)
  else (s.items.head?.map (·.key), { s with items := s.items.tail })

def insert (s : Store α) (now : Nat) (key : String) (v : α) : Option String × Store α :=
  if s.maxSize = 0 then (none, s)
  else
    let (evicted, s) := (s.remove key).makeRoom
    (evicted, { s with items := s.items ++ [⟨key, v, now⟩] })

/-- Drops the values whose time is over. -/
def expire (s : Store α) (now : Nat) : Store α :=
  { s with items := s.items.filter fun x ↦ s.ttl = 0 ∨ now < x.time + s.ttl }

end Store

namespace Cache

variable {α : Type}

/-! ## Runs of operations -/

/-- What can be asked of a cache, and that time passes. -/
inductive Operation (α : Type) where
  | insert (key : String) (v : α)
  | get (key : String)
  | remove (key : String)
  | clear
  | size
  | advance (duration : Nat)

inductive Answer (α : Type) where
  /-- The key that had to go, if any. -/
  | evicted (key? : Option String)
  | found (value? : Option α)
  /-- Whether there was something to remove. -/
  | removed (b : Bool)
  | counted (n : Nat)
  | done

/-- The answers to operations one after another, and the state behind the last of them. -/
def Operation.run {σ : Type} (step : σ → Operation α → Answer α × σ) :
    List (Operation α) → σ → List (Answer α) × σ
  | [], s => ([], s)
  | op :: r, s =>
    let (answer, s) := step s op
    let (rest, s) := run step r s
    (answer :: rest, s)

/-- The answer of a cache to an operation, with the time and the cache behind it. -/
def step : Nat × Cache α → Operation α → Answer α × Nat × Cache α
  | (now, c), .insert key v =>
    let (evicted, c) := c.insert now key v
    (.evicted evicted, now, c)
  | (now, c), .get key => (.found (c.get? key), now, c)
  | (now, c), .remove key => (.removed (c.contains key), now, c.remove key)
  | (now, c), .clear => (.done, now, c.clear)
  | (now, c), .size => (.counted c.size, now, c)
  | (now, c), .advance d => (.done, now + d, c.expire (now + d))

end Cache

/-- The answer of a store to an operation, with the time and the store behind it. -/
def Store.step {α : Type} : Nat × Store α → Cache.Operation α → Cache.Answer α × Nat × Store α
  | (now, s), .insert key v =>
    let (evicted, s) := s.insert now key v
    (.evicted evicted, now, s)
  | (now, s), .get key => (.found (s.get? key), now, s)
  | (now, s), .remove key => (.removed (s.contains key), now, s.remove key)
  | (now, s), .clear => (.done, now, s.clear)
  | (now, s), .size => (.counted s.items.length, now, s)
  | (now, s), .advance d => (.done, now + d, s.expire (now + d))

namespace Cache

variable {α : Type} {c : Cache α} {xs : List (Nat × Store.Item α)} {key : String}

/-! ## What a cache keeps -/

/-- A cache keeps these items, each under its stamp.  The stamp tells the removal of an item from
those of all that were written before. -/
structure Keeps (c : Cache α) (xs : List (Nat × Store.Item α)) : Prop where
  sorted : c.entries.Sorted
  order : c.order = xs.map (·.2.key)
  nodup : (xs.map (·.2.key)).Nodup
  bounded : xs.length ≤ c.maxSize
  get?_iff : ∀ key stamp v,
    c.entries.get? key = some ⟨stamp, v⟩ ↔ ∃ time, (stamp, ⟨key, v, time⟩) ∈ xs
  stamped : ∀ x ∈ xs, x.1 ≤ c.stamps
  timed : c.ttl ≠ 0 → ∀ x ∈ xs, ⟨x.2.time + c.ttl, x.2.key, x.1⟩ ∈ c.expiries
  expiries : ∀ e ∈ c.expiries, c.ttl ≠ 0 ∧ e.stamp ≤ c.stamps ∧
    ∀ x ∈ xs, x.1 = e.stamp → e.due = x.2.time + c.ttl

theorem keeps_nil (maxSize ttl : Nat) : (⟨maxSize, ttl, [], [], 0, []⟩ : Cache α).Keeps [] where
  sorted := Fields.sorted_nil
  order := rfl
  nodup := .nil
  bounded := Nat.zero_le _
  get?_iff := by simp
  stamped := nofun
  timed _ := nofun
  expiries := nofun

namespace Keeps

theorem get?_entries_of_mem (h : c.Keeps xs) {x : Nat × Store.Item α} (hx : x ∈ xs) :
    c.entries.get? x.2.key = some ⟨x.1, x.2.value⟩ :=
  (h.get?_iff _ _ _).mpr ⟨x.2.time, hx⟩

/-- The entries are under the keys of the items. -/
theorem contains_iff (h : c.Keeps xs) : c.contains key ↔ ∃ x ∈ xs, x.2.key = key := by
  rw [contains, Option.isSome_iff_exists]
  constructor
  · rintro ⟨e, he⟩
    obtain ⟨time, hx⟩ := (h.get?_iff _ _ _).mp he
    exact ⟨_, hx, rfl⟩
  · rintro ⟨x, hx, rfl⟩
    exact ⟨_, h.get?_entries_of_mem hx⟩

theorem mem_order_iff (h : c.Keeps xs) : key ∈ c.order ↔ c.contains key := by
  rw [h.contains_iff, h.order, List.mem_map]

theorem contains_eq (h : c.Keeps xs) : c.contains key = xs.any (·.2.key == key) := by
  rw [Bool.eq_iff_iff, h.contains_iff]
  simp

theorem get?_eq (h : c.Keeps xs) :
    c.get? key = (xs.find? (·.2.key == key)).map (·.2.value) := by
  cases hf : xs.find? (·.2.key == key) with
  | none =>
    have hc : ¬c.contains key := by
      rw [h.contains_iff]
      simpa using List.find?_eq_none.mp hf
    simpa [get?, contains] using hc
  | some x =>
    have hk : x.2.key = key := by simpa using List.find?_some hf
    rw [← hk, get?, h.get?_entries_of_mem (List.mem_of_find?_eq_some hf)]
    rfl

theorem size_eq (h : c.Keeps xs) : c.size = xs.length := by
  have hp : c.entries.keys.Perm c.order := by
    rw [List.perm_ext_iff_of_nodup h.sorted.nodup_keys (h.order ▸ h.nodup)]
    intro key
    rw [Fields.mem_keys_iff, h.mem_order_iff]
    rfl
  simpa [size, Fields.keys, h.order] using hp.length_eq

/-! ## Operations -/

/-- A cache from which a key is erased keeps the other items. -/
theorem erase (h : c.Keeps xs) (key : String) :
    { c with entries := c.entries.erase key, order := c.order.filter (· != key) }.Keeps
      (xs.filter (·.2.key != key)) where
  sorted := Fields.sorted_erase h.sorted
  order := by simp [h.order, List.filter_map, Function.comp_def]
  nodup := h.nodup.sublist (List.filter_sublist.map _)
  bounded := (List.length_filter_le ..).trans h.bounded
  get?_iff k stamp v := by
    by_cases hk : k = key
    · simp [hk]
    · simp [hk, h.get?_iff]
  stamped x hx := h.stamped x (List.mem_of_mem_filter hx)
  timed ht x hx := h.timed ht x (List.mem_of_mem_filter hx)
  expiries e he := by
    obtain ⟨ht, hs, hd⟩ := h.expiries e he
    exact ⟨ht, hs, fun x hx ↦ hd x (List.mem_of_mem_filter hx)⟩

theorem remove (h : c.Keeps xs) (key : String) :
    (c.remove key).Keeps (xs.filter (·.2.key != key)) := by
  unfold Cache.remove
  split
  · exact h.erase key
  · next hc =>
    have hxs : xs.filter (·.2.key != key) = xs := by
      rw [List.filter_eq_self]
      intro x hx
      simpa using fun hk ↦ hc (h.contains_iff.mpr ⟨x, hx, hk⟩)
    rwa [hxs]

theorem clear (h : c.Keeps xs) : c.clear.Keeps [] where
  sorted := Fields.sorted_nil
  order := rfl
  nodup := .nil
  bounded := Nat.zero_le _
  get?_iff := by simp [Cache.clear]
  stamped := nofun
  timed _ := nofun
  expiries e he := by
    obtain ⟨ht, hs, -⟩ := h.expiries e he
    exact ⟨ht, hs, nofun⟩

/-- Where there is no room, the oldest item goes. -/
theorem makeRoom (h : c.Keeps xs) (hm : c.maxSize ≠ 0) :
    c.makeRoom.1 = (if xs.length < c.maxSize then none else xs.head?.map (·.2.key)) ∧
      c.makeRoom.2.Keeps (if xs.length < c.maxSize then xs else xs.tail) ∧
      (if xs.length < c.maxSize then xs else xs.tail).length < c.maxSize := by
  rw [Cache.makeRoom, h.size_eq]
  split
  · next hlt => exact ⟨rfl, h, hlt⟩
  · next hlt =>
    cases xs with
    | nil =>
      simp at hlt
      exact absurd hlt hm
    | cons x ys =>
      obtain ⟨hx, hys⟩ := List.nodup_cons.mp h.nodup
      have hn : ∀ y ∈ ys, y.2.key ≠ x.2.key := fun y hy he ↦ hx (List.mem_map.mpr ⟨y, hy, he⟩)
      -- the oldest key is erased, which leaves the other items as they are
      have he := h.erase x.2.key
      have hf : (x :: ys).filter (·.2.key != x.2.key) = ys := by
        simpa [List.filter_cons] using hn
      have ho : c.order.filter (· != x.2.key) = ys.map (·.2.key) := by
        simpa [hf] using he.order
      rw [hf, ho] at he
      have hb := h.bounded
      simp only [h.order, List.map_cons, List.head?_cons, Option.map_some, List.tail_cons]
      exact ⟨trivial, he, Nat.lt_of_succ_le hb⟩

theorem append (h : c.Keeps xs) (now : Nat) (v : α) (hk : ∀ x ∈ xs, x.2.key ≠ key)
    (hl : xs.length < c.maxSize) :
    (c.append now key v).Keeps (xs ++ [(c.stamps + 1, ⟨key, v, now⟩)]) where
  sorted := Fields.sorted_insert h.sorted
  order := by simp [Cache.append, h.order]
  nodup := by
    rw [List.map_append, List.nodup_append]
    refine ⟨h.nodup, by simp, fun k hm l hl ↦ ?_⟩
    obtain ⟨x, hx, rfl⟩ := List.mem_map.mp hm
    exact List.mem_singleton.mp hl ▸ hk x hx
  bounded := by simpa [Cache.append] using Nat.succ_le_of_lt hl
  get?_iff k stamp w := by
    simp only [Cache.append]
    by_cases he : k = key
    · subst he
      simp
      grind
    · simp [he, h.get?_iff]
  stamped x hx := by
    have := h.stamped x
    grind [Cache.append]
  timed ht x hx := by
    have ht : c.ttl ≠ 0 := ht
    have := h.timed ht x
    grind [Cache.append]
  expiries e he := by
    have hs := h.expiries e
    have := h.stamped
    grind [Cache.append]

/-- A removal takes the item under its key and its stamp, and no other. -/
theorem drop (h : c.Keeps xs) (e : Expiry) :
    (c.drop e).Keeps (xs.filter fun x ↦ !(x.2.key == e.key && x.1 == e.stamp)) := by
  unfold Cache.drop
  split
  · next hc =>
    obtain ⟨entry, he, hs⟩ := (Option.any_eq_true ..).mp hc
    have hf : xs.filter (fun x ↦ !(x.2.key == e.key && x.1 == e.stamp)) =
        xs.filter (·.2.key != e.key) := by
      refine List.filter_congr fun x hx ↦ ?_
      by_cases hk : x.2.key = e.key
      · have hx := h.get?_entries_of_mem hx
        rw [hk, he] at hx
        cases hx
        simp_all
      · simp [beq_eq_false_iff_ne.mpr hk, bne]
    rw [hf]
    exact h.remove e.key
  · next hc =>
    have hf : xs.filter (fun x ↦ !(x.2.key == e.key && x.1 == e.stamp)) = xs := by
      rw [List.filter_eq_self]
      intro x hx
      by_cases hk : x.2.key = e.key
      · rw [← hk, h.get?_entries_of_mem hx] at hc
        simpa [hk] using hc
      · simp [hk]
    rwa [hf]

theorem drops (h : c.Keeps xs) (es : List Expiry) :
    (es.foldl Cache.drop c).Keeps
      (xs.filter fun x ↦ !es.any fun e ↦ x.2.key == e.key && x.1 == e.stamp) := by
  induction es generalizing c xs with
  | nil => simpa using h
  | cons e r ih => simpa [List.filter_filter, Bool.and_comm] using ih (h.drop e)

end Keeps

/-- Removals change nothing but the entries and their order. -/
theorem exists_foldl_drop_eq (es : List Expiry) (c : Cache α) :
    ∃ entries order, es.foldl drop c = { c with entries := entries, order := order } := by
  induction es generalizing c with
  | nil => exact ⟨c.entries, c.order, rfl⟩
  | cons e r ih =>
    obtain ⟨entries, order, h⟩ := ih (c.drop e)
    refine ⟨entries, order, h.trans ?_⟩
    unfold drop remove
    split
    · split <;> rfl
    · rfl

/-- As time passes, the items go whose time is over. -/
theorem Keeps.expire (h : c.Keeps xs) (now : Nat) :
    (c.expire now).Keeps (xs.filter fun x ↦ c.ttl = 0 ∨ now < x.2.time + c.ttl) := by
  have hf : xs.filter (fun x ↦ !(c.expiries.filter (·.due ≤ now)).any fun e ↦
      x.2.key == e.key && x.1 == e.stamp) =
        xs.filter fun x ↦ c.ttl = 0 ∨ now < x.2.time + c.ttl := by
    refine List.filter_congr fun x hx ↦ ?_
    rw [Bool.eq_iff_iff]
    simp only [Bool.not_eq_true', List.any_eq_false, List.mem_filter, decide_eq_true_eq,
      Bool.and_eq_true, beq_iff_eq]
    constructor
    · intro hn
      by_contra hc
      obtain ⟨ht, hd⟩ := not_or.mp hc
      exact hn _ ⟨h.timed ht x hx, Nat.le_of_not_lt hd⟩ ⟨rfl, rfl⟩
    · rintro hc e ⟨he, hn⟩ ⟨-, hs⟩
      obtain ⟨ht, -, hd⟩ := h.expiries e he
      have := hd x hx hs
      omega
  have hk := h.drops (c.expiries.filter (·.due ≤ now))
  rw [hf] at hk
  obtain ⟨entries, order, he⟩ := exists_foldl_drop_eq (c.expiries.filter (·.due ≤ now)) c
  simp only [Cache.expire]
  rw [he] at hk ⊢
  exact { hk with
    timed := fun ht x hx ↦ by
      have hx' := List.mem_filter.mp hx
      refine List.mem_filter.mpr ⟨h.timed ht x hx'.1, ?_⟩
      have ht : c.ttl ≠ 0 := ht
      simpa [ht] using hx'.2
    expiries := fun e he ↦ hk.expiries e (List.mem_of_mem_filter he) }

/-! ## Answers -/

/-- The items of a cache as a store. -/
def store (c : Cache α) (xs : List (Nat × Store.Item α)) : Store α where
  maxSize := c.maxSize
  ttl := c.ttl
  items := xs.map Prod.snd

theorem exists_remove_eq (c : Cache α) (key : String) :
    ∃ entries order, c.remove key = { c with entries := entries, order := order } := by
  unfold remove
  split
  · exact ⟨_, _, rfl⟩
  · exact ⟨c.entries, c.order, rfl⟩

theorem exists_makeRoom_eq (c : Cache α) :
    ∃ entries order, c.makeRoom.2 = { c with entries := entries, order := order } := by
  unfold makeRoom
  split
  · exact ⟨c.entries, c.order, rfl⟩
  · split
    · exact ⟨c.entries, c.order, rfl⟩
    · exact ⟨_, _, rfl⟩

theorem store_remove (xs : List (Nat × Store.Item α)) (key : String) :
    (c.remove key).store (xs.filter (·.2.key != key)) = (c.store xs).remove key := by
  obtain ⟨entries, order, h⟩ := c.exists_remove_eq key
  simp [store, Store.remove, h, List.filter_map, Function.comp_def]

theorem store_expire (xs : List (Nat × Store.Item α)) (now : Nat) :
    (c.expire now).store (xs.filter fun x ↦ c.ttl = 0 ∨ now < x.2.time + c.ttl) =
      (c.store xs).expire now := by
  obtain ⟨entries, order, h⟩ := exists_foldl_drop_eq (c.expiries.filter (·.due ≤ now)) c
  simp only [store, expire, Store.expire, h, List.filter_map, Function.comp_def]
  rfl

theorem store_makeRoom_of_lt (h : xs.length < c.maxSize) :
    (c.store xs).makeRoom = (none, c.store xs) := by
  simp [store, Store.makeRoom, h]

theorem store_makeRoom_of_not_lt (h : ¬xs.length < c.maxSize) :
    (c.store xs).makeRoom = (xs.head?.map (·.2.key), c.store xs.tail) := by
  simp [store, Store.makeRoom, h, Function.comp_def]

/-- Room is made in a cache as it is made in the store of its items. -/
theorem Keeps.store_makeRoom (h : c.Keeps xs) (hm : c.maxSize ≠ 0) :
    c.makeRoom.1 = (c.store xs).makeRoom.1 ∧ ∃ ys, c.makeRoom.2.Keeps ys ∧ ys.Sublist xs ∧
      ys.length < c.maxSize ∧ c.makeRoom.2.store ys = (c.store xs).makeRoom.2 := by
  obtain ⟨he, hk, hl⟩ := h.makeRoom hm
  obtain ⟨entries, order, hc⟩ := c.exists_makeRoom_eq
  rw [he]
  by_cases hlt : xs.length < c.maxSize
  · simp only [if_pos hlt] at hk hl ⊢
    rw [store_makeRoom_of_lt hlt]
    exact ⟨rfl, xs, hk, .refl xs, hl, by simp [store, hc]⟩
  · simp only [if_neg hlt] at hk hl ⊢
    rw [store_makeRoom_of_not_lt hlt]
    exact ⟨rfl, xs.tail, hk, List.tail_sublist xs, hl, by simp [store, hc]⟩

/-- A value is written to a cache as it is written to the store of its items. -/
theorem Keeps.store_insert (h : c.Keeps xs) (now : Nat) (key : String) (v : α) :
    (c.insert now key v).1 = ((c.store xs).insert now key v).1 ∧
      ∃ ys, (c.insert now key v).2.Keeps ys ∧
        (c.insert now key v).2.store ys = ((c.store xs).insert now key v).2 := by
  by_cases hm : c.maxSize = 0
  · have hs : (c.store xs).maxSize = 0 := hm
    simp only [insert, Store.insert, if_pos hm, if_pos hs]
    exact ⟨trivial, xs, h, rfl⟩
  · have hs : (c.store xs).maxSize ≠ 0 := hm
    have hr : (c.remove key).maxSize = c.maxSize := by
      obtain ⟨entries, order, h⟩ := c.exists_remove_eq key
      rw [h]
    obtain ⟨he, ys, hk, hsub, hl, hst⟩ := (h.remove key).store_makeRoom (hr ▸ hm)
    rw [store_remove] at he hst
    have hmax : (c.remove key).makeRoom.2.maxSize = (c.remove key).maxSize := by
      obtain ⟨entries, order, h⟩ := (c.remove key).exists_makeRoom_eq
      rw [h]
    have hn : ∀ x ∈ ys, x.2.key ≠ key := fun x hx ↦ by
      simpa using List.of_mem_filter (hsub.mem hx)
    simp only [insert, Store.insert, if_neg hm, if_neg hs]
    refine ⟨he, _, hk.append now v hn (hmax.symm ▸ hl), ?_⟩
    rw [← hst]
    simp only [store, Cache.append, List.map_append, List.map_singleton]

/-- A cache and a store are at the same time, and the store is that of the items of the cache. -/
def Refines (x : Nat × Cache α) (y : Nat × Store α) : Prop :=
  x.1 = y.1 ∧ ∃ xs, x.2.Keeps xs ∧ x.2.store xs = y.2

theorem refines_step {x : Nat × Cache α} {y : Nat × Store α} (h : Refines x y)
    (op : Operation α) :
    (step x op).1 = (Store.step y op).1 ∧ Refines (step x op).2 (Store.step y op).2 := by
  obtain ⟨now, c⟩ := x
  obtain ⟨_, _⟩ := y
  obtain ⟨rfl, xs, hk, rfl⟩ := h
  cases op with
  | insert key v =>
    obtain ⟨he, ys, hy, hs⟩ := hk.store_insert now key v
    exact ⟨congrArg Answer.evicted he, rfl, ys, hy, hs⟩
  | get key =>
    refine ⟨congrArg Answer.found ?_, rfl, xs, hk, rfl⟩
    simp [hk.get?_eq, Store.get?, store, List.find?_map, Function.comp_def]
  | remove key =>
    refine ⟨congrArg Answer.removed ?_, rfl, _, hk.remove key, store_remove xs key⟩
    simp [hk.contains_eq, Store.contains, store, Function.comp_def]
  | clear => exact ⟨rfl, rfl, [], hk.clear, rfl⟩
  | size =>
    refine ⟨congrArg Answer.counted ?_, rfl, xs, hk, rfl⟩
    simp [hk.size_eq, store]
  | advance d => exact ⟨rfl, rfl, _, hk.expire (now + d), store_expire xs (now + d)⟩

theorem refines_run {x : Nat × Cache α} {y : Nat × Store α} (h : Refines x y)
    (ops : List (Operation α)) :
    (Operation.run step ops x).1 = (Operation.run Store.step ops y).1 ∧
      Refines (Operation.run step ops x).2 (Operation.run Store.step ops y).2 := by
  induction ops generalizing x y with
  | nil => exact ⟨rfl, h⟩
  | cons op r ih =>
    obtain ⟨ha, hs⟩ := refines_step h op
    obtain ⟨hr, hs⟩ := ih hs
    simp only [Operation.run]
    exact ⟨by rw [ha, hr], hs⟩

theorem maxSize_step_store (y : Nat × Store α) (op : Operation α) :
    (Store.step y op).2.2.maxSize = y.2.maxSize := by
  cases op with
  | insert key v =>
    simp only [Store.step, Store.insert]
    split
    · rfl
    · simp only [Store.makeRoom]
      split <;> rfl
  | get key | remove key | clear | size | advance d => rfl

theorem maxSize_run_store (y : Nat × Store α) (ops : List (Operation α)) :
    (Operation.run Store.step ops y).2.2.maxSize = y.2.maxSize := by
  induction ops generalizing y with
  | nil => rfl
  | cons op r ih => exact (ih _).trans (maxSize_step_store y op)

/-- A cache gives the answers of a store, whatever is asked of it one after another and however much
time passes in between.  Behind that it keeps the values of the store, at most as many as it may,
and its order names each of their keys once and no other. -/
theorem answers_eq_store (maxSize ttl now : Nat) (ops : List (Operation α)) :
    let answered := Operation.run step ops (now, { maxSize := maxSize, ttl := ttl })
    let expected := Operation.run Store.step ops (now, { maxSize := maxSize, ttl := ttl })
    let c := answered.2.2
    let s := expected.2.2
    answered.1 = expected.1 ∧ (∀ key, c.get? key = s.get? key) ∧ c.order = s.items.map (·.key) ∧
      c.size ≤ maxSize ∧ c.order.Nodup ∧ ∀ key, key ∈ c.order ↔ (c.get? key).isSome := by
  intro answered expected c s
  obtain ⟨ha, -, xs, hk, hs⟩ := refines_run (x := (now, { maxSize := maxSize, ttl := ttl }))
    (y := (now, { maxSize := maxSize, ttl := ttl })) ⟨rfl, [], keeps_nil .., rfl⟩ ops
  have hs : c.store xs = s := hs
  have hm : c.maxSize = maxSize := (congrArg Store.maxSize hs).trans (maxSize_run_store _ ops)
  refine ⟨ha, fun key ↦ ?_, ?_, ?_, ?_, fun key ↦ ?_⟩
  · rw [hk.get?_eq, ← hs]
    simp [Store.get?, store, List.find?_map, Function.comp_def]
  · rw [hk.order, ← hs]
    simp [store]
  · rw [hk.size_eq, ← hm]
    exact hk.bounded
  · rw [hk.order]
    exact hk.nodup
  · rw [hk.mem_order_iff, contains, get?, Option.isSome_map]

/-- The removal of what was written first leaves alone what was written later under its key. -/
example : (Operation.run step [.insert "a" 1, .advance 60, .insert "a" 2, .insert "b" 3,
      .advance 50, .get "a", .advance 50, .size] (0, { maxSize := 4, ttl := 100 })).1 =
    [.evicted none, .done, .evicted none, .evicted none, .done, .found (some 2), .done,
      .counted 0] := by
  rfl

end Cache

end LivePage
