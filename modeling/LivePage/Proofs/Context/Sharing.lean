import LivePage.Proofs.Context.Document
import LivePage.Proofs.Fields
import LivePage.Proofs.Replies

/-!
# What contexts share

A context holds its maps at addresses.  A context that is derived from another one copies the map of
its variables to a new address and takes over the other addresses as they are; a write goes to the
map at its address, whoever else holds it.

A family has no addresses: it keeps what its contexts share, and the variables of each.  What can be
read through the contexts of a heap is nevertheless what the family of its root says, because no
two maps of the heap are ever at one address, and no two contexts hold the same variables.
-/

namespace LivePage

namespace Context

/-- A write to the variables changes nothing else. -/
theorem write_vars (c : Context) (v : Value) (p : Path) :
    (c.write .vars v p).1 = { c with vars := (c.write .vars v p).1.vars } := by
  unfold write
  match p with
  | [] => rfl
  | .index i :: rest => rfl
  | .key key :: rest => rfl

end Context

/-- A context as it is held: the addresses of its maps, and its records. -/
structure Handle where
  data : Nat
  state : Nat
  vars : Nat
  params : Nat
  query : Nat
  user : Value
  tenant : Value

/-- Where a part is that can be written. -/
def Handle.address? (h : Handle) : Namespace → Option Nat
  | .data => some h.data
  | .state => some h.state
  | .vars => some h.vars
  | .params => some h.params
  | .query => some h.query
  | .user | .tenant => none

theorem Handle.isSome_address? (h h' : Handle) (k : Namespace) :
    (h.address? k).isSome = (h'.address? k).isSome := by
  cases k <;> rfl

/-- Maps by their addresses, and contexts in the order of derivation. -/
structure Heap where
  maps : List (Fields Value)
  handles : List Handle

namespace Heap

def read (s : Heap) (a : Nat) : Fields Value := s.maps.getD a []

def put (s : Heap) (a : Nat) (m : Fields Value) : Heap := { s with maps := s.maps.set a m }

/-- What is read through a context. -/
def contents (s : Heap) (h : Handle) : Context where
  data := s.read h.data
  state := s.read h.state
  vars := s.read h.vars
  params := s.read h.params
  query := s.read h.query
  user := h.user
  tenant := h.tenant

/-- A context of its own. -/
def root (c : Context) : Heap where
  maps := [c.data, c.state, c.vars, c.params, c.query]
  handles := [⟨0, 1, 2, 3, 4, c.user, c.tenant⟩]

/-- Derives a context with more variables; the last of a name counts. -/
def derive (s : Heap) (h : Handle) (extra : List (String × Value)) : Heap where
  maps := s.maps ++ [(s.read h.vars).overlay extra]
  handles := s.handles ++ [{ h with vars := s.maps.length }]

/-- Writes at a path in a part; the first segment names the member that is written or made. -/
def write (s : Heap) (h : Handle) (k : Namespace) (v : Value) (p : Path) :
    Heap × Option PathError :=
  match h.address? k with
  | none => (s, some (.notContainer k.name "read-only record"))
  | some a =>
    match p with
    | [] => (s, some .empty)
    | .key key :: rest =>
      let (child, fault) := Value.write v rest (((s.read a).get? key).getD .null)
      (s.put a ((s.read a).insert key child), fault)
    | .index i :: _ => (s, some (.notContainer (Segment.index i).text "namespace"))

variable {s : Heap} {h : Handle} {a : Nat} {k : Namespace} {m : Fields Value}

theorem read_put (ha : a < s.maps.length) (m : Fields Value) (b : Nat) :
    (s.put a m).read b = if a = b then m else s.read b := by
  simp only [read, put, List.getD_eq_getElem?_getD, List.getElem?_set, ha]
  split
  · rfl
  · rfl

theorem read_derive (ha : a < s.maps.length) {extra : List (String × Value)} :
    (s.derive h extra).read a = s.read a := by
  simp only [read, derive, List.getD_eq_getElem?_getD, List.getElem?_append_left ha]

theorem read_derive_self (s : Heap) (h : Handle) (extra : List (String × Value)) :
    (s.derive h extra).read s.maps.length = (s.read h.vars).overlay extra := by
  simp [read, derive]

theorem entries?_contents (s : Heap) (h : Handle) (k : Namespace) :
    (s.contents h).entries? k = (h.address? k).map s.read := by
  cases k <;> rfl

/-- A write does through a heap what it does through a context alone. -/
theorem write_eq (s : Heap) (h : Handle) (k : Namespace) (v : Value) (p : Path) :
    (s.write h k v p).2 = ((s.contents h).write k v p).2 ∧
      ((s.write h k v p).1 = s ∧ ((s.contents h).write k v p).1 = s.contents h ∨
        ∃ a m, h.address? k = some a ∧ (s.write h k v p).1 = s.put a m ∧
          ((s.contents h).write k v p).1 = (s.contents h).setEntries m k) := by
  unfold write Context.write
  rw [entries?_contents]
  cases ha : h.address? k with
  | none => exact ⟨rfl, .inl ⟨rfl, rfl⟩⟩
  | some a =>
    match p with
    | [] => exact ⟨rfl, .inl ⟨rfl, rfl⟩⟩
    | .index i :: rest => exact ⟨rfl, .inl ⟨rfl, rfl⟩⟩
    | .key key :: rest => exact ⟨rfl, .inr ⟨a, _, rfl, rfl, rfl⟩⟩

theorem snapshot_contents (s : Heap) (ha : h.address? k = some a) :
    (s.contents h).snapshot k = .obj (s.read a) := by
  cases k <;> cases ha <;> rfl

theorem snapshot_contents_of_record (s t : Heap) (ha : h.address? k = none) :
    (s.contents h).snapshot k = (t.contents h).snapshot k := by
  cases k <;> first | rfl | cases ha

/-- All contexts share what is not variables, and every address serves one part of them all, or the
variables of one. -/
structure Sound (s : Heap) : Prop where
  shared {h h' : Handle} : h ∈ s.handles → h' ∈ s.handles → h' = { h with vars := h'.vars }
  purpose : ∃ purpose : Nat → Namespace × Nat, ∀ i h k a, s.handles[i]? = some h →
    h.address? k = some a → a < s.maps.length ∧ purpose a = (k, if k = .vars then i else 0)

theorem getElem?_root {c : Context} {i : Nat} (hi : (root c).handles[i]? = some h) :
    i = 0 ∧ h = ⟨0, 1, 2, 3, 4, c.user, c.tenant⟩ := by
  cases i with
  | zero => exact ⟨rfl, (Option.some.inj hi).symm⟩
  | succ i => cases hi

theorem getElem?_derive {extra : List (String × Value)} {i : Nat} {g : Handle}
    (hi : (s.derive h extra).handles[i]? = some g) :
    s.handles[i]? = some g ∨
      i = s.handles.length ∧ g = { h with vars := s.maps.length } := by
  rw [derive, List.getElem?_append] at hi
  split at hi
  · exact .inl hi
  · obtain ⟨hl, rfl⟩ := List.getElem?_eq_some_iff.mp hi
    rw [List.length_singleton] at hl
    exact .inr ⟨by omega, List.getElem_singleton ..⟩

theorem address?_with_vars (h : Handle) (a : Nat) (k : Namespace) :
    Handle.address? { h with vars := a } k = if k = .vars then some a else h.address? k := by
  cases k <;> rfl

namespace Sound

theorem root (c : Context) : (root c).Sound where
  shared h h' := by
    rw [List.mem_singleton.mp h, List.mem_singleton.mp h']
  purpose := by
    refine ⟨fun a ↦ ([.data, .state, .vars, .params, .query].getD a .data, 0), ?_⟩
    intro i h k a hi ha
    obtain ⟨rfl, rfl⟩ := getElem?_root hi
    cases k <;> cases ha <;> exact ⟨by simp [Heap.root], rfl⟩

theorem put (hs : s.Sound) (a : Nat) (m : Fields Value) : (s.put a m).Sound where
  shared := hs.shared
  purpose := by
    rw [Heap.put, List.length_set]
    exact hs.purpose

/-- The variables of a context that is derived are where no map has been. -/
theorem derive (hs : s.Sound) (hm : h ∈ s.handles) (extra : List (String × Value)) :
    (s.derive h extra).Sound where
  shared {g g'} hg hg' := by
    simp only [Heap.derive, List.mem_append, List.mem_singleton] at hg hg'
    rcases hg with hg | rfl <;> rcases hg' with hg' | rfl
    · exact hs.shared hg hg'
    · rw [hs.shared hg hm]
    · rw [hs.shared hm hg']
    · rfl
  purpose := by
    obtain ⟨purpose, hp⟩ := hs.purpose
    obtain ⟨n, hn⟩ := List.mem_iff_getElem?.mp hm
    refine ⟨Function.update purpose s.maps.length (.vars, s.handles.length), ?_⟩
    intro i g k a hi ha
    rw [Heap.derive, List.length_append, List.length_singleton]
    have old {j : Nat} {f : Handle} (hj : s.handles[j]? = some f) (ha : f.address? k = some a) :
        a < s.maps.length + 1 ∧
          Function.update purpose s.maps.length (.vars, s.handles.length) a =
            (k, if k = .vars then j else 0) := by
      obtain ⟨lt, same⟩ := hp j f k a hj ha
      exact ⟨Nat.lt_succ_of_lt lt, by rw [Function.update_of_ne (Nat.ne_of_lt lt), same]⟩
    rcases getElem?_derive hi with hi | ⟨rfl, rfl⟩
    · exact old hi ha
    · rw [address?_with_vars] at ha
      split at ha
      · next e =>
        obtain rfl := Option.some.inj ha
        exact ⟨Nat.lt_succ_self _, by rw [Function.update_self, e, if_pos rfl]⟩
      · next e => simpa [e] using old hn ha

theorem address_lt (hs : s.Sound) (hm : h ∈ s.handles) (ha : h.address? k = some a) :
    a < s.maps.length := by
  obtain ⟨purpose, hp⟩ := hs.purpose
  obtain ⟨i, hi⟩ := List.mem_iff_getElem?.mp hm
  exact (hp i h k a hi ha).1

/-- Two contexts hold one map just where it is not variables, or they are the same. -/
theorem address_eq_iff (hs : s.Sound) {i j : Nat} {h h' : Handle} {k l : Namespace} {a : Nat}
    (hi : s.handles[i]? = some h) (hj : s.handles[j]? = some h') (ha : h.address? k = some a) :
    h'.address? l = some a ↔ k = l ∧ (k = .vars → i = j) := by
  obtain ⟨purpose, hp⟩ := hs.purpose
  constructor
  · intro hb
    have same := (hp i h k a hi ha).2.symm.trans (hp j h' l a hj hb).2
    obtain ⟨rfl, same⟩ := Prod.mk.inj same
    exact ⟨rfl, fun e ↦ by simpa [e] using same⟩
  · rintro ⟨rfl, same⟩
    by_cases hk : k = .vars
    · obtain rfl := same hk
      rwa [← Option.some.inj (hi.symm.trans hj)]
    · rw [hs.shared (List.mem_of_getElem? hi) (List.mem_of_getElem? hj), address?_with_vars,
        if_neg hk, ha]

/-- What is read behind a write at the address of a part. -/
theorem contents_put (hs : s.Sound) {i j : Nat} {h h' : Handle} (hi : s.handles[i]? = some h)
    (hj : s.handles[j]? = some h') (ha : h.address? k = some a) (m : Fields Value) :
    (s.put a m).contents h' =
      if k = .vars ∧ i ≠ j then s.contents h' else (s.contents h').setEntries m k := by
  refine Context.ext_snapshot fun l ↦ ?_
  cases hb : h'.address? l with
  | none =>
    have ne : l ≠ k := by
      rintro rfl
      simpa [ha, hb] using h.isSome_address? h' l
    rw [snapshot_contents_of_record (s.put a m) s hb]
    split
    · rfl
    · rw [Context.snapshot_setEntries_of_ne _ _ ne]
  | some b =>
    rw [snapshot_contents _ hb, read_put (hs.address_lt (List.mem_of_getElem? hi) ha)]
    by_cases e : a = b
    · obtain ⟨rfl, same⟩ := (hs.address_eq_iff hi hj ha).mp (e ▸ hb)
      rw [if_pos e, if_neg fun both ↦ both.2 (same both.1),
        Context.snapshot_setEntries_self (by simp [entries?_contents, hb]) m rfl]
    · rw [if_neg e, ← snapshot_contents s hb]
      split
      · rfl
      · next own =>
        have ne : l ≠ k := by
          rintro rfl
          refine e (Option.some.inj (Eq.trans ?_ hb))
          exact ((hs.address_eq_iff hi hj ha).mpr ⟨rfl, fun hk ↦ by grind⟩).symm
        rw [Context.snapshot_setEntries_of_ne _ _ ne]

/-- Deriving a context touches no other one. -/
theorem contents_derive {g : Handle} (hs : s.Sound) (hm : g ∈ s.handles)
    (extra : List (String × Value)) : (s.derive h extra).contents g = s.contents g := by
  refine Context.ext_snapshot fun k ↦ ?_
  cases ha : g.address? k with
  | none => exact snapshot_contents_of_record (s.derive h extra) s ha
  | some a =>
    rw [snapshot_contents _ ha, snapshot_contents _ ha, read_derive (hs.address_lt hm ha)]

/-- A context that is derived has a copy of the variables, with more of them, and all else. -/
theorem contents_derived (hs : s.Sound) (hm : h ∈ s.handles) (extra : List (String × Value)) :
    (s.derive h extra).contents { h with vars := s.maps.length } =
      (s.contents h).extend extra := by
  have kept := hs.contents_derive (h := h) hm extra
  calc _ = { (s.derive h extra).contents h with vars := (s.derive h extra).read s.maps.length } :=
        rfl
    _ = _ := by rw [kept, read_derive_self]; rfl

end Sound

end Heap

namespace Family

/-- What is done with the contexts of a family, by their numbers. -/
inductive Operation where
  | derive (i : Nat) (extra : List (String × Value))
  | assign (i : Nat) (k : Namespace) (path : String) (v : Value)

/-- What is done with a context that is not there does nothing. -/
def step (f : Family) : Operation → Option PathError × Family
  | .derive i extra => (none, if i < f.frames.length then f.derive i extra else f)
  | .assign i k path v =>
    if i < f.frames.length then
      let (f, fault) := f.assign i k path v
      (fault, f)
    else (none, f)

variable {f : Family} {i j : Nat} {k : Namespace}

theorem snapshot_context (f : Family) (i j : Nat) (hk : k ≠ .vars) :
    (f.context i).snapshot k = (f.context j).snapshot k := by
  cases k <;> first | rfl | exact absurd rfl hk

theorem context_derive (f : Family) (extra : List (String × Value)) (hj : j < f.frames.length) :
    (f.derive i extra).context j = f.context j := by
  simp only [context, derive, List.getD_eq_getElem?_getD, List.getElem?_append_left hj]

theorem context_derived (f : Family) (i : Nat) (extra : List (String × Value)) :
    (f.derive i extra).context f.frames.length = (f.context i).extend extra := by
  simp [context, derive, Context.extend]

theorem set_vars_context (hi : i < f.frames.length) :
    f.frames.set i (f.context i).vars = f.frames := by
  simp [context, List.getD_eq_getElem?_getD, hi]

/-- What the contexts of a family are once the members of a part are replaced through one. -/
theorem context_replace (hi : i < f.frames.length) (m : Fields Value) (k : Namespace) (j : Nat) :
    context ⟨(f.context i).setEntries m k, f.frames.set i ((f.context i).setEntries m k).vars⟩ j =
      if k = .vars ∧ i ≠ j then f.context j else (f.context j).setEntries m k := by
  cases k with
  | vars =>
    simp only [Context.setEntries, context, List.getD_eq_getElem?_getD, List.getElem?_set, hi]
    by_cases e : i = j <;> simp [e]
  | data | state | params | query | user | tenant =>
    rw [if_neg (by simp)]
    simp only [Context.setEntries, set_vars_context hi]
    rfl

/-- What the contexts of a family are once the variables of one are written. -/
theorem context_assign_vars (hi : i < f.frames.length) (path : String) (v : Value) (j : Nat) :
    (f.assign i .vars path v).1.context j =
      if i = j then ((f.context i).assign .vars path v).1 else f.context j := by
  have written := (f.context i).write_vars v (Path.parse path)
  change context ⟨((f.context i).assign .vars path v).1,
    f.frames.set i ((f.context i).assign .vars path v).1.vars⟩ j = _
  rw [Context.assign, written]
  simp only [context, List.getD_eq_getElem?_getD, List.getElem?_set, hi]
  by_cases e : i = j <;> simp [e]

end Family

namespace Heap

/-- A context by its number. -/
def context (s : Heap) (i : Nat) : Context := ((s.handles[i]?).map s.contents).getD {}

/-- What is done with a context that is not there does nothing. -/
def step (s : Heap) : Family.Operation → Option PathError × Heap
  | .derive i extra =>
    match s.handles[i]? with
    | some h => (none, s.derive h extra)
    | none => (none, s)
  | .assign i k path v =>
    match s.handles[i]? with
    | some h =>
      let (s, fault) := s.write h k v (Path.parse path)
      (fault, s)
    | none => (none, s)

/-- The contexts of a heap are those of a family. -/
structure Agrees (s : Heap) (f : Family) : Prop where
  sound : s.Sound
  length_eq : s.handles.length = f.frames.length
  contents_eq {i : Nat} {h : Handle} : s.handles[i]? = some h → s.contents h = f.context i

namespace Agrees

variable {s : Heap} {f : Family}

theorem root (c : Context) : (root c).Agrees (.root c) where
  sound := .root c
  length_eq := rfl
  contents_eq hi := by
    obtain ⟨rfl, rfl⟩ := getElem?_root hi
    rfl

theorem context_eq (h : s.Agrees f) {i : Nat} (hi : i < s.handles.length) :
    s.context i = f.context i := by
  rw [context, List.getElem?_eq_getElem hi]
  exact h.contents_eq (List.getElem?_eq_getElem hi)

theorem derive (h : s.Agrees f) {i : Nat} {g : Handle} (hi : s.handles[i]? = some g)
    (extra : List (String × Value)) : (s.derive g extra).Agrees (f.derive i extra) where
  sound := h.sound.derive (List.mem_of_getElem? hi) extra
  length_eq := by simp [Heap.derive, Family.derive, h.length_eq]
  contents_eq {j g'} hj := by
    rcases getElem?_derive hj with hj | ⟨rfl, rfl⟩
    · have lt : j < f.frames.length := h.length_eq ▸ (List.getElem?_eq_some_iff.mp hj).1
      rw [h.sound.contents_derive (List.mem_of_getElem? hj), h.contents_eq hj,
        f.context_derive extra lt]
    · rw [h.sound.contents_derived (List.mem_of_getElem? hi), h.contents_eq hi, h.length_eq,
        f.context_derived]

theorem assign (h : s.Agrees f) {i : Nat} {g : Handle} (hi : s.handles[i]? = some g)
    (k : Namespace) (path : String) (v : Value) :
    (s.write g k v (Path.parse path)).1.Agrees (f.assign i k path v).1 ∧
      (s.write g k v (Path.parse path)).2 = (f.assign i k path v).2 := by
  have lt : i < f.frames.length := h.length_eq ▸ (List.getElem?_eq_some_iff.mp hi).1
  have replaced : (f.assign i k path v).1 =
      ⟨((f.context i).write k v (Path.parse path)).1,
        f.frames.set i ((f.context i).write k v (Path.parse path)).1.vars⟩ := rfl
  obtain ⟨fault, written⟩ := s.write_eq g k v (Path.parse path)
  rw [h.contents_eq hi] at fault written
  refine ⟨?_, fault⟩
  rw [replaced]
  rcases written with ⟨same, same'⟩ | ⟨a, m, ha, put, put'⟩
  · rw [same, same', Family.set_vars_context lt]
    exact ⟨h.sound, h.length_eq, h.contents_eq⟩
  · rw [put, put']
    refine ⟨h.sound.put a m, h.length_eq.trans (List.length_set ..).symm, fun {j g'} hj ↦ ?_⟩
    rw [h.sound.contents_put hi hj ha, h.contents_eq hj, Family.context_replace lt]

/-- Whatever is done, the contexts of a heap stay those of a family. -/
theorem step (h : s.Agrees f) (op : Family.Operation) :
    (s.step op).2.Agrees (f.step op).2 ∧ (s.step op).1 = (f.step op).1 := by
  cases op with
  | derive i extra =>
    simp only [Heap.step, Family.step]
    cases hi : s.handles[i]? with
    | some g =>
      rw [if_pos (h.length_eq ▸ (List.getElem?_eq_some_iff.mp hi).1)]
      exact ⟨h.derive hi extra, rfl⟩
    | none =>
      rw [if_neg (Nat.not_lt.mpr (h.length_eq ▸ List.getElem?_eq_none_iff.mp hi))]
      exact ⟨h, rfl⟩
  | assign i k path v =>
    simp only [Heap.step, Family.step]
    cases hi : s.handles[i]? with
    | some g =>
      rw [if_pos (h.length_eq ▸ (List.getElem?_eq_some_iff.mp hi).1)]
      exact h.assign hi k path v
    | none =>
      rw [if_neg (Nat.not_lt.mpr (h.length_eq ▸ List.getElem?_eq_none_iff.mp hi))]
      exact ⟨h, rfl⟩

theorem replies (h : s.Agrees f) (ops : List Family.Operation) :
    (replies Heap.step s ops).2.Agrees (replies Family.step f ops).2 ∧
      (replies Heap.step s ops).1 = (replies Family.step f ops).1 := by
  induction ops generalizing s f with
  | nil => exact ⟨h, rfl⟩
  | cons op r ih =>
    obtain ⟨now, same⟩ := h.step op
    obtain ⟨later, rest⟩ := ih now
    exact ⟨later, congrArg₂ List.cons same rest⟩

end Agrees

/-- Contexts that are derived from one another share all but their variables.  Whatever was done
with them, each other part reads the same through all of them; one that is derived starts with the
variables of the context that it is derived from and with more of them, of which the last of a name
counts, and no other context is touched; and a write to the variables of one touches no other
context and no other part.  The contexts of a family are the same, and writes fail as there. -/
theorem contexts_share_all_but_vars (c : Context) (ops : List Family.Operation) :
    let s := (replies step (root c) ops).2
    let f := (replies Family.step (.root c) ops).2
    (∀ i j, i < s.handles.length → j < s.handles.length → ∀ k, k ≠ .vars →
      (s.context i).snapshot k = (s.context j).snapshot k ∧
        ∀ path, (s.context i).lookup k path = (s.context j).lookup k path) ∧
      (∀ i extra, i < s.handles.length →
        let t := (s.step (.derive i extra)).2
        t.handles.length = s.handles.length + 1 ∧
          (∀ key, (t.context s.handles.length).vars.get? key =
            (extra.reverse.lookup key).or ((s.context i).vars.get? key)) ∧
          ∀ j, j < s.handles.length → t.context j = s.context j) ∧
      (∀ i path v, i < s.handles.length →
        let t := (s.step (.assign i .vars path v)).2
        t.context i = ((s.context i).assign .vars path v).1 ∧
          (∀ k, k ≠ .vars → (t.context i).snapshot k = (s.context i).snapshot k) ∧
          ∀ j, j < s.handles.length → j ≠ i → t.context j = s.context j) ∧
      (replies step (root c) ops).1 = (replies Family.step (.root c) ops).1 ∧
      s.handles.length = f.frames.length ∧
      ∀ i, i < s.handles.length → s.context i = f.context i := by
  intro s f
  obtain ⟨agrees, same⟩ : s.Agrees f ∧ _ := (Agrees.root c).replies ops
  refine ⟨fun i j hi hj k hk ↦ ?_, fun i extra hi ↦ ?_, fun i path v hi ↦ ?_, same,
    agrees.length_eq, fun i ↦ agrees.context_eq⟩
  · rw [agrees.context_eq hi, agrees.context_eq hj]
    have alike := f.snapshot_context i j hk
    exact ⟨alike, fun path ↦ by simp only [Context.lookup, Context.resolve_eq_getD, alike]⟩
  · have lt : i < f.frames.length := agrees.length_eq ▸ hi
    intro t
    have derived : t.Agrees (f.derive i extra) := by
      have := (agrees.step (.derive i extra)).1
      rwa [Family.step, if_pos lt] at this
    have longer : t.handles.length = s.handles.length + 1 := by
      rw [derived.length_eq, agrees.length_eq]
      exact List.length_append
    refine ⟨longer, fun key ↦ ?_, fun j hj ↦ ?_⟩
    · rw [derived.context_eq (by omega), agrees.context_eq hi, agrees.length_eq,
        f.context_derived i extra]
      exact Fields.get?_overlay key extra _
    · rw [derived.context_eq (by omega), agrees.context_eq hj,
        f.context_derive extra (agrees.length_eq ▸ hj)]
  · have lt : i < f.frames.length := agrees.length_eq ▸ hi
    intro t
    have written : t.Agrees (f.assign i .vars path v).1 := by
      have := (agrees.step (.assign i .vars path v)).1
      rwa [Family.step, if_pos lt] at this
    have as_long : t.handles.length = s.handles.length := by
      rw [written.length_eq, agrees.length_eq]
      exact List.length_set
    have contexts {j : Nat} (hj : j < s.handles.length) : t.context j =
        if i = j then ((s.context i).assign .vars path v).1 else s.context j := by
      rw [written.context_eq (as_long ▸ hj), Family.context_assign_vars lt,
        agrees.context_eq hi, agrees.context_eq hj]
    refine ⟨by rw [contexts hi, if_pos rfl], fun k hk ↦ ?_, fun j hj ne ↦ ?_⟩
    · rw [contexts hi, if_pos rfl, Context.assign, Context.write_vars]
      cases k <;> first | rfl | exact absurd rfl hk
    · rw [contexts hj, if_neg (Ne.symm ne)]

/-- Two contexts that are derived from one root, and what is done with them then. -/
theorem contexts_share_count :
    let c : Context := { vars := [("theme", .str "dark")] }
    let ops : List Family.Operation :=
      [.derive 0 [("item", .str "a")], .derive 0 [("item", .str "b")],
        .assign 1 .state "count" (.bool true)]
    let s := (replies step (root c) ops).2
    let more := [("item", .str "c"), ("item", .str "d")]
    s.handles.length = 3 ∧ (s.context 1).snapshot .state = .obj [("count", .bool true)] ∧
      (s.context 1).snapshot .state = (s.context 2).snapshot .state ∧
      ((s.step (.derive 1 more)).2.context s.handles.length).vars.get? "item" = some (.str "d") ∧
      (s.step (.assign 1 .vars "theme" (.str "light"))).2.context 2 = s.context 2 := by
  intro c ops s more
  have three : s.handles.length = 3 := rfl
  have one_lt : 1 < s.handles.length := by omega
  have two_lt : 2 < s.handles.length := by omega
  obtain ⟨shared, derived, written, -⟩ := contexts_share_all_but_vars c ops
  have state := (shared 1 2 one_lt two_lt .state (by decide)).1
  have item := (derived 1 more one_lt).2.1 "item"
  have others := (written 1 "theme" (.str "light") one_lt).2.2 2 two_lt (by decide)
  exact ⟨three, rfl, state, item.trans rfl, others⟩

end Heap

end LivePage
