import Mathlib.Data.List.Forall2
import LivePage.Proofs.Json.Codec

/-!
# Where fields come from

A record is an object of its fields or the list of them in their order.  Each field of a record that
was read comes from its member, and has its default where there is no such member.
-/

namespace LivePage.Fields

variable {α : Type} {k : String}

theorem get?_append (m n : Fields α) : get? k (m ++ n) = (m.get? k).or (n.get? k) := by
  induction m with
  | nil => rfl
  | cons head r ih =>
    obtain ⟨l, v⟩ := head
    rw [List.cons_append, get?, get?, ih]
    split <;> rfl

theorem get?_optional (l : String) (v? : Option α) :
    (optional l v?).get? k = if l = k then v? else none := by
  cases v? with
  | none => simp [optional]
  | some v => rfl

theorem get?_map {β : Type} (f : α → β) (m : Fields α) :
    get? k (m.map fun x ↦ (x.1, f x.2)) = (m.get? k).map f := by
  induction m with
  | nil => rfl
  | cons head r ih =>
    obtain ⟨l, v⟩ := head
    rw [List.map_cons, get?, get?, ih]
    split <;> rfl

theorem get?_filter (p : String → Bool) (hp : p k = true) (m : Fields α) :
    get? k (m.filter (p ·.1)) = m.get? k := by
  induction m with
  | nil => rfl
  | cons head r ih =>
    obtain ⟨l, v⟩ := head
    rw [List.filter_cons]
    split
    · rw [get?, get?, ih]
    · next dropped =>
      have other : l ≠ k := by
        rintro rfl
        exact dropped hp
      rw [get?, if_neg other, ih]

end LivePage.Fields

namespace LivePage.Json

namespace Tree

/-- The members of an object with a key of use. -/
def keyed : List (Except Fault String × Tree) → Fields Tree
  | [] => []
  | (.ok k, t) :: r => (k, t) :: keyed r
  | (.error _, _) :: r => keyed r

/-- The members of a record whose fields have some names, in this order. -/
def entries (names : List String) : Tree → Fields Tree
  | .obj ms _ => (keyed ms).filter fun m ↦ names.contains m.1
  | .arr items _ => names.zip items
  | _ => []

/-- A member of a record; one that is not there is null. -/
def member (names : List String) (k : String) (t : Tree) : Tree :=
  ((t.entries names).get? k).getD .null

/-- What is named in an object; of what has the same name the last one counts. -/
def named (k : String) : Tree → Tree
  | .obj ms _ => ((Fields.ofList (keyed ms)).get? k).getD .null
  | _ => .null

def items : Tree → List Tree
  | .arr items _ => items
  | _ => []

theorem keyed_treesOfMembers (ms : Fields Value) :
    keyed (treesOfMembers ms) = ms.map fun m ↦ (m.1, .ofValue m.2) := by
  induction ms with
  | nil => rfl
  | cons m r ih => rw [treesOfMembers, keyed, ih, List.map_cons]

theorem get?_entries_obj {names : List String} {k : String} (hk : k ∈ names)
    (ms : List (Except Fault String × Tree)) (broken : Option Fault) :
    ((Tree.obj ms broken).entries names).get? k = (keyed ms).get? k := by
  rw [entries, Fields.get?_filter names.contains (List.contains_iff_mem.mpr hk)]

/-- The first field is found whatever other fields there are. -/
theorem get?_entries_cons (names : List String) (k : String) (t : Tree) :
    (t.entries (k :: names)).get? k = (t.entries [k]).get? k := by
  cases t with
  | obj ms broken => rw [get?_entries_obj (by simp), get?_entries_obj (by simp)]
  | arr items broken =>
    cases items with
    | nil => rfl
    | cons u r =>
      rw [entries, entries, List.zip_cons_cons, List.zip_cons_cons, Fields.get?, Fields.get?]
      rw [if_pos rfl, if_pos rfl]
  | _ => rfl

theorem member_ofValue {names : List String} {k : String} (hk : k ∈ names) (ms : Fields Value) :
    (Tree.ofValue (.obj ms)).member names k = ((ms.get? k).map .ofValue).getD .null := by
  rw [member, Tree.ofValue, get?_entries_obj hk, keyed_treesOfMembers, Fields.get?_map]

theorem items_ofValue (vs : List Value) : (Tree.ofValue (.arr vs)).items = vs.map .ofValue := by
  rw [Tree.ofValue, items, treesOfItems_eq_map]

end Tree

namespace Decode

/-- Where a field comes from: from a member, or there is none and it has its default. -/
inductive Source {α : Type} (decode : Tree → Except DecodeError α) (default : α) :
    Option Tree → α → Prop where
  | read {t : Tree} {a : α} (h : decode t = .ok a) : Source decode default (some t) a
  | missing : Source decode default none default

variable {σ α : Type} {spec : Spec σ} {surplus : DecodeError} {s s' : σ} {k : String}
  {seen seen' : List String} {es : Fields Tree} {P : (String → Option Tree) → σ → Prop}

theorem get?_concat (hk : k ∉ es.keys) (t : Tree) :
    (fun l ↦ (es ++ [(k, t)]).get? l) = Function.update (fun l ↦ es.get? l) k (some t) := by
  funext l
  rw [Fields.get?_append, Fields.get?]
  by_cases here : l = k
  · rw [here, Fields.get?_eq_none_iff.mpr hk, if_pos rfl, Function.update_self]
    rfl
  · rw [if_neg (Ne.symm here), Function.update_of_ne here]
    exact Option.or_none

/-- Fields that a record has read so far, and the names of them. -/
structure Read (P : (String → Option Tree) → σ → Prop) (es : Fields Tree) (s : σ)
    (seen : List String) : Prop where
  holds : P (fun k ↦ es.get? k) s
  mem_iff : ∀ k, k ∈ seen ↔ k ∈ es.keys

/-- A field that is written for the first time is read from its member. -/
theorem Read.write
    (hw : ∀ m, ∀ k ∈ spec.names, ∀ t s s', P m s → spec.write k t s = .ok s' →
      P (Function.update m k (some t)) s')
    (read : Read P es s seen) (hk : k ∈ spec.names) (first : k ∉ seen) {t : Tree}
    (written : spec.write k t s = .ok s') : Read P (es ++ [(k, t)]) s' (k :: seen) where
  holds := by
    rw [get?_concat ((read.mem_iff k).not.mp first)]
    exact hw _ k hk t s s' read.holds written
  mem_iff l := by
    rw [List.mem_cons, read.mem_iff l, Fields.keys, Fields.keys, List.map_append, List.mem_append,
      List.map_singleton, List.mem_singleton, or_comm]

section Sources

variable
  (hw : ∀ m, ∀ k ∈ spec.names, ∀ t s s', P m s → spec.write k t s = .ok s' →
    P (Function.update m k (some t)) s')

include hw

/-- Reading members adds those that the record knows to what was read before. -/
theorem read_of_members {ms : List (Except Fault String × Tree)} (read : Read P es s seen)
    (h : members spec ms seen s = .ok (s', seen')) :
    Read P (es ++ (Tree.keyed ms).filter fun m ↦ spec.names.contains m.1) s' seen' := by
  induction ms generalizing es seen s with
  | nil =>
    cases h
    rwa [Tree.keyed, List.filter_nil, List.append_nil]
  | cons m r ih =>
    obtain ⟨l | l, t⟩ := m
    · cases h
    · rw [members] at h
      rw [Tree.keyed]
      split at h
      · next known =>
        split at h
        · cases h
        · next first =>
          obtain ⟨s₁, written, h⟩ := bind_eq_ok_iff.mp h
          have next := read.write hw (List.contains_iff_mem.mp known)
            (List.contains_iff_mem.not.mp first) written
          have all := ih next h
          rw [List.append_assoc, List.singleton_append] at all
          rwa [List.filter_cons, if_pos known]
      · next unknown =>
        obtain ⟨_, -, h⟩ := bind_eq_ok_iff.mp h
        rw [List.filter_cons, if_neg unknown]
        exact ih read h

/-- Reading a list adds its items under the names of the fields in their order. -/
theorem read_of_positions {names : List String} {ts : List Tree} (read : Read P es s seen)
    (known : names ⊆ spec.names) (once : names.Nodup) (unseen : ∀ k ∈ names, k ∉ seen)
    (h : positions spec surplus names ts seen s = .ok (s', seen')) :
    Read P (es ++ names.zip ts) s' seen' := by
  induction ts generalizing names es seen s with
  | nil => cases names <;> cases h <;> rwa [List.zip_nil_right, List.append_nil]
  | cons t r ih =>
    cases names with
    | nil => cases h
    | cons l names =>
      obtain ⟨s₁, written, h⟩ := bind_eq_ok_iff.mp h
      obtain ⟨known_l, known⟩ := List.cons_subset.mp known
      obtain ⟨fresh, once⟩ := List.nodup_cons.mp once
      obtain ⟨unseen_l, unseen⟩ := List.forall_mem_cons.mp unseen
      have unseen' : ∀ k ∈ names, k ∉ l :: seen := by
        intro k hk later
        refine unseen k hk ((List.mem_cons.mp later).resolve_left ?_)
        rintro rfl
        exact fresh hk
      have all := ih (read.write hw known_l unseen_l written) known once unseen' h
      rwa [List.append_assoc, List.singleton_append] at all

/-- What holds of the defaults of a record, which come from nothing, and is kept as its fields are
written holds of each record that is read, with the members that its fields come from; of these the
required ones are there. -/
theorem sources_of_record (hs : P (fun _ ↦ none) s) (once : spec.names.Nodup) {t : Tree}
    (h : record spec surplus s t = .ok s') :
    P (fun k ↦ (t.entries spec.names).get? k) s' ∧
      ∀ k ∈ spec.required, (t.entries spec.names).get? k ≠ none := by
  have start : Read P [] s [] := ⟨hs, fun _ ↦ Iff.rfl⟩
  have finish {es : Fields Tree} {read : σ × List String} (all : Read P es read.1 read.2)
      (h : complete spec.required read = .ok s') :
      P (fun k ↦ es.get? k) s' ∧ ∀ k ∈ spec.required, es.get? k ≠ none := by
    refine ⟨eq_of_complete h ▸ all.holds, fun k needed missing ↦ ?_⟩
    rw [complete] at h
    split at h
    · next present =>
      have seen := List.contains_iff_mem.mp (List.all_eq_true.mp present k needed)
      exact Fields.get?_eq_none_iff.mp missing ((all.mem_iff k).mp seen)
    · cases h
  unfold record at h
  split at h
  · obtain ⟨read, hread, h⟩ := bind_eq_ok_iff.mp h
    obtain ⟨_, -, h⟩ := bind_eq_ok_iff.mp h
    exact finish (read_of_members hw start hread) h
  · obtain ⟨read, hread, h⟩ := bind_eq_ok_iff.mp h
    obtain ⟨_, -, h⟩ := bind_eq_ok_iff.mp h
    refine finish (read_of_positions hw start (List.Subset.refl _) once ?_ hread) h
    exact fun _ _ ↦ List.not_mem_nil
  · cases h

end Sources

/-! ## Lists and objects -/

theorem forall₂_of_mapM {β ε : Type} {f : α → Except ε β} {xs : List α} {ys : List β}
    (h : xs.mapM f = .ok ys) : List.Forall₂ (fun x y ↦ f x = .ok y) xs ys := by
  induction xs generalizing ys with
  | nil =>
    cases h
    exact .nil
  | cons x r ih =>
    rw [List.mapM_cons] at h
    obtain ⟨y, hy, h⟩ := bind_eq_ok_iff.mp h
    obtain ⟨ys, hys, h⟩ := bind_eq_ok_iff.mp h
    cases h
    exact .cons hy (ih hys)

variable {decode : Tree → Except DecodeError α} {t : Tree}

/-- Each item of a list comes from one of the document. -/
theorem forall₂_of_list {xs : List α} (h : list decode t = .ok xs) :
    List.Forall₂ (fun u x ↦ decode u = .ok x) t.items xs := by
  unfold list at h
  split at h
  · obtain ⟨ys, hys, h⟩ := bind_eq_ok_iff.mp h
    obtain ⟨_, -, h⟩ := bind_eq_ok_iff.mp h
    cases h
    exact forall₂_of_mapM hys
  · cases h

theorem Source.forall₂ {t? : Option Tree} {xs : List α} (h : Source (list decode) [] t? xs) :
    List.Forall₂ (fun u x ↦ decode u = .ok x) (t?.getD .null).items xs := by
  cases h with
  | read h => exact forall₂_of_list h
  | missing => exact .nil

theorem forall₂_keyed {ms : List (Except Fault String × Tree)} {xs : List (String × α)}
    (h : (ms.mapM fun m ↦ do return (← key m.1, ← decode m.2)) = .ok xs) :
    List.Forall₂ (fun m x ↦ m.1 = x.1 ∧ decode m.2 = .ok x.2) (Tree.keyed ms) xs := by
  induction ms generalizing xs with
  | nil =>
    cases h
    exact .nil
  | cons m r ih =>
    obtain ⟨l | l, t⟩ := m
    · cases h
    · rw [List.mapM_cons] at h
      obtain ⟨y, hy, h⟩ := bind_eq_ok_iff.mp h
      obtain ⟨ys, hys, h⟩ := bind_eq_ok_iff.mp h
      obtain ⟨_, hl, hy⟩ := bind_eq_ok_iff.mp hy
      obtain ⟨a, ha, hy⟩ := bind_eq_ok_iff.mp hy
      cases hl
      cases hy
      cases h
      exact .cons ⟨rfl, ha⟩ (ih hys)

theorem lookup_of_forall₂ {es : Fields Tree} {xs : List (String × α)}
    (h : List.Forall₂ (fun m x ↦ m.1 = x.1 ∧ decode m.2 = .ok x.2) es xs) (k : String) :
    Option.Rel (fun t x ↦ decode t = .ok x) (es.lookup k) (xs.lookup k) := by
  induction h with
  | nil => exact .none
  | @cons m x es xs hm h ih =>
    obtain ⟨l, t⟩ := m
    obtain ⟨l', a⟩ := x
    obtain ⟨rfl, ha⟩ := hm
    rw [List.lookup_cons, List.lookup_cons]
    cases k == l with
    | true => exact .some ha
    | false => exact ih

/-- What is named in an object comes from the last member of that name. -/
theorem rel_of_fields {m : Fields α} (h : fields decode t = .ok m) (k : String) :
    (m.get? k = none ∧ t.named k = .null) ∨
      ∃ a, m.get? k = some a ∧ decode (t.named k) = .ok a := by
  unfold fields at h
  split at h
  · obtain ⟨xs, hxs, h⟩ := bind_eq_ok_iff.mp h
    obtain ⟨_, -, h⟩ := bind_eq_ok_iff.mp h
    cases h
    have last {β : Type} (ys : List (String × β)) :
        (Fields.ofList ys).get? k = ys.reverse.lookup k := by
      rw [Fields.ofList, Fields.get?_overlay, Fields.get?_nil, Option.or_none]
    rw [Tree.named, last, last]
    have found := lookup_of_forall₂ (List.forall₂_reverse_iff.mpr (forall₂_keyed hxs)) k
    generalize (Tree.keyed _).reverse.lookup k = t?, xs.reverse.lookup k = a? at found ⊢
    cases found with
    | none => exact .inl ⟨rfl, rfl⟩
    | some ha => exact .inr ⟨_, rfl, ha⟩
  · cases h

end Decode

end LivePage.Json
