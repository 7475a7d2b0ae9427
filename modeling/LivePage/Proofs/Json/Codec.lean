import LivePage.Json.Decode
import LivePage.Json.Writer
import LivePage.Proofs.Fields
import LivePage.Proofs.Outcome

/-!
# Data that is read again

Data that was read from one document, and is written as another, is read from that one again.
Lists, objects and records are read again where all that they are made of is.
-/

namespace LivePage.Json

/-! ## Values -/

mutual

/-- The document of a value holds this value, with its members in order. -/
theorem value_ofValue : (v : Value) → (Tree.ofValue v).value = .ok (sorted v)
  | .null | .bool _ | .num _ | .str _ => rfl
  | .arr items => by
    rw [Tree.ofValue, Tree.value, itemValues_treesOfItems, sorted]
    rfl
  | .obj members => by
    rw [Tree.ofValue, Tree.value, memberValues_treesOfMembers, sorted]
    rfl

theorem itemValues_treesOfItems : (vs : List Value) →
    itemValues (treesOfItems vs) = .ok (sortedItems vs)
  | [] => rfl
  | v :: r => by
    rw [treesOfItems, itemValues, value_ofValue v, itemValues_treesOfItems r, sortedItems]
    rfl

theorem memberValues_treesOfMembers : (ms : List (String × Value)) →
    memberValues (treesOfMembers ms) = .ok (sortedMembers ms)
  | [] => rfl
  | (k, v) :: r => by
    rw [treesOfMembers, memberValues, value_ofValue v, memberValues_treesOfMembers r, sortedMembers]
    rfl

end

theorem sortedMembers_eq_self {ms : List (String × Value)} (h : ∀ m ∈ ms, sorted m.2 = m.2) :
    sortedMembers ms = ms := by
  induction ms with
  | nil => rfl
  | cons m r ih =>
    obtain ⟨k, v⟩ := m
    obtain ⟨hv, hr⟩ := List.forall_mem_cons.mp h
    rw [sortedMembers, hv, ih hr]

mutual

/-- Each object of a value that was read has its members in order. -/
theorem sorted_of_value : (t : Tree) → {v : Value} → t.value = .ok v → sorted v = v
  | .null, _, h | .bool _, _, h | .num _, _, h | .str _, _, h => by
    cases h
    rfl
  | .arr items broken, _, h => by
    rw [Tree.value] at h
    obtain ⟨vs, hvs, h⟩ := bind_eq_ok_iff.mp h
    cases broken with
    | none =>
      cases h
      rw [sorted, sortedItems_of_itemValues items hvs]
    | some f => cases h
  | .obj members broken, _, h => by
    rw [Tree.value] at h
    obtain ⟨ms, hms, h⟩ := bind_eq_ok_iff.mp h
    cases broken with
    | none =>
      cases h
      have hm : ∀ m ∈ Fields.ofList ms, sorted m.2 = m.2 :=
        fun m hm ↦ sorted_of_memberValues members hms m (Fields.mem_of_mem_ofList hm)
      rw [Value.object, sorted, sortedMembers_eq_self hm, Value.object,
        Fields.ofList_of_sorted (Fields.sorted_ofList ms)]
    | some f => cases h
  | .fault _, _, h | .cut _, _, h | .unusable _, _, h => by cases h

theorem sortedItems_of_itemValues : (ts : List Tree) → {vs : List Value} →
    itemValues ts = .ok vs → sortedItems vs = vs
  | [], _, h => by
    cases h
    rfl
  | t :: r, _, h => by
    rw [itemValues] at h
    obtain ⟨v, hv, h⟩ := bind_eq_ok_iff.mp h
    obtain ⟨vs, hvs, h⟩ := bind_eq_ok_iff.mp h
    cases h
    rw [sortedItems, sorted_of_value t hv, sortedItems_of_itemValues r hvs]

theorem sorted_of_memberValues : (ms : List (Except Fault String × Tree)) →
    {vs : List (String × Value)} → memberValues ms = .ok vs → ∀ m ∈ vs, sorted m.2 = m.2
  | [], _, h => by
    cases h
    exact List.forall_mem_nil _
  | (k, t) :: r, _, h => by
    rw [memberValues] at h
    obtain ⟨k, -, h⟩ := bind_eq_ok_iff.mp h
    obtain ⟨v, hv, h⟩ := bind_eq_ok_iff.mp h
    obtain ⟨vs, hvs, h⟩ := bind_eq_ok_iff.mp h
    cases h
    exact List.forall_mem_cons.mpr ⟨sorted_of_value t hv, sorted_of_memberValues r hvs⟩

end

theorem eq_null_of_value {t : Tree} (h : t.value = .ok .null) : t = .null := by
  cases t with
  | null => rfl
  | arr items broken =>
    rw [Tree.value] at h
    obtain ⟨vs, -, h⟩ := bind_eq_ok_iff.mp h
    cases broken <;> cases h
  | obj members broken =>
    rw [Tree.value] at h
    obtain ⟨ms, -, h⟩ := bind_eq_ok_iff.mp h
    cases broken <;> cases h
  | _ => cases h

theorem treesOfItems_eq_map (vs : List Value) : treesOfItems vs = vs.map .ofValue := by
  induction vs with
  | nil => rfl
  | cons v r ih => rw [treesOfItems, ih, List.map_cons]

theorem treesOfMembers_eq_map (ms : List (String × Value)) :
    treesOfMembers ms = ms.map fun m ↦ (.ok m.1, .ofValue m.2) := by
  induction ms with
  | nil => rfl
  | cons m r ih => rw [treesOfMembers, ih, List.map_cons]

end LivePage.Json

namespace LivePage

/-- Where each step gives back what its item was made from, so do all. -/
theorem mapM_map_eq_ok {α β ε : Type} {f : α → β} {g : β → Except ε α} {xs : List α}
    (h : ∀ x ∈ xs, g (f x) = .ok x) : (xs.map f).mapM g = .ok xs := by
  induction xs with
  | nil => rfl
  | cons x r ih =>
    obtain ⟨hx, hr⟩ := List.forall_mem_cons.mp h
    rw [List.map_cons, List.mapM_cons, hx, ih hr]
    rfl

theorem exists_of_mapM_eq_ok {α β ε : Type} {g : β → Except ε α} {ys : List β} {xs : List α}
    (h : ys.mapM g = .ok xs) : ∀ x ∈ xs, ∃ y, g y = .ok x := by
  induction ys generalizing xs with
  | nil =>
    cases h
    exact List.forall_mem_nil _
  | cons y r ih =>
    rw [List.mapM_cons] at h
    obtain ⟨x, hx, h⟩ := bind_eq_ok_iff.mp h
    obtain ⟨xs, hxs, h⟩ := bind_eq_ok_iff.mp h
    cases h
    exact List.forall_mem_cons.mpr ⟨⟨y, hx⟩, ih hxs⟩

theorem exists_eq_ok_of_mapM {α β ε : Type} {g : β → Except ε α} {ys : List β} {xs : List α}
    (h : ys.mapM g = .ok xs) : ∀ y ∈ ys, ∃ x, g y = .ok x := by
  induction ys generalizing xs with
  | nil => exact List.forall_mem_nil _
  | cons y r ih =>
    rw [List.mapM_cons] at h
    obtain ⟨x, hx, h⟩ := bind_eq_ok_iff.mp h
    obtain ⟨xs, hxs, -⟩ := bind_eq_ok_iff.mp h
    exact List.forall_mem_cons.mpr ⟨⟨x, hx⟩, ih hxs⟩

end LivePage

namespace LivePage.Json.Decode

variable {α σ : Type}

/-- What a decoder reads from some document. -/
def Yields (decode : Tree → Except DecodeError α) (a : α) : Prop := ∃ t, decode t = .ok a

variable {decode : Tree → Except DecodeError α} {encode : α → Value} {a : α} {v : Value}
  {spec : Spec σ} {s s' : σ}

theorem value_eq_ok_iff {t : Tree} : value t = .ok v ↔ t.value = .ok v := mapError_eq_ok_iff

namespace Yields

theorem none : Yields (option decode) none := ⟨.null, rfl⟩

theorem of_option (h : Yields (option decode) (some a)) : Yields decode a := by
  obtain ⟨t, h⟩ := h
  unfold option at h
  split at h
  · cases h
  · obtain ⟨b, hb, h⟩ := map_eq_ok_iff.mp h
    cases h
    exact ⟨t, hb⟩

theorem nil : Yields (list decode) [] := ⟨.arr [] .none, rfl⟩

theorem of_list {xs : List α} (h : Yields (list decode) xs) : ∀ x ∈ xs, Yields decode x := by
  obtain ⟨t, h⟩ := h
  unfold list at h
  split at h
  · obtain ⟨ys, hys, h⟩ := bind_eq_ok_iff.mp h
    obtain ⟨_, -, h⟩ := bind_eq_ok_iff.mp h
    cases h
    exact exists_of_mapM_eq_ok hys
  · cases h

theorem empty : Yields (fields decode) [] := ⟨.obj [] .none, rfl⟩

theorem of_fields {m : Fields α} (h : Yields (fields decode) m) :
    m.Sorted ∧ ∀ x ∈ m, Yields decode x.2 := by
  obtain ⟨t, h⟩ := h
  unfold fields at h
  split at h
  · obtain ⟨xs, hxs, h⟩ := bind_eq_ok_iff.mp h
    obtain ⟨_, -, h⟩ := bind_eq_ok_iff.mp h
    cases h
    refine ⟨Fields.sorted_ofList xs, fun x hx ↦ ?_⟩
    obtain ⟨⟨k, t⟩, h⟩ := exists_of_mapM_eq_ok hxs x (Fields.mem_of_mem_ofList hx)
    obtain ⟨_, -, h⟩ := bind_eq_ok_iff.mp h
    obtain ⟨b, hb, h⟩ := bind_eq_ok_iff.mp h
    cases h
    exact ⟨t, hb⟩
  · cases h

/-- A value that was read is read again. -/
theorem value (h : Yields value v) : Decode.value (.ofValue v) = .ok v := by
  obtain ⟨t, h⟩ := h
  rw [value_eq_ok_iff, value_ofValue, sorted_of_value t (value_eq_ok_iff.mp h)]

/-- An optional part that was read is read again where what it holds is. -/
theorem option_again {decode' : Tree → Except DecodeError α} {a? : Option α}
    (h : Yields (option decode) a?)
    (again : ∀ a, Yields decode a → encode a ≠ .null ∧ decode' (.ofValue (encode a)) = .ok a) :
    ∀ a, a? = some a → encode a ≠ .null ∧ decode' (.ofValue (encode a)) = .ok a := by
  rintro a rfl
  exact again a h.of_option

theorem ne_null (h : Yields (option Decode.value) (some v)) : v ≠ .null := by
  obtain ⟨t, h⟩ := h
  rintro rfl
  unfold option at h
  split at h
  · cases h
  · next filled =>
    obtain ⟨w, hw, h⟩ := map_eq_ok_iff.mp h
    cases h
    exact filled (eq_null_of_value (value_eq_ok_iff.mp hw))

/-- An optional value is not null. -/
theorem value? {v? : Option Value} (h : Yields (option Decode.value) v?) :
    ∀ v, v? = some v → v ≠ .null ∧ Decode.value (.ofValue v) = .ok v := by
  rintro v rfl
  exact ⟨h.ne_null, h.of_option.value⟩

end Yields

/-! ## Fields that are read again -/

theorem nat_ofValue (n : Nat) : nat (.ofValue (.nat n)) = .ok n := by
  rw [Value.nat, Value.int, Tree.ofValue, nat, if_pos (Int.natCast_nonneg n), Int.toNat_natCast]

theorem option_ofValue (h : v ≠ .null) :
    option decode (.ofValue v) = (decode (.ofValue v)).map some := by
  cases v with
  | null => exact absurd rfl h
  | _ => rfl

theorem option_map {β : Type} (f : α → β) (t : Tree) :
    option (fun t ↦ (decode t).map f) t = (option decode t).map (Option.map f) := by
  unfold option
  split
  · rfl
  · dsimp only
    cases decode t with
    | error e => rfl
    | ok a => rfl

theorem list_ofValue {xs : List α} (h : ∀ x ∈ xs, decode (.ofValue (encode x)) = .ok x) :
    list decode (.ofValue (.arr (xs.map encode))) = .ok xs := by
  rw [Tree.ofValue, treesOfItems_eq_map, list, List.map_map,
    mapM_map_eq_ok (f := Tree.ofValue ∘ encode) h]
  rfl

theorem fields_ofValue {m : Fields α} (hm : m.Sorted)
    (h : ∀ x ∈ m, decode (.ofValue (encode x.2)) = .ok x.2) :
    fields decode (.ofValue (.obj (m.map fun x ↦ (x.1, encode x.2)))) = .ok m := by
  rw [Tree.ofValue, treesOfMembers_eq_map, fields, List.map_map, mapM_map_eq_ok, ok_bind]
  · rw [Fields.ofList_of_sorted hm]
    rfl
  · intro x hx
    simp only [Function.comp, key, Except.mapError, ok_bind, h x hx]
    rfl

theorem map_value {m : Fields Value} : (m.map fun x ↦ (x.1, id x.2)) = m := List.map_id m

theorem fields_value {m : Fields Value} (h : Yields (fields value) m) :
    fields value (.ofValue (.obj m)) = .ok m := by
  obtain ⟨sorted, read⟩ := h.of_fields
  have same : fields value (.ofValue (.obj (m.map fun x ↦ (x.1, id x.2)))) = .ok m :=
    fields_ofValue sorted fun x hx ↦ (read x hx).value
  rwa [map_value] at same

/-! ## Records that are read again -/

theorem eq_of_complete {required : List String} {read : σ × List String}
    (h : complete required read = .ok s) : s = read.1 := by
  obtain ⟨s', seen⟩ := read
  rw [complete] at h
  split at h
  · cases h
    rfl
  · cases h

/-- Members fill in fields of some names, in the order of these, and some fields may be left out. -/
inductive Fills (spec : Spec σ) : (names : List String) → Fields Value → σ → σ → Prop where
  | nil {s : σ} : Fills spec [] [] s s
  | cons {k : String} {names : List String} {v : Value} {ms : Fields Value} {s s' s'' : σ}
      (write : spec.write k (.ofValue v) s = .ok s') (rest : Fills spec names ms s' s'') :
      Fills spec (k :: names) ((k, v) :: ms) s s''
  | skip {k : String} {names : List String} {ms : Fields Value} {s s' : σ}
      (rest : Fills spec names ms s s') : Fills spec (k :: names) ms s s'

namespace Fills

variable {k : String} {names : List String} {ms : Fields Value}

/-- A member that is always there. -/
theorem member {a : α} (decode : Tree → Except DecodeError α) (set : α → σ)
    (again : decode (.ofValue v) = .ok a)
    (hw : spec.write k (.ofValue v) s = (decode (.ofValue v)).map set)
    (rest : Fills spec names ms (set a) s') : Fills spec (k :: names) ((k, v) :: ms) s s' := by
  refine .cons ?_ rest
  rw [hw, again]
  rfl

/-- A member that is left out where there is nothing to be written. -/
theorem optional {a? : Option α} (decode : Tree → Except DecodeError α) (set : Option α → σ)
    (again : ∀ a, a? = some a → encode a ≠ .null ∧ decode (.ofValue (encode a)) = .ok a)
    (hw : ∀ t, spec.write k t (set none) = (option decode t).map set)
    (rest : Fills spec names ms (set a?) s') :
    Fills spec (k :: names) (.optional k (a?.map encode) ++ ms) (set none) s' := by
  cases a? with
  | none => exact .skip rest
  | some a =>
    obtain ⟨filled, same⟩ := again a rfl
    refine .member (option decode) set ?_ (hw _) rest
    rw [option_ofValue filled, same]
    rfl

theorem optionalValue {v? : Option Value} (set : Option Value → σ)
    (read : Yields (option Decode.value) v?)
    (hw : ∀ t, spec.write k t (set none) = (option Decode.value t).map set)
    (rest : Fills spec names ms (set v?) s') :
    Fills spec (k :: names) (.optional k v? ++ ms) (set none) s' := by
  have filled := optional Decode.value set read.value? hw rest
  rwa [Option.map_id_fun', id] at filled

/-- A list that is left out where it is empty. -/
theorem listMember {xs : List α} (decode : Tree → Except DecodeError α) (set : List α → σ)
    (again : ∀ x ∈ xs, decode (.ofValue (encode x)) = .ok x)
    (hw : ∀ t, spec.write k t (set []) = (list decode t).map set)
    (rest : Fills spec names ms (set xs) s') :
    Fills spec (k :: names) (Value.listMember k (xs.map encode) ++ ms) (set []) s' := by
  have same := list_ofValue again
  cases xs with
  | nil => exact .skip rest
  | cons x r => exact .member (list decode) set same (hw _) rest

/-- An object that is left out where it is empty. -/
theorem objectMember {m : Fields α} (decode : Tree → Except DecodeError α) (encode : α → Value)
    (set : Fields α → σ) (hm : m.Sorted)
    (again : ∀ x ∈ m, decode (.ofValue (encode x.2)) = .ok x.2)
    (hw : ∀ t, spec.write k t (set []) = (fields decode t).map set)
    (rest : Fills spec names ms (set m) s') :
    Fills spec (k :: names) (Value.objectMember k (m.map fun x ↦ (x.1, encode x.2)) ++ ms) (set [])
      s' := by
  have same := fields_ofValue hm again
  cases m with
  | nil => exact .skip rest
  | cons x r => exact .member (fields decode) set same (hw _) rest

theorem objectValue {m : Fields Value} (set : Fields Value → σ)
    (read : Yields (fields Decode.value) m)
    (hw : ∀ t, spec.write k t (set []) = (fields Decode.value t).map set)
    (rest : Fills spec names ms (set m) s') :
    Fills spec (k :: names) (Value.objectMember k m ++ ms) (set []) s' := by
  obtain ⟨sorted, values⟩ := read.of_fields
  have filled := objectMember Decode.value id set sorted (fun x hx ↦ (values x hx).value) hw rest
  rwa [map_value] at filled

/-- With an empty end behind it, each member is followed by others. -/
theorem of_append_nil (h : Fills spec names (ms ++ []) s s') : Fills spec names ms s s' := by
  rwa [List.append_nil] at h

theorem keys_sublist (h : Fills spec names ms s s') : ms.keys.Sublist names := by
  induction h with
  | nil => exact .slnil
  | cons write rest ih => exact ih.cons_cons _
  | skip rest ih => exact ih.cons _

theorem members_eq_ok (seen : List String) (h : Fills spec names ms s s')
    (known : ∀ k ∈ names, k ∈ spec.names ∧ k ∉ seen) (once : names.Nodup) :
    members spec (treesOfMembers ms) seen s = .ok (s', ms.keys.reverse ++ seen) := by
  induction h generalizing seen with
  | nil => rfl
  | @cons k names v ms s s' s'' write rest ih =>
    obtain ⟨⟨name, unseen⟩, known⟩ := List.forall_mem_cons.mp known
    obtain ⟨other, once⟩ := List.nodup_cons.mp once
    have unseen' : ∀ l ∈ names, l ∈ spec.names ∧ l ∉ k :: seen := by
      intro l hl
      refine ⟨(known l hl).1, List.mem_cons.not.mpr (not_or.mpr ⟨?_, (known l hl).2⟩)⟩
      rintro rfl
      exact other hl
    rw [treesOfMembers, members, if_pos (List.contains_iff_mem.mpr name),
      if_neg (List.contains_iff_mem.not.mpr unseen), write, ok_bind, ih _ unseen' once]
    simp [Fields.keys]
  | skip rest ih => exact ih seen (List.forall_mem_cons.mp known).2 (List.nodup_cons.mp once).2

end Fills

/-- A record is read again from its fields, in the order in which it names them. -/
theorem record_ofValue {surplus : DecodeError} {ms : Fields Value}
    (h : Fills spec spec.names ms s s') (once : spec.names.Nodup)
    (all : ∀ k ∈ spec.required, k ∈ ms.keys) :
    record spec surplus s (.ofValue (.obj ms)) = .ok s' := by
  have read := h.members_eq_ok [] (fun k hk ↦ ⟨hk, List.not_mem_nil⟩) once
  rw [Tree.ofValue, record, read, ok_bind, closed, ok_bind, complete, if_pos]
  rw [List.all_eq_true]
  intro k hk
  simpa using all k hk

end LivePage.Json.Decode
