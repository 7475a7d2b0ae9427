import LivePage.Proofs.Fields
import LivePage.Value.Coerce
import LivePage.Proofs.Number.Comparison

/-!
# Laws of equality

Values are equal in structure where they have the same form, with numbers that are equal as floats.
This is an equivalence of all values, since no number is `NaN`; and values that it does not tell
apart are equal in the loose sense, count as the same truth value, and are read as the same number
or both as none.  Objects are compared member by member, in the order of their keys: that is to say,
they are as many, and each of the one is found by its key in the other.
-/

namespace LivePage.Value

/-- The ways in which two values are equal in structure. -/
inductive Alike : Value → Value → Prop where
  | null : Alike null null
  | bool (b : Bool) : Alike (bool b) (bool b)
  | num {a b : Number} (h : (a.toFloat == b.toFloat) = true) : Alike (num a) (num b)
  | str (s : String) : Alike (str s) (str s)
  | arr {a b : List Value} (h : strictEqItems a b = true) : Alike (arr a) (arr b)
  | obj {a b : Fields Value} (h : strictEqMembers a b = true) : Alike (obj a) (obj b)

variable {u v w : Value} {a b c : List Value} {m n : Fields Value}

theorem alike_of_strictEq (h : u.strictEq v = true) : Alike u v := by
  cases u <;> cases v
  case null.null => exact .null
  case bool.bool a b =>
    obtain rfl := beq_iff_eq.mp h
    exact .bool a
  case num.num => exact .num h
  case str.str s t =>
    obtain rfl := beq_iff_eq.mp h
    exact .str s
  case arr.arr => exact .arr h
  case obj.obj => exact .obj h
  all_goals cases h

theorem Alike.strictEq (h : Alike u v) : u.strictEq v = true := by
  cases h with
  | null => rfl
  | bool b => exact beq_self_eq_true b
  | num h => exact h
  | str s => exact beq_self_eq_true s
  | arr h => exact h
  | obj h => exact h

theorem strictEqItems_cons_iff : strictEqItems (u :: a) (v :: b) = true ↔
    u.strictEq v = true ∧ strictEqItems a b = true := by
  rw [strictEqItems, Bool.and_eq_true]

theorem strictEqMembers_cons_iff {k l : String} :
    strictEqMembers ((k, u) :: m) ((l, v) :: n) = true ↔
      k = l ∧ u.strictEq v = true ∧ strictEqMembers m n = true := by
  rw [strictEqMembers, Bool.and_eq_true, Bool.and_eq_true, beq_iff_eq, and_assoc]

/-! ## An equivalence -/

mutual

/-- Every value is equal to itself, for every number is. -/
theorem strictEq_self : (v : Value) → v.strictEq v = true
  | .null => rfl
  | .bool b => (Alike.bool b).strictEq
  | .num n => Binary.beq_self_iff.mpr n.isNaN_toFloat
  | .str s => (Alike.str s).strictEq
  | .arr items => strictEqItems_self items
  | .obj members => strictEqMembers_self members

theorem strictEqItems_self : (a : List Value) → strictEqItems a a = true
  | [] => rfl
  | v :: r => strictEqItems_cons_iff.mpr ⟨strictEq_self v, strictEqItems_self r⟩

theorem strictEqMembers_self : (m : Fields Value) → strictEqMembers m m = true
  | [] => rfl
  | (_, v) :: r => strictEqMembers_cons_iff.mpr ⟨rfl, strictEq_self v, strictEqMembers_self r⟩

end

mutual

theorem strictEq_symm : (u v : Value) → u.strictEq v = true → v.strictEq u = true := by
  intro u v h
  cases alike_of_strictEq h with
  | null => rfl
  | bool b => exact h
  | num h => exact Binary.beq_symm h
  | str s => exact h
  | arr h => exact strictEqItems_symm _ _ h
  | obj h => exact strictEqMembers_symm _ _ h

theorem strictEqItems_symm : (a b : List Value) → strictEqItems a b = true →
    strictEqItems b a = true
  | [], [], _ => rfl
  | u :: a, v :: b, h => by
    obtain ⟨head, tail⟩ := strictEqItems_cons_iff.mp h
    exact strictEqItems_cons_iff.mpr ⟨strictEq_symm u v head, strictEqItems_symm a b tail⟩

theorem strictEqMembers_symm : (m n : Fields Value) → strictEqMembers m n = true →
    strictEqMembers n m = true
  | [], [], _ => rfl
  | (k, u) :: m, (l, v) :: n, h => by
    obtain ⟨key, head, tail⟩ := strictEqMembers_cons_iff.mp h
    exact strictEqMembers_cons_iff.mpr
      ⟨key.symm, strictEq_symm u v head, strictEqMembers_symm m n tail⟩

end

theorem strictEq_comm (u v : Value) : u.strictEq v = v.strictEq u :=
  Bool.eq_iff_iff.mpr ⟨strictEq_symm u v, strictEq_symm v u⟩

mutual

theorem strictEq_trans : (u v w : Value) → u.strictEq v = true → v.strictEq w = true →
    u.strictEq w = true := by
  intro u v w h h'
  cases alike_of_strictEq h with
  | null => exact h'
  | bool b => exact h'
  | str s => exact h'
  | num h =>
    cases alike_of_strictEq h' with
    | num h' => exact Binary.beq_trans h h'
  | arr h =>
    cases alike_of_strictEq h' with
    | arr h' => exact strictEqItems_trans _ _ _ h h'
  | obj h =>
    cases alike_of_strictEq h' with
    | obj h' => exact strictEqMembers_trans _ _ _ h h'

theorem strictEqItems_trans : (a b c : List Value) → strictEqItems a b = true →
    strictEqItems b c = true → strictEqItems a c = true
  | [], [], [], _, _ => rfl
  | u :: a, v :: b, w :: c, h, h' => by
    obtain ⟨head, tail⟩ := strictEqItems_cons_iff.mp h
    obtain ⟨head', tail'⟩ := strictEqItems_cons_iff.mp h'
    exact strictEqItems_cons_iff.mpr
      ⟨strictEq_trans u v w head head', strictEqItems_trans a b c tail tail'⟩

theorem strictEqMembers_trans : (l m n : Fields Value) → strictEqMembers l m = true →
    strictEqMembers m n = true → strictEqMembers l n = true
  | [], [], [], _, _ => rfl
  | (i, u) :: l, (j, v) :: m, (k, w) :: n, h, h' => by
    obtain ⟨key, head, tail⟩ := strictEqMembers_cons_iff.mp h
    obtain ⟨key', head', tail'⟩ := strictEqMembers_cons_iff.mp h'
    exact strictEqMembers_cons_iff.mpr ⟨key.trans key', strictEq_trans u v w head head',
      strictEqMembers_trans l m n tail tail'⟩

end

/-! ## What equal values have in common -/

theorem truthy_of_strictEq (h : u.strictEq v = true) : u.truthy = v.truthy := by
  cases alike_of_strictEq h with
  | @num a b h =>
    change (a.toFloat != 0.0 && !a.toFloat.isNaN) = (b.toFloat != 0.0 && !b.toFloat.isNaN)
    rw [bne, bne, Binary.beq_congr h, a.isNaN_toFloat, b.isNaN_toFloat]
  | _ => rfl

/-- Two floats are the same number, or both are none. -/
def SameNumber (x y : Float) : Prop := (x == y) = true ∨ x.isNaN = true ∧ y.isNaN = true

theorem SameNumber.refl (x : Float) : SameNumber x x := by
  cases h : x.isNaN with
  | false => exact .inl (Binary.beq_self_iff.mpr h)
  | true => exact .inr ⟨h, h⟩

/-- Lists that are equal are both read as zero, as the number of their only item, or as none. -/
theorem sameNumber_of_strictEq (h : u.strictEq v = true) : SameNumber u.toNumber v.toNumber := by
  induction u using toNumber.induct generalizing v with
  | case6 =>
    cases alike_of_strictEq h with
    | @arr _ b h =>
      cases b with
      | nil => exact .refl _
      | cons _ _ => cases h
  | case7 u ih =>
    cases alike_of_strictEq h with
    | @arr _ b h =>
      match b, h with
      | [v], h =>
        have item : SameNumber u.toNumber v.toNumber := ih (strictEqItems_cons_iff.mp h).1
        exact item
      | _ :: _ :: _, h => cases (strictEqItems_cons_iff.mp h).2
  | case8 items hnil hone =>
    cases alike_of_strictEq h with
    | @arr _ b h =>
      match items, b, h with
      | [], _, _ => exact absurd rfl hnil
      | [u], _, _ => exact absurd rfl (hone u)
      | _ :: _ :: _, [_], h => cases (strictEqItems_cons_iff.mp h).2
      | _ :: _ :: _, _ :: _ :: _, _ => exact .refl _
  | case4 n =>
    cases alike_of_strictEq h with
    | num h => exact .inl h
  | _ =>
    cases alike_of_strictEq h
    exact .refl _

/-! ## Loose equality -/

theorem numberEq_iff : numberEq u v = true ↔ (u.toNumber == v.toNumber) = true := by
  rw [numberEq, Bool.and_eq_true]
  constructor
  · exact And.right
  · intro h
    exact ⟨by rw [(Binary.isNaN_of_beq h).1]; rfl, h⟩

theorem numberEq_comm (u v : Value) : numberEq u v = numberEq v u := by
  rw [Bool.eq_iff_iff, numberEq_iff, numberEq_iff, Binary.beq_comm]

theorem looseEq_of_strictEq (h : u.strictEq v = true) : u.looseEq v = true := by
  cases alike_of_strictEq h with
  | bool b => cases b <;> decide
  | _ => exact h

theorem looseEq_comm (u v : Value) : u.looseEq v = v.looseEq u := by
  cases u with
  | null => cases v <;> rfl
  | bool b =>
    cases v with
    | null => rfl
    | _ => exact numberEq_comm _ _
  | num n =>
    cases v with
    | bool b => exact numberEq_comm _ _
    | str s => exact numberEq_comm _ _
    | num m => exact strictEq_comm _ _
    | _ => rfl
  | str s =>
    cases v with
    | bool b => exact numberEq_comm _ _
    | num n => exact numberEq_comm _ _
    | str t => exact strictEq_comm _ _
    | _ => rfl
  | arr a =>
    cases v with
    | bool b => exact numberEq_comm _ _
    | arr b => exact strictEq_comm _ _
    | _ => rfl
  | obj m =>
    cases v with
    | bool b => exact numberEq_comm _ _
    | obj n => exact strictEq_comm _ _
    | _ => rfl

/-! ## Members by their keys -/

theorem keys_of_strictEqMembers (h : strictEqMembers m n = true) : m.keys = n.keys := by
  induction m generalizing n with
  | nil =>
    cases n with
    | nil => rfl
    | cons _ _ => cases h
  | cons x m ih =>
    cases n with
    | nil => cases h
    | cons y n =>
      obtain ⟨key, -, tail⟩ := strictEqMembers_cons_iff.mp h
      exact congrArg₂ List.cons key (ih tail)

/-- A member that is found by its key on the other side, with an equal value. -/
def Found (n : Fields Value) (x : String × Value) : Prop :=
  ∃ v, n.get? x.1 = some v ∧ x.2.strictEq v = true

theorem found_of_strictEqMembers (hm : m.keys.Nodup) (h : strictEqMembers m n = true) :
    ∀ x ∈ m, Found n x := by
  induction m generalizing n with
  | nil => nofun
  | cons x m ih =>
    cases n with
    | nil => cases h
    | cons y n =>
      obtain ⟨k, u⟩ := x
      obtain ⟨l, v⟩ := y
      obtain ⟨rfl, head, tail⟩ := strictEqMembers_cons_iff.mp h
      obtain ⟨hk, hm⟩ := List.nodup_cons.mp hm
      intro x hx
      rcases List.mem_cons.mp hx with rfl | hx
      · exact ⟨v, if_pos rfl, head⟩
      · obtain ⟨w, hw, he⟩ := ih hm tail x hx
        have hne : k ≠ x.1 := fun e ↦ hk (List.mem_map.mpr ⟨x, hx, e.symm⟩)
        exact ⟨w, (if_neg hne).trans hw, he⟩

theorem strictEqMembers_of_found (hm : m.keys.Nodup) (hkeys : m.keys = n.keys)
    (h : ∀ x ∈ m, Found n x) : strictEqMembers m n = true := by
  induction m generalizing n with
  | nil =>
    cases n with
    | nil => rfl
    | cons _ _ => cases hkeys
  | cons x m ih =>
    cases n with
    | nil => cases hkeys
    | cons y n =>
      obtain ⟨k, u⟩ := x
      obtain ⟨l, v⟩ := y
      obtain ⟨key, htail⟩ := List.cons.inj hkeys
      obtain rfl : k = l := key
      obtain ⟨hk, hm⟩ := List.nodup_cons.mp hm
      obtain ⟨w, hw, head⟩ := h _ List.mem_cons_self
      obtain rfl : v = w := Option.some.inj ((if_pos rfl).symm.trans hw)
      refine strictEqMembers_cons_iff.mpr ⟨rfl, head, ih hm htail ?_⟩
      intro x hx
      obtain ⟨w, hw, he⟩ := h x (List.mem_cons_of_mem _ hx)
      have hne : k ≠ x.1 := fun e ↦ hk (List.mem_map.mpr ⟨x, hx, e.symm⟩)
      exact ⟨w, (if_neg hne).symm.trans hw, he⟩

/-- As many keys, each of which is one of the others, are the others. -/
theorem keys_eq_of_found (hm : m.Sorted) (hn : n.Sorted) (hlen : m.length = n.length)
    (h : ∀ x ∈ m, Found n x) : m.keys = n.keys := by
  have hsub : m.keys ⊆ n.keys := by
    intro k hk
    obtain ⟨x, hx, rfl⟩ := List.mem_map.mp hk
    obtain ⟨v, hv, -⟩ := h x hx
    exact Fields.mem_keys_iff.mpr (by rw [hv]; rfl)
  have hperm : m.keys.Perm n.keys := by
    apply (List.subperm_of_subset hm.nodup_keys hsub).perm_of_length_le
    simp only [Fields.keys, List.length_map, hlen, le_refl]
  exact hperm.eq_of_pairwise' hm hn

/-- Objects with their members in order are equal where they have as many members, and each of the
one is found in the other. -/
theorem strictEqMembers_iff_found (hm : m.Sorted) (hn : n.Sorted) :
    strictEqMembers m n = true ↔ m.length = n.length ∧ ∀ x ∈ m, Found n x := by
  constructor
  · intro h
    have hkeys := congrArg List.length (keys_of_strictEqMembers h)
    simp only [Fields.keys, List.length_map] at hkeys
    exact ⟨hkeys, found_of_strictEqMembers hm.nodup_keys h⟩
  · rintro ⟨hlen, h⟩
    exact strictEqMembers_of_found hm.nodup_keys (keys_eq_of_found hm hn hlen h) h

/-! ## The laws -/

/-- Equality in structure is reflexive, symmetric and transitive.  Values that are equal in this
sense are equal in the loose sense, have the same truth value, and are read as the same number or
both as none.  Loose equality is reflexive and symmetric.  Two objects are equal where they have as
many members, and each member of the one has an equal one under its key in the other. -/
theorem equality_laws (u v w : Value) :
    u.strictEq u = true ∧ u.strictEq v = v.strictEq u ∧
    (u.strictEq v = true → v.strictEq w = true → u.strictEq w = true) ∧
    (u.strictEq v = true → u.looseEq v = true ∧ u.truthy = v.truthy ∧
      SameNumber u.toNumber v.toNumber) ∧
    u.looseEq u = true ∧ u.looseEq v = v.looseEq u ∧
    ∀ m n : Fields Value, m.Sorted → n.Sorted →
      ((obj m).strictEq (obj n) = true ↔ m.length = n.length ∧ ∀ x ∈ m, Found n x) := by
  refine ⟨strictEq_self u, strictEq_comm u v, strictEq_trans u v w, ?_,
    looseEq_of_strictEq (strictEq_self u), looseEq_comm u v, fun m n ↦ strictEqMembers_iff_found⟩
  intro h
  exact ⟨looseEq_of_strictEq h, truthy_of_strictEq h, sameNumber_of_strictEq h⟩

/-- Zero below zero, zero without a point and zero with one are equal, in lists and in objects. -/
theorem equality_laws_of_zeros :
    let below := num (.float (-0.0) (by decide))
    let pointed := num (.float 0.0 (by decide))
    let point (x : Value) : Fields Value := [("x", x), ("y", int 1)]
    (arr [below]).strictEq (arr [int 0]) = true ∧ (arr [int 0]).strictEq (arr [pointed]) = true ∧
    (arr [below]).strictEq (arr [pointed]) = true ∧ (arr [below]).looseEq (arr [int 0]) = true ∧
    SameNumber (arr [below]).toNumber (arr [int 0]).toNumber ∧
    (point below).Sorted ∧ (point (int 0)).Sorted ∧
    (obj (point below)).strictEq (obj (point (int 0))) = true := by
  intro below pointed point
  have hbelow : (arr [below]).strictEq (arr [int 0]) = true := by decide
  have hpointed : (arr [int 0]).strictEq (arr [pointed]) = true := by decide
  obtain ⟨-, -, trans, alike, -, -, members⟩ :=
    equality_laws (arr [below]) (arr [int 0]) (arr [pointed])
  have sorted (x : Value) : (point x).Sorted :=
    List.pairwise_pair.mpr (by decide : "x" < "y")
  have found : ∀ x ∈ point below, Found (point (int 0)) x := by
    simp only [point, List.forall_mem_cons]
    exact ⟨⟨int 0, rfl, by decide⟩, ⟨int 1, rfl, by decide⟩, List.forall_mem_nil _⟩
  exact ⟨hbelow, hpointed, trans hbelow hpointed, (alike hbelow).1, (alike hbelow).2.2, sorted _,
    sorted _, (members _ _ (sorted _) (sorted _)).mpr ⟨rfl, found⟩⟩

end LivePage.Value
