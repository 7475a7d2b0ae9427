import LivePage.Page.Condition
import LivePage.Proofs.Number.Nearest
import LivePage.Proofs.Value.Order

/-!
# Equality of values

Integers are compared as floats: two of them are equal where the same float is nearest to both, and
their order is the order of these floats.  Up to `2 ^ 53` every integer is a float, so equality is
sameness there; above, integers that differ may be equal.
-/

namespace LivePage

namespace Value

/-- An integer that fits a word of 64 bits, with or without a sign. -/
def IsWord (n : Int) : Prop := -2 ^ 63 ≤ n ∧ n < 2 ^ 64

/-- An integer of a size up to which every integer is a float. -/
def IsExact (n : Int) : Prop := n.natAbs ≤ 2 ^ 53

instance (n : Int) : Decidable (IsWord n) := inferInstanceAs (Decidable (_ ∧ _))

instance (n : Int) : Decidable (IsExact n) := inferInstanceAs (Decidable (_ ≤ _))

/-- A value without floats, all of whose integers are of some kind. -/
inductive Integral (P : Int → Prop) : Value → Prop where
  | null : Integral P null
  | bool (b : Bool) : Integral P (bool b)
  | int {n : Int} (h : P n) : Integral P (int n)
  | str (s : String) : Integral P (str s)
  | arr {items : List Value} (h : ∀ v ∈ items, Integral P v) : Integral P (arr items)
  | obj {members : Fields Value} (h : ∀ m ∈ members, Integral P m.2) : Integral P (obj members)

theorem Integral.mono {P Q : Int → Prop} (hPQ : ∀ n, P n → Q n) {v : Value} (h : v.Integral P) :
    v.Integral Q := by
  induction h with
  | null => exact .null
  | bool b => exact .bool b
  | int h => exact .int (hPQ _ h)
  | str s => exact .str s
  | arr _ ih => exact .arr ih
  | obj _ ih => exact .obj ih

mutual

/-- The same value with the integers that are nearest as floats. -/
def rounded : Value → Value
  | num (.int n) => int (Binary.nearest n)
  | arr items => arr (roundedItems items)
  | obj members => obj (roundedMembers members)
  | v => v

def roundedItems : List Value → List Value
  | [] => []
  | v :: r => v.rounded :: roundedItems r

def roundedMembers : Fields Value → Fields Value
  | [] => []
  | (k, v) :: r => (k, v.rounded) :: roundedMembers r

end

/-! ## Integers -/

theorem log2_natAbs_of_isWord {n : Int} (h : IsWord n) : n.natAbs.log2 ≤ 1022 := by
  rcases Nat.eq_zero_or_pos n.natAbs with h0 | hpos
  · simp [h0]
  · have : n.natAbs.log2 < 65 := (Nat.log2_lt hpos.ne').mpr (by have := h.1; have := h.2; omega)
    omega

theorem isWord_of_isExact {n : Int} (h : IsExact n) : IsWord n := by
  simp only [IsExact] at h
  constructor <;> omega

theorem strictEq_int {a b : Int} (ha : IsWord a) (hb : IsWord b) :
    (int a).strictEq (int b) = true ↔ Binary.nearest a = Binary.nearest b :=
  Binary.ofInt_beq_ofInt (log2_natAbs_of_isWord ha) (log2_natAbs_of_isWord hb)

/-- The order of integers is the order of the nearest floats. -/
theorem order_int {a b : Int} (ha : IsWord a) (hb : IsWord b) :
    (int a).order (int b) = some (compare (Binary.nearest a) (Binary.nearest b)) := by
  have ha' := log2_natAbs_of_isWord ha
  have hb' := log2_natAbs_of_isWord hb
  change orderFloats (Float.ofInt a) (Float.ofInt b) = _
  simp only [orderFloats, Binary.ofInt_lt_ofInt ha' hb', Binary.ofInt_lt_ofInt hb' ha',
    Binary.ofInt_beq_ofInt ha' hb']
  rcases lt_trichotomy (Binary.nearest a) (Binary.nearest b) with h | h | h
  · rw [if_pos h, compare_lt_iff_lt.mpr h]
  · rw [if_neg h.not_lt, if_neg h.not_gt, if_pos h, compare_eq_iff_eq.mpr h]
  · rw [if_neg h.le.not_gt, if_pos h, compare_gt_iff_gt.mpr h]

/-! ## Values -/

section Structure

variable {v w : Value}

theorem strictEqItems_iff {a b : List Value} (h : ∀ v ∈ a, ∀ w ∈ b,
    (v.strictEq w = true ↔ v.rounded = w.rounded)) :
    strictEqItems a b = true ↔ roundedItems a = roundedItems b := by
  induction a generalizing b with
  | nil => cases b <;> simp [strictEqItems, roundedItems]
  | cons x a ih =>
    cases b with
    | nil => simp [strictEqItems, roundedItems]
    | cons y b =>
      have head := h x List.mem_cons_self y List.mem_cons_self
      have tail := ih fun v hv w hw ↦ h v (List.mem_cons_of_mem _ hv) w (List.mem_cons_of_mem _ hw)
      rw [strictEqItems, Bool.and_eq_true, head, tail, roundedItems, roundedItems, List.cons.injEq]

theorem strictEqMembers_iff {a b : Fields Value} (h : ∀ m ∈ a, ∀ n ∈ b,
    (m.2.strictEq n.2 = true ↔ m.2.rounded = n.2.rounded)) :
    strictEqMembers a b = true ↔ roundedMembers a = roundedMembers b := by
  induction a generalizing b with
  | nil => cases b <;> simp [strictEqMembers, roundedMembers]
  | cons x a ih =>
    cases b with
    | nil => simp [strictEqMembers, roundedMembers]
    | cons y b =>
      have head := h x List.mem_cons_self y List.mem_cons_self
      have tail := ih fun v hv w hw ↦ h v (List.mem_cons_of_mem _ hv) w (List.mem_cons_of_mem _ hw)
      rw [strictEqMembers, Bool.and_eq_true, Bool.and_eq_true, beq_iff_eq, head, tail,
        roundedMembers, roundedMembers, List.cons.injEq, Prod.mk.injEq]

/-- Values are equal where they are the same after rounding. -/
theorem strictEq_iff_rounded (hv : v.Integral IsWord) (hw : w.Integral IsWord) :
    v.strictEq w = true ↔ v.rounded = w.rounded := by
  induction hv generalizing w with
  | null => cases hw <;> simp [strictEq, rounded, int]
  | bool b => cases hw <;> simp [strictEq, rounded, int]
  | str s => cases hw <;> simp [strictEq, rounded, int]
  | @int a ha =>
    cases hw with
    | @int b hb =>
      rw [strictEq_int ha hb]
      simp [rounded, int]
    | _ => simp [strictEq, rounded, int]
  | @arr a _ ih =>
    cases hw with
    | @arr b hb =>
      rw [strictEq, rounded, rounded, arr.injEq]
      exact strictEqItems_iff fun v hv w hw ↦ ih v hv (hb w hw)
    | _ => simp [strictEq, rounded, int]
  | @obj a _ ih =>
    cases hw with
    | @obj b hb =>
      rw [strictEq, rounded, rounded, obj.injEq]
      exact strictEqMembers_iff fun m hm n hn ↦ ih m hm (hb n hn)
    | _ => simp [strictEq, rounded, int]

theorem roundedItems_eq_self {items : List Value} (h : ∀ v ∈ items, v.rounded = v) :
    roundedItems items = items := by
  induction items with
  | nil => rfl
  | cons x r ih =>
    rw [roundedItems, h x List.mem_cons_self, ih fun v hv ↦ h v (List.mem_cons_of_mem _ hv)]

theorem roundedMembers_eq_self {members : Fields Value} (h : ∀ m ∈ members, m.2.rounded = m.2) :
    roundedMembers members = members := by
  induction members with
  | nil => rfl
  | cons x r ih =>
    rw [roundedMembers, h x List.mem_cons_self, ih fun m hm ↦ h m (List.mem_cons_of_mem _ hm)]

/-- Rounding leaves integers that are exact as they are. -/
theorem rounded_eq_self (h : v.Integral IsExact) : v.rounded = v := by
  induction h with
  | int h => exact congrArg int (Binary.nearest_of_le h)
  | arr _ ih => rw [rounded, roundedItems_eq_self ih]
  | obj _ ih => rw [rounded, roundedMembers_eq_self ih]
  | _ => rfl

end Structure

/-! ## Comparisons -/

/-- Each comparison by structure tells whether two values are the same, in a sense of this. -/
structure Compared (Same : Value → Value → Prop) (v w : Value) : Prop where
  strict : v.strictEq w = true ↔ Same v w
  operator : ∀ env l r, Expr.eval env l = .ok v → Expr.eval env r = .ok w →
    ∃ b, Expr.eval env (.binary .strictEqual l r) = .ok (.bool b) ∧ (b = true ↔ Same v w)
  equals : ∃ b, Comparison.equals.holds v w = .ok b ∧ (b = true ↔ Same v w)
  isIn : ∀ options, w = arr options →
    ∃ b, Comparison.isIn.holds v w = .ok b ∧ (b = true ↔ ∃ o ∈ options, Same o v)
  contains : ∀ items, v = arr items →
    ∃ b, Comparison.contains.holds v w = .ok b ∧ (b = true ↔ ∃ i ∈ items, Same i w)

/-- All of these comparisons follow equality. -/
theorem compared_of_strictEq {P : Int → Prop} {Same : Value → Value → Prop}
    (h : ∀ {v w : Value}, v.Integral P → w.Integral P → (v.strictEq w = true ↔ Same v w))
    {v w : Value} (hv : v.Integral P) (hw : w.Integral P) : Compared Same v w where
  strict := h hv hw
  operator _ _ _ hl hr := ⟨v.strictEq w, Expr.eval_binary hl hr .strictEqual, h hv hw⟩
  equals := ⟨_, rfl, h hv hw⟩
  isIn := by
    rintro options rfl
    cases hw with
    | arr hw =>
      refine ⟨_, rfl, List.any_eq_true.trans (exists_congr fun o ↦ and_congr_right fun ho ↦ ?_)⟩
      exact h (hw o ho) hv
  contains := by
    rintro items rfl
    cases hv with
    | arr hv =>
      refine ⟨_, rfl, List.any_eq_true.trans (exists_congr fun i ↦ and_congr_right fun hi ↦ ?_)⟩
      exact h (hv i hi) hw

/-- Integers are compared by the floats nearest to them, alone and inside of lists and objects: two
values are equal just where they are the same after rounding, and two integers are in the order of
their floats.  Where all integers are exact, two values are equal just where they are the same, and
integers are in their own order. -/
theorem compared_as_floats {v w : Value} (hv : v.Integral IsWord) (hw : w.Integral IsWord) :
    Compared (fun v w ↦ v.rounded = w.rounded) v w ∧
      (∀ a b, v = int a → w = int b →
        v.order w = some (compare (Binary.nearest a) (Binary.nearest b))) ∧
      (v.Integral IsExact → w.Integral IsExact → Compared Eq v w ∧
        ∀ a b, v = int a → w = int b → v.order w = some (compare a b)) := by
  have order : ∀ a b, v = int a → w = int b →
      v.order w = some (compare (Binary.nearest a) (Binary.nearest b)) := by
    rintro a b rfl rfl
    cases hv with
    | int ha => cases hw with
      | int hb => exact order_int ha hb
  refine ⟨compared_of_strictEq strictEq_iff_rounded hv hw, order, fun hv' hw' ↦ ⟨?_, ?_⟩⟩
  · refine compared_of_strictEq (fun hv hw ↦ ?_) hv' hw'
    rw [strictEq_iff_rounded (hv.mono fun _ ↦ isWord_of_isExact)
      (hw.mono fun _ ↦ isWord_of_isExact), rounded_eq_self hv, rounded_eq_self hw]
  · rintro a b rfl rfl
    rw [order a b rfl rfl]
    cases hv' with
    | int ha => cases hw' with
      | int hb => rw [Binary.nearest_of_le ha, Binary.nearest_of_le hb]

/-- The two greatest words are the same as floats, and small numbers of objects are told apart. -/
theorem greatest_words_compared :
    let v (n : Int) := obj [("id", int n)]
    (v (2 ^ 64 - 1)).Integral IsWord ∧ (v (2 ^ 64 - 2)).Integral IsWord ∧
    (v (2 ^ 64 - 1)).strictEq (v (2 ^ 64 - 2)) = true ∧
    (v 7).Integral IsExact ∧ (v 8).Integral IsExact ∧ (v 7).strictEq (v 8) ≠ true := by
  intro v
  have integral {P : Int → Prop} (n : Int) (hn : P n) : (v n).Integral P :=
    .obj fun m hm ↦ List.mem_singleton.mp hm ▸ .int hn
  have hv : (v (2 ^ 64 - 1)).Integral IsWord := integral _ (by decide)
  have hw : (v (2 ^ 64 - 2)).Integral IsWord := integral _ (by decide)
  have h7 : (v 7).Integral IsExact := integral _ (by decide)
  have h8 : (v 8).Integral IsExact := integral _ (by decide)
  have hsmall := compared_as_floats (integral 7 (by decide)) (integral 8 (by decide))
  refine ⟨hv, hw, (compared_as_floats hv hw).1.strict.mpr rfl, h7, h8, fun h ↦ ?_⟩
  have hsame : v 7 = v 8 := (hsmall.2.2 h7 h8).1.strict.mp h
  simp [v, int] at hsame

/-- Integers that differ may be equal, and neither of them is the greater one. -/
theorem distinct_integers_equal :
    IsWord 9007199254740992 ∧ IsWord 9007199254740993 ∧
      (int 9007199254740992).strictEq (int 9007199254740993) = true ∧
      (int 9007199254740992).order (int 9007199254740993) = some .eq :=
  ⟨by decide, by decide, (strictEq_int (by decide) (by decide)).mpr rfl,
    order_int (by decide) (by decide)⟩

end Value

end LivePage
