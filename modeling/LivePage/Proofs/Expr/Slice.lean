import LivePage.Proofs.Expr.Method
import LivePage.Proofs.Number.Truncation
import LivePage.Proofs.Value.Equality

/-!
# Slices

A slice is what stands at the places from its first bound to before its second.  A bound is cut off
at its point and counted from the end where it is below zero then, and else from the start.  Whether
a bound is below zero is looked at before it is cut off, though: so a bound between -1 and 0 is
counted from the end as well, and stands for the end itself.
-/

namespace LivePage

theorem Binary.le_nearestNat {n : Nat} (h : 2 ^ 53 ≤ n) : 2 ^ 53 ≤ nearestNat n := by
  have hlog : 53 ≤ n.log2 := (Nat.le_log2 (by omega)).mpr h
  have hdiv : 2 ^ 52 ≤ Decimal.roundDiv n (2 ^ (n.log2 - 52)) := (roundDiv_bounds (by omega)).1
  have hpow : 2 ^ 1 ≤ 2 ^ (n.log2 - 52) := Nat.pow_le_pow_right (by norm_num) (by omega)
  exact Nat.mul_le_mul hdiv hpow

namespace Builtin

variable {α : Type} {length lo hi : Nat} {a b : Number}

/-! ## What stands between two places -/

/-- What stands at the places from one to before another, in order. -/
def between (lo hi : Nat) (xs : List α) : List α :=
  (xs.zipIdx.filter fun x ↦ lo ≤ x.2 ∧ x.2 < hi).map Prod.fst

theorem map_filter_zipIdx (xs : List α) (k : Nat) :
    ((xs.zipIdx k).filter fun x ↦ lo ≤ x.2 ∧ x.2 < hi).map Prod.fst =
      (xs.drop (lo - k)).take (hi - max lo k) := by
  induction xs generalizing k with
  | nil => simp
  | cons x r ih =>
    rw [List.zipIdx_cons]
    rcases Nat.lt_or_ge k lo with hk | hk
    · have hdrop : lo - k = (lo - (k + 1)) + 1 := by omega
      have hmax : max lo k = max lo (k + 1) := by omega
      rw [List.filter_cons_of_neg (by simp; omega), ih, hdrop, hmax, List.drop_succ_cons]
    · rcases Nat.lt_or_ge k hi with hk' | hk'
      · have htake : hi - max lo k = (hi - max lo (k + 1)) + 1 := by omega
        rw [List.filter_cons_of_pos (by simp; omega), List.map_cons, ih, htake,
          Nat.sub_eq_zero_of_le hk, Nat.sub_eq_zero_of_le (Nat.le_succ_of_le hk)]
        rfl
      · have htake : hi - max lo k = 0 := by omega
        have htake' : hi - max lo (k + 1) = 0 := by omega
        rw [List.filter_cons_of_neg (by simp; omega), ih, htake, htake', List.take_zero,
          List.take_zero]

theorem between_eq_take_drop (lo hi : Nat) (xs : List α) :
    between lo hi xs = (xs.drop lo).take (hi - lo) := by
  rw [between, map_filter_zipIdx, Nat.sub_zero, Nat.max_zero]

theorem slice_eq_between (lo hi : Nat) (xs : List α) :
    slice (lo, max lo hi) xs = between lo hi xs := by
  have hlen : max lo hi - lo = hi - lo := by omega
  rw [between_eq_take_drop, slice, hlen]

/-! ## The place of a bound -/

/-- The integer that a number is cut off to; as anywhere, a number is read as a float. -/
def whole (a : Number) : Int := Binary.cutOff a.toFloat

/-- The place that an integer denotes in a row of so many: one below zero is counted from the end,
and each ends where the row does. -/
def denoted (length : Nat) (i : Int) : Nat :=
  if i < 0 then (length + i).toNat else min i.toNat length

/-- A number that is below zero, and zero once it is cut off. -/
def JustBelow (a : Number) : Prop := a.toFloat < 0.0 ∧ whole a = 0

instance (a : Number) : Decidable (JustBelow a) := inferInstanceAs (Decidable (_ ∧ _))

/-- The place that a number stands for in a row of so many. -/
def place (length : Nat) (a : Number) : Nat :=
  if JustBelow a then length else denoted length (whole a)

theorem sliceBound_eq_place (ha : a.toFloat.isFinite = true) (hl : length < 2 ^ 64)
    (fallback : Nat) : sliceBound length (.num a) fallback = place length a := by
  change (if a.toFloat.isNaN = true then 0
    else if a.toFloat < 0.0 then length - Binary.word 64 (-a.toFloat)
    else min (Binary.word 64 a.toFloat) length) = _
  rw [a.isNaN_toFloat, if_neg Bool.false_ne_true]
  split
  case isTrue hneg =>
    have hle : whole a ≤ 0 := Binary.cutOff_nonpos ha hneg
    have hword : Binary.word 64 (-a.toFloat) = min (2 ^ 64 - 1) (-whole a).toNat := by
      rw [Binary.word_of_finite (Binary.isFinite_neg.trans ha), Binary.cutOff_neg ha]
      rfl
    rw [hword, place, denoted]
    rcases hle.lt_or_eq with hlt | hzero
    · rw [if_neg fun h ↦ hlt.ne h.2, if_pos hlt]
      omega
    · rw [if_pos ⟨hneg, hzero⟩, hzero]
      rfl
  case isFalse hpos =>
    have hle : 0 ≤ whole a := Binary.cutOff_nonneg ha hpos
    have hword : Binary.word 64 a.toFloat = min (2 ^ 64 - 1) (whole a).toNat :=
      Binary.word_of_finite ha
    rw [hword, place, denoted, if_neg fun h ↦ hpos h.1, if_neg hle.not_gt]
    omega

theorem sliceBounds_eq (ha : a.toFloat.isFinite = true) (hb : b.toFloat.isFinite = true)
    (hl : length < 2 ^ 64) : sliceBounds [.num a, .num b] length =
      (place length a, max (place length a) (place length b)) := by
  rw [← sliceBound_eq_place ha hl 0, ← sliceBound_eq_place hb hl length]
  rfl

theorem whole_int {i : Int} (h : Value.IsWord i) : whole (.int i) = Binary.nearest i :=
  Binary.cutOff_of_isInt (Binary.isInt_float_ofInt (Value.log2_natAbs_of_isWord h))

/-- An integer denotes its place itself, for the float nearest to one that is beyond all places is
beyond them too. -/
theorem place_int {i : Int} (h : Value.IsWord i) (hl : length ≤ 2 ^ 53) :
    place length (.int i) = denoted length i := by
  have hint := Binary.isInt_float_ofInt (Value.log2_natAbs_of_isWord h)
  have hjust : ¬ JustBelow (.int i) := by
    rintro ⟨hlt, hzero⟩
    rw [whole_int h] at hzero
    rw [Number.toFloat_int, Binary.lt_zero_iff, hint.compare (.zero .positive), hzero] at hlt
    cases hlt
  rw [place, if_neg hjust, whole_int h]
  rcases Nat.le_total i.natAbs (2 ^ 53) with hi | hi
  · rw [Binary.nearest_of_le hi]
  · have hfar := Binary.le_nearestNat hi
    rw [Binary.nearest, denoted, denoted]
    rcases lt_or_ge i 0 with hneg | hpos
    · rw [Int.sign_eq_neg_one_of_neg hneg, Int.neg_one_mul, if_pos (by omega), if_pos hneg]
      omega
    · rw [Int.sign_eq_one_of_pos (by omega), Int.one_mul, if_neg (by omega), if_neg (by omega)]
      omega

/-! ## Slices of texts and of lists -/

theorem slice_text (ha : a.toFloat.isFinite = true) (hb : b.toFloat.isFinite = true) {s : String}
    (hs : s.length < 2 ^ 64) : callMethod (.str s) "slice" [.num a, .num b] =
      .ok (.str (.ofList (between (place s.length a) (place s.length b) s.toList))) := by
  rw [← String.length_toList] at hs ⊢
  rw [← slice_eq_between, ← sliceBounds_eq ha hb hs]
  rfl

theorem slice_list (ha : a.toFloat.isFinite = true) (hb : b.toFloat.isFinite = true)
    {items : List Value} (hs : items.length < 2 ^ 64) :
    callMethod (.arr items) "slice" [.num a, .num b] =
      .ok (.arr (between (place items.length a) (place items.length b) items)) := by
  rw [← slice_eq_between, ← sliceBounds_eq ha hb hs]
  rfl

/-- A slice is what stands at the places from its first bound to before its second, in order, for a
text as for a list.  A bound denotes the place of the integer that it is cut off to, but for one
just below zero, which stands for the end.  In all that has no more than `2 ^ 53` places, an integer
denotes the place of itself. -/
theorem slice_selects (env : Env) {x l r : Expr} {a b : Number} (hl : l.eval env = .ok (.num a))
    (hr : r.eval env = .ok (.num b)) (ha : a.toFloat.isFinite = true)
    (hb : b.toFloat.isFinite = true) (optionalMember optional : Bool) :
    let sliced := Expr.call (.member x "slice" optionalMember) [l, r] optional
    (∀ s, x.eval env = .ok (.str s) → s.length < 2 ^ 64 → sliced.eval env =
      .ok (.str (.ofList (between (place s.length a) (place s.length b) s.toList)))) ∧
    (∀ items, x.eval env = .ok (.arr items) → items.length < 2 ^ 64 → sliced.eval env =
      .ok (.arr (between (place items.length a) (place items.length b) items))) ∧
    ∀ length ≤ 2 ^ 53, ∀ i, Value.IsWord i → place length (.int i) = denoted length i := by
  intro sliced
  have hargs : Expr.evalItems env [l, r] = .ok [.num a, .num b] :=
    Expr.evalItems_cons hl (Expr.evalItems_cons hr Expr.evalItems_nil)
  refine ⟨?_, ?_, fun length hl i hi ↦ place_int hi hl⟩
  · intro s hx hs
    rw [Expr.eval_method hx nofun hargs, slice_text ha hb hs]
  · intro items hx hs
    rw [Expr.eval_method hx nofun hargs, slice_list ha hb hs]

/-- From the third character before the end to the end and far beyond, of a text whose characters
have one to four bytes, and of a list. -/
theorem slice_selects_last :
    let env : Env := ⟨[], 0⟩
    let a := Number.float (-3.75) (by decide)
    let b := Number.int 9007199254740993
    let sliced (v : Value) := Expr.call (.member (.literal v) "slice" false)
      [.literal (.num a), .literal (.num b)] false
    a.toFloat.isFinite = true ∧ b.toFloat.isFinite = true ∧
    (sliced (.str "aé€😀z")).eval env = .ok (.str "€😀z") ∧
    (sliced (.arr [.null, .bool true])).eval env = .ok (.arr [.null, .bool true]) ∧
    place 5 b = denoted 5 9007199254740993 := by
  intro env a b sliced
  have ha : a.toFloat.isFinite = true := by decide
  have hb : b.toFloat.isFinite = true := by decide
  have value := Expr.eval_literal env
  have slices (x : Value) := slice_selects env (x := .literal x) (value (.num a)) (value (.num b))
    ha hb false false
  have text : place 5 a = 2 ∧ place 5 b = 5 := by decide
  have list : place 2 a = 0 ∧ place 2 b = 2 := by decide
  refine ⟨ha, hb, ?_, ?_, (slices .null).2.2 5 (by norm_num) _ (by decide)⟩
  · rw [(slices (.str "aé€😀z")).1 _ (value _) (by decide)]
    rw [show "aé€😀z".length = 5 by decide, text.1, text.2]
    rfl
  · rw [(slices (.arr [.null, .bool true])).2.1 _ (value _) (by decide)]
    rw [show [Value.null, .bool true].length = 2 from rfl, list.1, list.2]
    rfl

/-- A bound just below zero stands for the end, where the integer that it is cut off to denotes the
start. -/
theorem slice_misses_start :
    let a := Number.float (-0.5) (by decide)
    let b := Number.int 3
    a.toFloat.isFinite = true ∧ whole a = 0 ∧ whole b = 3 ∧
    between (denoted 3 (whole a)) (denoted 3 (whole b)) "abc".toList = ['a', 'b', 'c'] ∧
    callMethod (.str "abc") "slice" [.num a, .num b] = .ok (.str "") ∧
    (Expr.run ⟨[], 0⟩ "'abc'.slice(-0.5, 3)").toOption.bind Value.text? = some "" := by
  intro a b
  have ha : a.toFloat.isFinite = true := by decide
  have places : place 3 a = 3 ∧ place 3 b = 3 := by decide
  refine ⟨ha, by decide, by decide, by decide, ?_, by decide +kernel⟩
  rw [slice_text ha (by decide) (by decide), show "abc".length = 3 by decide, places.1, places.2]
  rfl

end Builtin

end LivePage
