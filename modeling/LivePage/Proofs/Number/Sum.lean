import LivePage.Expr.Eval
import LivePage.Proofs.Number.Whole

/-!
# Sums of whole numbers

The mantissas of two floats are added where their exponents are the same.  Up to `2 ^ 53` no digit
of the sum is cut off then, so natural numbers are added as they are.
-/

namespace LivePage

namespace Binary

open Float.Model Float.Model.UnpackedFloat

variable {u v : UnpackedFloat} {a b : Nat}

/-- A number that is padded with zeros is rounded where it is, without being shifted. -/
theorem isScaled_round {n i : Nat} (h : n ≠ 0) (hlo : 52 ≤ n.log2 + i) (hhi : n.log2 ≤ 1022) :
    IsScaled (UnpackedFloat.round .binary64 .positive (n * 2 ^ i) (-i)) .positive
      (nearestNat n * 2 ^ 52) := by
  have htarget : Format.binary64.targetExponent (totalExponent (n * 2 ^ i) (-i)) =
      n.log2 - 52 := by
    rw [targetExponent_eq (by rw [log2_mul_two_pow h]; omega), log2_mul_two_pow h]
    omega
  have hshift : (-(i : Int) - (n.log2 - 52)).toNat = 0 := by omega
  simp only [UnpackedFloat.round, decreaseExponent, htarget, hshift, Nat.shiftLeft_zero,
    Nat.cast_zero, sub_zero]
  exact isScaled_padded h hlo rfl hhi

/-- Mantissas that are shifted to the same exponent add up to a padded sum. -/
theorem add_padded {m m' k k' l : Nat} (h : m * 2 ^ k = a * 2 ^ 52) (h' : m' * 2 ^ k' = b * 2 ^ 52)
    (hk : l ≤ k) (hk' : l ≤ k') (hl : l ≤ 52) :
    m * 2 ^ (k - l) + m' * 2 ^ (k' - l) = (a + b) * 2 ^ (52 - l) := by
  have split (n i : Nat) (hi : l ≤ i) : n * 2 ^ i = n * 2 ^ (i - l) * 2 ^ l := by
    rw [Nat.mul_assoc, ← Nat.pow_add, Nat.sub_add_cancel hi]
  apply Nat.eq_of_mul_eq_mul_right (Nat.two_pow_pos l)
  calc (m * 2 ^ (k - l) + m' * 2 ^ (k' - l)) * 2 ^ l
      = m * 2 ^ k + m' * 2 ^ k' := by rw [Nat.add_mul, ← split m k hk, ← split m' k' hk']
    _ = (a + b) * 2 ^ 52 := by rw [h, h', Nat.add_mul]
    _ = (a + b) * 2 ^ (52 - l) * 2 ^ l := split (a + b) 52 hl

/-- The exponent of a float with 53 digits is the number of its digits before the point. -/
theorem log2_of_scaled {m k : Nat} (hm : m.log2 = 52) (ha : a ≠ 0) (h : m * 2 ^ k = a * 2 ^ 52) :
    a.log2 = k := by
  have hlog := congrArg Nat.log2 h
  rw [log2_mul_two_pow (by rintro rfl; cases hm), log2_mul_two_pow ha, hm] at hlog
  omega

/-- The sum of two mantissas has no more than 53 digits, so none of them is cut off. -/
theorem isScaled_add (hu : IsScaled u .positive (a * 2 ^ 52))
    (hv : IsScaled v .positive (b * 2 ^ 52)) (h : a + b < 2 ^ 53) :
    IsScaled (UnpackedFloat.add .binary64 u v) .positive ((a + b) * 2 ^ 52) := by
  have ha : 0 < a := hu.pos
  have hb : 0 < b := hv.pos
  obtain ⟨m, k, hm, rfl, hlog, -, hval⟩ := hu
  obtain ⟨m', k', hm', rfl, hlog', -, hval'⟩ := hv
  have hexp : a.log2 = k := log2_of_scaled hlog ha.ne' hval
  have hexp' : b.log2 = k' := log2_of_scaled hlog' hb.ne' hval'
  have hsize : (a + b).log2 < 53 := (Nat.log2_lt (by omega)).mpr h
  have hle : k ≤ (a + b).log2 := by
    rw [Nat.le_log2 (by omega), ← hexp]
    exact (Nat.log2_self_le ha.ne').trans (Nat.le_add_right a b)
  have hle' : k' ≤ (a + b).log2 := by
    rw [Nat.le_log2 (by omega), ← hexp']
    exact (Nat.log2_self_le hb.ne').trans (Nat.le_add_left b a)
  obtain ⟨l, hl⟩ : ∃ l, l = min k k' := ⟨_, rfl⟩
  have hmin : min ((k : Int) - 52) (k' - 52) = -((52 - l : Nat) : Int) := by omega
  have hshift : ((k : Int) - 52 - -((52 - l : Nat) : Int)).toNat = k - l := by omega
  have hshift' : ((k' : Int) - 52 - -((52 - l : Nat) : Int)).toNat = k' - l := by omega
  have hsum := add_padded hval hval' (l := l) (by omega) (by omega) (by omega)
  have hpos : 0 < (a + b) * 2 ^ (52 - l) := Nat.mul_pos (by omega) (Nat.two_pow_pos _)
  have hcmp : compare (((a + b) * 2 ^ (52 - l) : Nat) : Int) 0 = .gt := by
    rw [compare_gt_iff_gt]
    omega
  simp only [UnpackedFloat.add, decreaseExponent, Sign.apply, hmin, hshift, hshift',
    Nat.shiftLeft_eq, ← Int.natCast_add, hsum]
  rw [UnpackedFloat.normalize, hcmp]
  have hscaled := isScaled_round (n := a + b) (i := 52 - l) (by omega) (by omega) (by omega)
  rwa [nearestNat_of_le h.le] at hscaled

/-- A float that is a natural number is a zero, or has no sign. -/
theorem IsInt.cases_natCast (h : IsInt u a) :
    (a = 0 ∧ ∃ s, u = .zero s) ∨ IsScaled u .positive (a * 2 ^ 52) := by
  generalize ha : (a : Int) = i at h
  cases h with
  | zero s => exact .inl ⟨Int.natCast_eq_zero.mp ha, s, rfl⟩
  | @scaled _ s n h =>
    cases s with
    | negative =>
      have := h.pos
      rw [Sign.apply] at ha
      omega
    | positive =>
      obtain rfl : a = n := Int.natCast_inj.mp ha
      exact .inr h

theorem isInt_add (hu : IsInt u a) (hv : IsInt v b) (h : a + b < 2 ^ 53) :
    IsInt (UnpackedFloat.add .binary64 u v) (a + b : Nat) := by
  rcases hu.cases_natCast with ⟨rfl, s, rfl⟩ | hu
  · rcases hv.cases_natCast with ⟨rfl, s', rfl⟩ | hv
    · simp only [UnpackedFloat.add]
      split <;> exact .zero _
    · obtain ⟨m, k, hm, rfl, hrest⟩ := hv
      rw [Nat.zero_add]
      exact .scaled ⟨m, k, hm, rfl, hrest⟩
  · rcases hv.cases_natCast with ⟨rfl, s', rfl⟩ | hv
    · obtain ⟨m, k, hm, rfl, hrest⟩ := hu
      exact .scaled ⟨m, k, hm, rfl, hrest⟩
    · exact .scaled (isScaled_add hu hv h)

/-- A natural number below `2 ^ 53` is itself as a float. -/
theorem isInt_natCast {n : Nat} (h : n < 2 ^ 53) : IsInt (unpacked (Float.ofInt n)) n := by
  have hlog : (n : Int).natAbs.log2 ≤ 1022 := by
    rw [Int.natAbs_natCast]
    rcases Nat.eq_zero_or_pos n with rfl | hpos
    · decide
    · have : n.log2 < 53 := (Nat.log2_lt hpos.ne').mpr h
      omega
  have hint := isInt_float_ofInt hlog
  rwa [nearest_of_le (by rw [Int.natAbs_natCast]; exact h.le)] at hint

end Binary

namespace Expr

/-- Natural numbers whose sum is below `2 ^ 53` are added as they are. -/
theorem applyBinary_add_nat {a b : Nat} (h : a + b < 2 ^ 53) :
    applyBinary .add (.nat a) (.nat b) = .ok (.nat (a + b)) := by
  have hsum := Binary.isInt_add (Binary.isInt_natCast (n := a) (by omega))
    (Binary.isInt_natCast (n := b) (by omega)) h
  have hadd : Binary.IsInt (Binary.unpacked (Float.ofInt a + Float.ofInt b)) (a + b : Nat) := by
    rw [← hsum.unpack_pack] at hsum
    exact hsum
  have hvalue := Value.ofFloat_of_whole (Binary.whole?_of_isInt hadd) h
  exact congrArg Except.ok hvalue

end Expr

end LivePage
