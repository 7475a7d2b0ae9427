import LivePage.Expr.Eval
import LivePage.Proofs.Number.Nearest

/-!
# Floats that are whole numbers

The parts that a float is taken apart into are those of its model.  So the float of an integer of up
to 53 digits is read as that integer, in an expression as anywhere else.
-/

namespace LivePage.Binary

open Float.Model Float.Model.UnpackedFloat

/-- Whether a sign is a minus. -/
def isNegative : Sign → Bool
  | .negative => true
  | .positive => false

theorem signed_isNegative (s : Sign) (n : Nat) : signed (isNegative s) n = s.apply n := by
  cases s <;> rfl

section

variable (b : UInt64)

theorem toNat_unpackMantissa :
    (@unpackMantissa .binary64 b.toBitVec).toNat = (b &&& 0xfffffffffffff).toNat := by
  have mask : (0xfffffffffffff : UInt64).toNat = 2 ^ 52 - 1 := by decide
  rw [UInt64.toNat_and, mask, Nat.and_two_pow_sub_one_eq_mod]
  simp [unpackMantissa, BitVec.extractLsb]

theorem toNat_unpackExponent :
    (@unpackExponent .binary64 b.toBitVec).toNat = ((b >>> 52) &&& 0x7ff).toNat := by
  have mask : (0x7ff : UInt64).toNat = 2 ^ 11 - 1 := by decide
  rw [UInt64.toNat_and, mask, Nat.and_two_pow_sub_one_eq_mod]
  simp [unpackExponent, BitVec.extractLsb]

theorem isNegative_unpackSign :
    isNegative (Sign.ofBitVec (@unpackSign .binary64 b.toBitVec)) = (b >>> 63 == 1) := by
  have bit : (@unpackSign .binary64 b.toBitVec).toNat = (b >>> 63).toNat := by
    simp [unpackSign, BitVec.extractLsb]
    have := b.toNat_lt
    omega
  have small : (b >>> 63).toNat < 2 := by
    rw [← bit]
    exact BitVec.isLt _
  rw [Sign.ofBitVec]
  split
  · next h =>
    rw [h] at bit
    have : b >>> 63 ≠ 1 := fun e ↦ by simp [e] at bit
    simp [isNegative, this]
  · next h =>
    have : (b >>> 63).toNat ≠ 0 := fun e ↦ h (BitVec.eq_of_toNat_eq (bit.trans e))
    have : b >>> 63 = 1 := UInt64.toNat_inj.mp (show (b >>> 63).toNat = 1 by omega)
    simp [isNegative, this]

end

/-- The parts of what a float is made of. -/
def Parts.ofUnpacked : UnpackedFloat → Parts
  | .notANumber => .nan
  | .infinity s => .infinite (isNegative s)
  | .zero s => .finite (isNegative s) 0 (-1074)
  | .finite s m e _ => .finite (isNegative s) m e

theorem parts_eq (x : Float) : parts x = .ofUnpacked (unpacked x) := by
  have exponent := toNat_unpackExponent x.toBits
  have mantissa := toNat_unpackMantissa x.toBits
  have sign := isNegative_unpackSign x.toBits
  have leading (f : BitVec 52) : (1#1 ++ f).toNat = f.toNat + Nat.pow 2 52 := by
    rw [BitVec.toNat_append, ← Nat.shiftLeft_add_eq_or_of_lt f.isLt, Nat.add_comm]
    rfl
  have zero {n : Nat} (f : BitVec n) : f = 0#n ↔ f.toNat = 0 := by simp [← BitVec.toNat_inj]
  have ones (e : BitVec 11) : e = -1#11 ↔ e.toNat = 0x7ff := by rw [← BitVec.toNat_inj]; rfl
  have bits : parts x = .ofBits x.toBits := rfl
  rw [Parts.ofBits, ← exponent, ← mantissa, ← sign] at bits
  change parts x = .ofUnpacked (UnpackedFloat.unpack .binary64 x.toBits.toBitVec)
  unfold UnpackedFloat.unpack
  dsimp only
  split
  case isTrue hones =>
    have hones := (ones _).mp hones
    split
    case isTrue hzero => rw [bits, if_pos hones, if_pos ((zero _).mp hzero), Parts.ofUnpacked]
    case isFalse hzero => rw [bits, if_pos hones, if_neg (hzero ∘ (zero _).mpr), Parts.ofUnpacked]
  case isFalse hones =>
    have hones := hones ∘ (ones _).mpr
    split
    case isTrue hleast =>
      have hleast := (zero _).mp hleast
      split
      case isTrue hzero =>
        rw [bits, if_neg hones, if_pos hleast, (zero _).mp hzero, Parts.ofUnpacked]
      case isFalse => 
        rw [bits, if_neg hones, if_pos hleast, Parts.ofUnpacked, hleast]
        rfl
    case isFalse hleast =>
      rw [bits, if_neg hones, if_neg (hleast ∘ (zero _).mpr), Parts.ofUnpacked, leading]
      rfl

theorem split_zero (e : Int) : split 0 e = (0, false) := by
  cases e with
  | ofNat e => exact congrArg (·, false) (Nat.zero_mul _)
  | negSucc e => simp only [split, Nat.zero_div, Nat.zero_mod, bne_self_eq_false]

/-- Nothing but zeros follows the point of an integer. -/
theorem split_of_scaled {m n k : Nat} (h : m * 2 ^ k = n * 2 ^ 52) :
    split m ((k : Int) - 52) = (n, false) := by
  cases hexp : (k : Int) - 52 with
  | ofNat e =>
    have hk : k = e + 52 := by rw [Int.ofNat_eq_natCast] at hexp; omega
    have hn : m * 2 ^ e = n := by
      refine Nat.eq_of_mul_eq_mul_right (Nat.two_pow_pos 52) ?_
      rw [← h, hk, Nat.pow_add, Nat.mul_assoc]
    exact congrArg (·, false) hn
  | negSucc e =>
    have hk : e + 1 + k = 52 := by omega
    have hm : m = n * 2 ^ (e + 1) := by
      refine Nat.eq_of_mul_eq_mul_right (Nat.two_pow_pos k) ?_
      rw [h, Nat.mul_assoc, ← Nat.pow_add, hk]
    have hdiv : m / 2 ^ (e + 1) = n := by rw [hm, Nat.mul_div_cancel _ (Nat.two_pow_pos _)]
    have hmod : m % 2 ^ (e + 1) = 0 := by rw [hm, Nat.mul_mod_left]
    change (m / 2 ^ (e + 1), m % 2 ^ (e + 1) != 0) = _
    rw [hdiv, hmod]
    rfl

theorem whole?_of_isInt {x : Float} {n : Int} (h : IsInt (unpacked x) n) : whole? x = some n := by
  rw [whole?, parts_eq]
  generalize unpacked x = u at h
  cases h with
  | zero s =>
    simp only [Parts.ofUnpacked, split_zero, Bool.false_eq_true, if_false, signed_isNegative]
    cases s <;> rfl
  | @scaled _ s n h =>
    obtain ⟨m, k, hm, rfl, -, -, hv⟩ := h
    simp only [Parts.ofUnpacked, split_of_scaled hv, signed_isNegative, Bool.false_eq_true,
      if_false]

/-- An integer of up to 53 digits is the float that it is converted to. -/
theorem whole?_ofInt {n : Int} (h : n.natAbs ≤ 2 ^ 53) : whole? (Float.ofInt n) = some n := by
  have hlog : n.natAbs.log2 ≤ 1022 := by
    rcases Nat.eq_zero_or_pos n.natAbs with hzero | hpos
    · simp [hzero]
    · have := (Nat.log2_lt hpos.ne').mpr (h.trans_lt (by norm_num : 2 ^ 53 < 2 ^ 54))
      omega
  rw [whole?_of_isInt (isInt_float_ofInt hlog), nearest_of_le h]

/-- A numeral without a point and an exponent is the float of the number that it spells. -/
theorem whole?_scientific {n : Nat} (h : n < 2 ^ 53) :
    whole? (Decimal.scientific n 0) = some (n : Int) := by
  rcases Nat.eq_zero_or_pos n with rfl | hpos
  · have hzero : unpacked (Decimal.scientific 0 0) = .zero .positive := rfl
    exact whole?_of_isInt (hzero ▸ .zero .positive)
  · have hlog : n.log2 < 53 := (Nat.log2_lt hpos.ne').mpr h
    rw [Decimal.scientific, if_neg hpos.ne', if_neg (by omega), if_neg (by omega)]
    exact whole?_ofInt (n := n) h.le

end LivePage.Binary

namespace LivePage.Value

/-- An integer of up to 53 digits is an integer as a value. -/
theorem ofFloat_of_whole {x : Float} {n : Int} (h : Binary.whole? x = some n)
    (hn : n.natAbs < 2 ^ 53) : ofFloat x = .int n := by
  have hsafe : Binary.safeInteger? x = some n := by
    rw [Binary.safeInteger?, h]
    refine Option.filter_some_pos (decide_eq_true ?_)
    rw [Binary.maxSafe]
    omega
  rw [ofFloat, hsafe]

/-- The position that an integer stands for is the integer itself. -/
theorem position?_int {i : Nat} (h : i < 2 ^ 53) : position? (.int i) = some i := by
  rw [position?, Number.toFloat_int, Binary.whole?_ofInt (n := i) h.le, Option.bind_some,
    if_pos (Int.natCast_nonneg i), Int.toNat_natCast]

end LivePage.Value
