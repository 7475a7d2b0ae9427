import Mathlib
import LivePage.Decimal.Layout

/-!
# Rounding to 53 digits

The result of an operation on floats is shifted to its place before it is packed, and two bits keep
what is cut off.  After the shift these bits and the mantissa are a division with remainder, so the
rounded mantissa is the quotient, or the number after it where more than half is left, or just half
and the quotient is odd.
-/

namespace LivePage.Binary

open Decimal Float.Model Float.Model.UnpackedFloat

/-! ## Division that rounds -/

theorem roundDiv_one (n : Nat) : roundDiv n 1 = n := by simp [roundDiv, Nat.mod_one]

theorem div_le_roundDiv (n d : Nat) : n / d ≤ roundDiv n d := by
  simp only [roundDiv]
  split <;> omega

theorem roundDiv_le (n d : Nat) : roundDiv n d ≤ n / d + 1 := by
  simp only [roundDiv]
  split <;> omega

theorem roundDiv_mul_right {c : Nat} (h : 0 < c) (n d : Nat) :
    roundDiv (n * c) (d * c) = roundDiv n d := by
  have hlt : 2 * (n % d * c) < d * c ↔ 2 * (n % d) < d := by
    rw [← Nat.mul_assoc, Nat.mul_lt_mul_right h]
  have heq : 2 * (n % d * c) = d * c ↔ 2 * (n % d) = d := by
    rw [← Nat.mul_assoc, Nat.mul_left_inj h.ne']
  simp only [roundDiv, Nat.mul_div_mul_right _ _ h, Nat.mul_mod_mul_right, hlt, heq]

/-- Zeros that are put behind a number are cut off again. -/
theorem roundDiv_mul_two_pow (n j : Nat) : roundDiv (n * 2 ^ j) (2 ^ j) = n := by
  have := roundDiv_mul_right (Nat.two_pow_pos j) n 1
  rwa [Nat.one_mul, roundDiv_one] at this

/-- The quotient of a number with 53 digits in front of the point has as many, or the next power of
two is reached. -/
theorem roundDiv_bounds {m j : Nat} (hm : m.log2 = 52 + j) :
    2 ^ 52 ≤ roundDiv m (2 ^ j) ∧ roundDiv m (2 ^ j) ≤ 2 ^ 53 := by
  have hm0 : m ≠ 0 := by
    rintro rfl
    rw [Nat.log2_zero] at hm
    omega
  constructor
  · refine le_trans ?_ (div_le_roundDiv m _)
    rw [Nat.le_div_iff_mul_le (Nat.two_pow_pos j), ← Nat.pow_add, ← hm]
    exact Nat.log2_self_le hm0
  · refine (roundDiv_le m _).trans ?_
    rw [Nat.succ_le_iff, Nat.div_lt_iff_lt_mul (Nat.two_pow_pos j), ← Nat.pow_add]
    have := Nat.lt_log2_self (n := m)
    rwa [hm, show 52 + j + 1 = 53 + j by omega] at this

/-! ## Shifted mantissas -/

/-- A mantissa with its residual bits stands for `m / 2 ^ k`. -/
def Tracks (em : ExtendedMantissa) (m k : Nat) : Prop :=
  ∃ r, m = em.mantissa * 2 ^ k + r ∧
    match em.roundBit, em.stickyBit with
    | false, false => r = 0
    | false, true => 0 < r ∧ 2 * r < 2 ^ k
    | true, false => 2 * r = 2 ^ k
    | true, true => 2 ^ k < 2 * r ∧ r < 2 ^ k

theorem tracks_exact (m : Nat) : Tracks ⟨m, false, false⟩ m 0 := ⟨0, by simp, rfl⟩

theorem Tracks.shiftRightOne {em : ExtendedMantissa} {m k : Nat} (h : Tracks em m k) :
    Tracks em.shiftRightOne m (k + 1) := by
  obtain ⟨a, round, sticky⟩ := em
  obtain ⟨r, hm, hr⟩ := h
  have hpos : 0 < 2 ^ k := Nat.two_pow_pos k
  have hpow : 2 ^ (k + 1) = 2 * 2 ^ k := Nat.pow_succ'
  have hsplit : a * 2 ^ k = a / 2 * 2 ^ (k + 1) + a % 2 * 2 ^ k := by
    conv_lhs => rw [← Nat.div_add_mod a 2]
    ring
  refine ⟨a % 2 * 2 ^ k + r, ?_, ?_⟩
  · change m = a / 2 * 2 ^ (k + 1) + (a % 2 * 2 ^ k + r)
    simp only at hm
    omega
  -- the digit that is cut off becomes the round bit, and both bits before it the sticky one
  · rcases Nat.mod_two_eq_zero_or_one a with ha | ha
    all_goals cases round <;> cases sticky
    all_goals
      simp only [ExtendedMantissa.shiftRightOne, ha, hpow] at hr ⊢
      simp only [bne_self_eq_false, Nat.reduceBNe, Bool.or_self, Bool.or_true, Bool.or_false]
      omega

theorem Tracks.shiftRight {em : ExtendedMantissa} {m k : Nat} (h : Tracks em m k) (n : Nat) :
    Tracks (em >>> n) m (k + n) := by
  induction n with
  | zero => exact h
  | succ n ih => exact ih.shiftRightOne

theorem Tracks.roundedMantissa {em : ExtendedMantissa} {m k : Nat} (h : Tracks em m k) :
    em.roundedMantissa = roundDiv m (2 ^ k) := by
  obtain ⟨a, round, sticky⟩ := em
  obtain ⟨r, hm, hr⟩ := h
  have hpos : 0 < 2 ^ k := Nat.two_pow_pos k
  have hlt : r < 2 ^ k := by
    cases round <;> cases sticky <;> simp only at hr <;> omega
  have hq : m / 2 ^ k = a := by
    rw [hm, Nat.mul_comm, Nat.mul_add_div hpos, Nat.div_eq_of_lt hlt, Nat.add_zero]
  have hmod : m % 2 ^ k = r := by
    rw [hm, Nat.mul_comm, Nat.mul_add_mod, Nat.mod_eq_of_lt hlt]
  simp only [roundDiv, hq, hmod]
  cases round <;> cases sticky <;> simp only at hr
  · rw [if_pos (by omega)]
    rfl
  · rw [if_pos (by omega)]
    rfl
  · change a + a % 2 = _
    split <;> omega
  · rw [if_neg (by omega)]
    rfl

/-! ## Rounded floats -/

/-- An unpacked float is `± v / 2 ^ 52`, with its leading digit in the place of `2 ^ 52`, so that
two of them are ordered by their exponents first. -/
def IsScaled (u : UnpackedFloat) (s : Sign) (v : Nat) : Prop :=
  ∃ m k hm, u = .finite s m ((k : Nat) - 52) hm ∧ m.log2 = 52 ∧ k ≤ 1023 ∧ m * 2 ^ k = v

theorem shiftToTargetExponent_eq {m : Nat} {e : Int} (k : Nat)
    (h : Format.binary64.targetExponent (totalExponent m e) - e = k) :
    shiftToTargetExponent .binary64 m e .exact =
      ((⟨m, false, false⟩ : ExtendedMantissa) >>> k, e + k) := by
  simp only [shiftToTargetExponent, shiftToExponent, h, Int.toNat_natCast,
    ExtendedMantissa.ofMantissaAndAccuracy]

theorem targetExponent_eq {m : Nat} {e : Int} (h : -1074 ≤ e + m.log2 - 52) :
    Format.binary64.targetExponent (totalExponent m e) = e + m.log2 - 52 := by
  simp only [Format.targetExponent, totalExponent, Format.mantissaBits, Format.minExponent]
  omega

/-- Rounding is two shifts with a carry between them. -/
theorem roundWithAccuracy_eq (s : Sign) {m n : Nat} {e f g : Int} {em em' : ExtendedMantissa}
    (h : shiftToTargetExponent .binary64 m e .exact = (em, f)) (hn : em.roundedMantissa = n)
    (h' : shiftToTargetExponent .binary64 n f .exact = (em', g)) (hpos : 0 < em'.mantissa) :
    roundWithAccuracy .binary64 s m e .exact = .finite s em'.mantissa g hpos := by
  subst hn
  simp only [roundWithAccuracy, h, h', dif_neg hpos.ne']

/-- Rounding leaves the 53 leading digits of a mantissa, rounded to the nearest. -/
theorem isScaled_roundWithAccuracy (s : Sign) {m j k : Nat} {e : Int} (hm : m.log2 = 52 + j)
    (he : e + j = k - 52) (hk : k ≤ 1022) :
    IsScaled (roundWithAccuracy .binary64 s m e .exact) s (roundDiv m (2 ^ j) * 2 ^ k) := by
  obtain ⟨hlo, hhi⟩ := roundDiv_bounds hm
  have hfirst : shiftToTargetExponent .binary64 m e .exact =
      ((⟨m, false, false⟩ : ExtendedMantissa) >>> j, e + j) :=
    shiftToTargetExponent_eq j (by rw [targetExponent_eq (by omega)]; omega)
  have hround : ((⟨m, false, false⟩ : ExtendedMantissa) >>> j).roundedMantissa =
      roundDiv m (2 ^ j) := by
    have h := (tracks_exact m).shiftRight j
    rw [Nat.zero_add] at h
    exact h.roundedMantissa
  -- the carry of rounding may add a digit, which the second shift takes away
  rcases hhi.lt_or_eq with hhi | hhi
  · have hlog : (roundDiv m (2 ^ j)).log2 = 52 := (Nat.log2_eq_iff (by omega)).mpr ⟨hlo, hhi⟩
    have hsecond := shiftToTargetExponent_eq (m := roundDiv m (2 ^ j)) (e := e + j) 0
      (by rw [targetExponent_eq (by omega)]; omega)
    refine ⟨roundDiv m (2 ^ j), k, by omega, ?_, hlog, by omega, rfl⟩
    rw [roundWithAccuracy_eq s hfirst hround hsecond (by change 0 < roundDiv m (2 ^ j); omega), he]
    simp only [Nat.cast_zero, add_zero]
    rfl
  · have hlog : (roundDiv m (2 ^ j)).log2 = 53 := by rw [hhi, Nat.log2_two_pow]
    have hsecond := shiftToTargetExponent_eq (m := roundDiv m (2 ^ j)) (e := e + j) 1
      (by rw [targetExponent_eq (by omega)]; omega)
    have hhalf : ((⟨roundDiv m (2 ^ j), false, false⟩ : ExtendedMantissa) >>> 1).mantissa =
        2 ^ 52 := by
      change roundDiv m (2 ^ j) / 2 = 2 ^ 52
      omega
    refine ⟨2 ^ 52, k + 1, by norm_num, ?_, Nat.log2_two_pow, by omega, by rw [hhi]; ring⟩
    rw [roundWithAccuracy_eq s hfirst hround hsecond (by omega)]
    congr 1
    push_cast
    omega

/-! ## Packed floats -/

theorem ofBitVec_unpackSign (s : Sign) (e : BitVec 11) (m : BitVec 52) :
    Sign.ofBitVec (unpackSign (packComponents .binary64 s e m)) = s := by
  simp only [unpackSign, packComponents, BitVec.extractLsb]
  rw [BitVec.extractLsb'_append_eq_of_le (by omega), BitVec.extractLsb'_append_eq_of_le (by omega)]
  cases s <;> rfl

/-- A float with a leading digit is not changed by being packed. -/
theorem IsScaled.unpack_pack {u : UnpackedFloat} {s : Sign} {v : Nat} (h : IsScaled u s v) :
    (Float.Model.pack u).unpack = u := by
  obtain ⟨m, k, hm, rfl, hlog, hk, -⟩ := h
  have hlt : m < 2 ^ 53 := (Nat.log2_lt hm.ne').mp (by omega)
  have hge : 2 ^ 52 ≤ m := (Nat.le_log2 hm.ne').mp hlog.ge
  have hbias : (((k : Nat) - 52 : Int) + Format.binary64.exponentBias +
      Format.binary64.mantissaBitsWithoutImplicit).toNat = k + 1023 := by
    simp only [Format.exponentBias]
    omega
  have hunbias : ((k + 1023 : Nat) : Int) - (Format.binary64.exponentBias +
      Format.binary64.mantissaBitsWithoutImplicit) = (k : Nat) - 52 := by
    simp only [Format.exponentBias]
    omega
  have hexp : (BitVec.ofNat 11 (k + 1023)).toNat = k + 1023 := by
    rw [BitVec.toNat_ofNat, Nat.mod_eq_of_lt (by omega)]
  have hne {b : BitVec 11} (hb : b.toNat ≠ k + 1023) : BitVec.ofNat 11 (k + 1023) ≠ b :=
    fun h ↦ hb (h ▸ hexp)
  have hmant : (1#1 ++ BitVec.ofNat 52 m).toNat = m := by
    rw [BitVec.toNat_append, ← Nat.shiftLeft_add_eq_or_of_lt (BitVec.ofNat 52 m).isLt,
      BitVec.toNat_ofNat, Nat.shiftLeft_eq]
    simp only [BitVec.toNat_ofNat]
    omega
  have hpack : UnpackedFloat.pack .binary64 (.finite s m (k - 52) hm) =
      packComponents .binary64 s (BitVec.ofNat 11 (k + 1023)) (BitVec.ofNat 52 m) := by
    rw [UnpackedFloat.pack]
    simp only [hlog, hbias]
    rw [if_neg (by omega), if_pos (by simp only [Format.mantissaBits])]
  change UnpackedFloat.unpack .binary64 (UnpackedFloat.pack .binary64 _) = _
  rw [hpack, UnpackedFloat.unpack]
  simp only [unpackMantissa_packComponents, unpackExponent_packComponents, ofBitVec_unpackSign]
  rw [if_neg (hne (by simp; omega)), if_neg (hne (by simp))]
  simp only [hmant, hexp, hunbias]

end LivePage.Binary
