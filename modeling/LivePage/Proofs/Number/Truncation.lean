import LivePage.Proofs.Number.Comparison

/-!
# Numbers cut off toward zero

A number is cut off at its point, on either side of zero.  Taking the negative of a float changes
nothing but its sign, so a number below zero is cut off as the number above zero is.
-/

namespace LivePage

namespace Binary

open Float.Model Float.Model.UnpackedFloat

/-! ## The negative of a float -/

section

variable {b : BitVec Format.binary64.numBits}

/-- The bits of a float with the other sign. -/
def flipped (b : BitVec Format.binary64.numBits) : BitVec Format.binary64.numBits :=
  packComponents .binary64 (-(Sign.ofBitVec (unpackSign b))) (unpackExponent b) (unpackMantissa b)

theorem unpack_flipped (h : UnpackedFloat.unpack .binary64 b ≠ .notANumber) :
    UnpackedFloat.unpack .binary64 (flipped b) = (UnpackedFloat.unpack .binary64 b).neg := by
  revert h
  unfold UnpackedFloat.unpack
  simp only [flipped, unpackMantissa_packComponents, unpackExponent_packComponents,
    ofBitVec_unpackSign]
  intro h
  split
  · split
    · rfl
    · next hexp hmant => exact absurd (by rw [if_pos hexp, if_neg hmant]) h
  · split
    · split <;> rfl
    · rfl

theorem valid_flipped (h : UnpackedFloat.unpack .binary64 b ≠ .notANumber) :
    Format.binary64.Valid (flipped b) := by
  constructor
  rw [flipped, unpackExponent_packComponents, unpackMantissa_packComponents]
  intro hexp hmant
  apply absurd _ h
  unfold UnpackedFloat.unpack
  dsimp only
  rw [if_pos hexp, if_neg hmant]

end

theorem unpacked_neg (x : Float) : unpacked (-x) = (unpacked x).neg := by
  change (Float.Model.pack (unpacked x).neg).unpack = _
  by_cases h : unpacked x = .notANumber
  · rw [h]
    exact unpack_packedNaN
  · change UnpackedFloat.unpack .binary64 (UnpackedFloat.pack .binary64 (unpacked x).neg) = _
    have hflip : UnpackedFloat.unpack .binary64 (flipped x.toModel.toBits.toBitVec) =
        (unpacked x).neg := unpack_flipped h
    rw [← hflip, pack_unpack_of_valid (valid_flipped h)]

/-! ## Cutting off -/

/-- The integer that a finite float is cut off to. -/
def cutOff (x : Float) : Int := (truncate? x).getD 0

section

variable {x : Float} {s : Sign} {m : Nat} {e : Int} {hm : 0 < m}

theorem finite_cases (h : x.isFinite = true) :
    (∃ s, unpacked x = .zero s) ∨ ∃ s m e hm, unpacked x = .finite s m e hm := by
  change (unpacked x).isFinite = true at h
  revert h
  cases unpacked x with
  | zero s => exact fun _ ↦ .inl ⟨s, rfl⟩
  | finite s m e hm => exact fun _ ↦ .inr ⟨s, m, e, hm, rfl⟩
  | _ => nofun

theorem cutOff_of_zero (h : unpacked x = .zero s) : cutOff x = 0 := by
  rw [cutOff, truncate?, parts_eq, h, Parts.ofUnpacked]
  simp only [split_zero, Option.getD_some, signed_isNegative]
  cases s <;> rfl

theorem cutOff_of_finite (h : unpacked x = .finite s m e hm) :
    cutOff x = s.apply (split m e).1 := by
  rw [cutOff, truncate?, parts_eq, h, Parts.ofUnpacked]
  simp only [Option.getD_some, signed_isNegative]

theorem clamp_of_finite {lo hi : Int} (h : x.isFinite = true) :
    clamp lo hi x = max lo (min hi (cutOff x)) := by
  rcases finite_cases h with ⟨s, h⟩ | ⟨s, m, e, hm, h⟩
  · rw [cutOff_of_zero h, clamp, parts_eq, h, Parts.ofUnpacked]
    simp only [split_zero, signed_isNegative]
    cases s <;> rfl
  · rw [cutOff_of_finite h, clamp, parts_eq, h, Parts.ofUnpacked]
    simp only [signed_isNegative]

/-- A word holds what is before the point, as far as it reaches. -/
theorem word_of_finite {bits : Nat} (h : x.isFinite = true) :
    word bits x = min (2 ^ bits - 1) (cutOff x).toNat := by
  rw [word, clamp_of_finite h]
  change (max 0 (min ((2 ^ bits - 1 : Nat) : Int) (cutOff x))).toNat = _
  omega

theorem lt_zero_iff : x < 0.0 ↔ (unpacked x).compare (.zero .positive) = some .lt := by
  change decide (((unpacked x).compare (unpacked 0.0) == some .lt) = true) = true ↔ _
  rw [decide_eq_true_iff, beq_iff_eq]
  rfl

theorem lt_zero_iff_of_finite (h : unpacked x = .finite s m e hm) : x < 0.0 ↔ s = .negative := by
  rw [lt_zero_iff, h]
  cases s <;> simp [UnpackedFloat.compare]

theorem not_lt_zero_of_zero (h : unpacked x = .zero s) : ¬ x < 0.0 := by
  rw [lt_zero_iff, h]
  nofun

theorem isFinite_neg : (-x).isFinite = x.isFinite := by
  change (unpacked (-x)).isFinite = (unpacked x).isFinite
  rw [unpacked_neg]
  cases unpacked x <;> rfl

theorem cutOff_neg (h : x.isFinite = true) : cutOff (-x) = -cutOff x := by
  rcases finite_cases h with ⟨s, h⟩ | ⟨s, m, e, hm, h⟩
  · rw [cutOff_of_zero h, cutOff_of_zero ((unpacked_neg x).trans (congrArg UnpackedFloat.neg h)),
      Int.neg_zero]
  · rw [cutOff_of_finite h,
      cutOff_of_finite ((unpacked_neg x).trans (congrArg UnpackedFloat.neg h))]
    cases s
    · exact (Int.neg_neg _).symm
    · rfl

theorem cutOff_nonneg (h : x.isFinite = true) (hx : ¬ x < 0.0) : 0 ≤ cutOff x := by
  rcases finite_cases h with ⟨s, h⟩ | ⟨s, m, e, hm, h⟩
  · rw [cutOff_of_zero h]
  · rw [lt_zero_iff_of_finite h] at hx
    rw [cutOff_of_finite h]
    cases s
    · exact absurd rfl hx
    · exact Int.natCast_nonneg _

theorem cutOff_nonpos (h : x.isFinite = true) (hx : x < 0.0) : cutOff x ≤ 0 := by
  rcases finite_cases h with ⟨s, h⟩ | ⟨s, m, e, hm, h⟩
  · exact absurd hx (not_lt_zero_of_zero h)
  · rw [cutOff_of_finite h, (lt_zero_iff_of_finite h).mp hx]
    exact Int.neg_nonpos_of_nonneg (Int.natCast_nonneg _)

theorem cutOff_of_isInt {n : Int} (h : IsInt (unpacked x) n) : cutOff x = n := by
  have hw := whole?_of_isInt h
  revert hw
  rw [cutOff, truncate?, whole?]
  split
  · dsimp only
    split
    · simp
    · exact Option.some.inj
  · simp

theorem isFinite_of_isInt {n : Int} (h : IsInt (unpacked x) n) : x.isFinite = true := by
  change (unpacked x).isFinite = true
  revert h
  generalize unpacked x = u
  intro h
  cases h with
  | zero s => rfl
  | scaled h =>
    obtain ⟨m, k, hm, rfl, -⟩ := h
    rfl

end

end Binary

end LivePage
