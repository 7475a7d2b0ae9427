import LivePage.Proofs.Number.Whole

/-!
# Floats that are equal

Two floats are equal where they are the same, up to the sign of a zero, and are numbers at all.  So
equality is symmetric and transitive, and each number is equal to itself: only what is no number,
`NaN`, is not.  The float of a number is always a number, even where an integer is so great that the
nearest float is infinite.
-/

namespace LivePage.Binary

open Float.Model Float.Model.UnpackedFloat

/-! ## What is no number -/

theorem unpackExponent_packedNaN :
    unpackExponent (packedNaN .binary64) = -1#(Format.binary64.exponentBits) :=
  unpackExponent_packComponents

theorem unpackMantissa_packedNaN_ne :
    unpackMantissa (packedNaN .binary64) ≠ 0#(Format.binary64.mantissaBitsWithoutImplicit) := by
  rw [packedNaN, unpackMantissa_packComponents]
  decide

/-- An infinity is not packed as `NaN`, for its mantissa is zero. -/
theorem packedInfinity_ne_packedNaN (s : Sign) :
    packedInfinity .binary64 s ≠ packedNaN .binary64 := by
  intro h
  apply unpackMantissa_packedNaN_ne
  rw [← h]
  exact unpackMantissa_packComponents

/-- What has an exponent that is not all ones is not packed as `NaN`. -/
theorem packComponents_ne_packedNaN (s : Sign) {e : BitVec Format.binary64.exponentBits}
    (m : BitVec Format.binary64.mantissaBitsWithoutImplicit)
    (h : e ≠ -1#(Format.binary64.exponentBits)) :
    packComponents .binary64 s e m ≠ packedNaN .binary64 := by
  intro hp
  apply h
  rw [← unpackExponent_packedNaN, ← hp]
  exact unpackExponent_packComponents.symm

/-- A number is packed as a number, which may be an infinity where it is too great. -/
theorem pack_ne_packedNaN {u : UnpackedFloat} (h : u ≠ .notANumber) :
    UnpackedFloat.pack .binary64 u ≠ packedNaN .binary64 := by
  cases u with
  | notANumber => exact absurd rfl h
  | infinity s => exact packedInfinity_ne_packedNaN s
  | zero s =>
    apply packComponents_ne_packedNaN
    decide
  | finite s m e hm =>
    rw [UnpackedFloat.pack]
    dsimp only
    split
    · exact packedInfinity_ne_packedNaN s
    · next hexp =>
      split
      · apply packComponents_ne_packedNaN
        intro h
        have hall := congrArg BitVec.toNat h
        rw [BitVec.toNat_ofNat, Nat.mod_eq_of_lt (by omega)] at hall
        apply hexp
        rw [hall]
        decide
      · apply packComponents_ne_packedNaN
        decide

theorem unpack_pack_ne_notANumber {u : UnpackedFloat} (h : u ≠ .notANumber) :
    (Float.Model.pack u).unpack ≠ .notANumber := by
  intro hu
  apply pack_ne_packedNaN h
  exact (unpack_eq_notANumber_iff_of_valid (Float.Model.pack u).valid).mp hu

theorem isNaN_iff {x : Float} : x.isNaN = true ↔ unpacked x = .notANumber :=
  UnpackedFloat.isNaN_iff

theorem IsInt.ne_notANumber {u : UnpackedFloat} {n : Int} (h : IsInt u n) : u ≠ .notANumber := by
  cases h with
  | zero s => nofun
  | scaled h =>
    obtain ⟨m, k, hm, rfl, -⟩ := h
    nofun

theorem roundWithAccuracy_ne_notANumber (s : Sign) (m : Nat) (e : Int) (a : Accuracy) :
    roundWithAccuracy .binary64 s m e a ≠ .notANumber := by
  rw [roundWithAccuracy]
  dsimp only
  split <;> simp

theorem ofScientific_ne_notANumber (n : Nat) :
    UnpackedFloat.ofScientific .binary64 n 0 ≠ .notANumber := by
  rw [UnpackedFloat.ofScientific]
  split
  · simp
  · rw [if_neg (by norm_num), if_neg (by norm_num), if_pos le_rfl]
    simp only [UnpackedFloat.mul]
    exact roundWithAccuracy_ne_notANumber _ _ _ _

theorem unpacked_ofNat_ne_notANumber (n : Nat) : unpacked (Float.ofNat n) ≠ .notANumber := by
  by_cases hlog : n.log2 ≤ 1022
  · exact (isInt_float_ofNat hlog).ne_notANumber
  · have hgreat : ¬ (n < 2 ^ 53 ∧ 0 ≤ 22) := by
      intro h
      have := (Nat.log2_lt (by rintro rfl; simp at hlog)).mpr h.1
      omega
    change unpacked (Float.ofScientific n false 0) ≠ _
    rw [Float.ofScientific, dif_neg hgreat]
    exact unpack_pack_ne_notANumber (ofScientific_ne_notANumber n)

theorem unpacked_ofInt_ne_notANumber (n : Int) : unpacked (Float.ofInt n) ≠ .notANumber := by
  cases n with
  | ofNat n => exact unpacked_ofNat_ne_notANumber n
  | negSucc n =>
    change (Float.Model.pack (unpacked (Float.ofNat (n + 1))).neg).unpack ≠ _
    apply unpack_pack_ne_notANumber
    have h := unpacked_ofNat_ne_notANumber (n + 1)
    revert h
    cases unpacked (Float.ofNat (n + 1)) <;> intro h
    case notANumber => exact absurd rfl h
    all_goals nofun

/-! ## Equality -/

section

variable {x y z : Float}

theorem beq_iff : (x == y) = true ↔ unpacked x ≠ .notANumber ∧ unpacked y ≠ .notANumber ∧
    (unpacked x = unpacked y ∨ unpacked x = .zero .positive ∧ unpacked y = .zero .negative ∨
      unpacked x = .zero .negative ∧ unpacked y = .zero .positive) :=
  beq_iff_ne_notANumber_and_eq _ _

theorem beq_self_iff : (x == x) = true ↔ x.isNaN = false := by
  rw [beq_iff, ← Bool.not_eq_true, isNaN_iff]
  constructor
  · exact And.left
  · intro h
    exact ⟨h, h, .inl rfl⟩

theorem beq_symm (h : (x == y) = true) : (y == x) = true := by
  rw [beq_iff] at h ⊢
  obtain ⟨hx, hy, h | h | h⟩ := h
  · exact ⟨hy, hx, .inl h.symm⟩
  · exact ⟨hy, hx, .inr (.inr h.symm)⟩
  · exact ⟨hy, hx, .inr (.inl h.symm)⟩

theorem beq_comm (x y : Float) : (x == y) = (y == x) :=
  Bool.eq_iff_iff.mpr ⟨beq_symm, beq_symm⟩

theorem beq_trans (h : (x == y) = true) (h' : (y == z) = true) : (x == z) = true := by
  rw [beq_iff] at h h' ⊢
  obtain ⟨hx, hy, h⟩ := h
  obtain ⟨-, hz, h'⟩ := h'
  refine ⟨hx, hz, ?_⟩
  rcases h with h | ⟨hp, hn⟩ | ⟨hn, hp⟩
  · rwa [h]
  · rcases h' with h' | ⟨hp', -⟩ | ⟨-, hp'⟩
    · exact .inr (.inl ⟨hp, h'.symm.trans hn⟩)
    · cases hn.symm.trans hp'
    · exact .inl (hp.trans hp'.symm)
  · rcases h' with h' | ⟨-, hn'⟩ | ⟨hn', -⟩
    · exact .inr (.inr ⟨hn, h'.symm.trans hp⟩)
    · exact .inl (hn.trans hn'.symm)
    · cases hp.symm.trans hn'

/-- Equal floats are equal to the same ones. -/
theorem beq_congr (h : (x == y) = true) (z : Float) : (x == z) = (y == z) :=
  Bool.eq_iff_iff.mpr ⟨beq_trans (beq_symm h), beq_trans h⟩

theorem isNaN_of_beq (h : (x == y) = true) : x.isNaN = false ∧ y.isNaN = false :=
  ⟨beq_self_iff.mp (beq_trans h (beq_symm h)), beq_self_iff.mp (beq_trans (beq_symm h) h)⟩

end

end LivePage.Binary

namespace LivePage.Number

/-- Every number is a number as a float. -/
theorem isNaN_toFloat (n : Number) : n.toFloat.isNaN = false := by
  rw [← Bool.not_eq_true, Binary.isNaN_iff]
  cases n with
  | int n => exact Binary.unpacked_ofInt_ne_notANumber n
  | float x h =>
    intro hx
    change (Binary.unpacked x).isFinite = true at h
    rw [show Binary.unpacked x = .notANumber from hx] at h
    cases h

end LivePage.Number
