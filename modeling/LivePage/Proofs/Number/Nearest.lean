import LivePage.Proofs.Number.Rounding

/-!
# Integers as floats

An integer is converted to the float of its 53 leading digits, rounded to the nearest.  Floats that
are integers are in the order of these: all have the same number of digits, so their exponents are
compared first.
-/

namespace LivePage.Binary

open Decimal Float.Model Float.Model.UnpackedFloat

/-! ## Natural numbers as floats -/

theorem log2_mul_two_pow {n : Nat} (h : n ≠ 0) (i : Nat) : (n * 2 ^ i).log2 = n.log2 + i := by
  have hpos : 0 < 2 ^ i := Nat.two_pow_pos i
  refine (Nat.log2_eq_iff (Nat.mul_ne_zero h hpos.ne')).mpr ⟨?_, ?_⟩
  · rw [Nat.pow_add]
    exact Nat.mul_le_mul_right _ (Nat.log2_self_le h)
  · rw [Nat.add_right_comm, Nat.pow_add]
    exact Nat.mul_lt_mul_of_pos_right Nat.lt_log2_self hpos

/-- A natural number with all but its 53 leading digits rounded to the nearest, and to the even
one of two. -/
def nearestNat (n : Nat) : Nat :=
  roundDiv n (2 ^ (n.log2 - 52)) * 2 ^ (n.log2 - 52)

theorem nearestNat_of_log2_le {n : Nat} (h : n.log2 ≤ 52) : nearestNat n = n := by
  rw [nearestNat, Nat.sub_eq_zero_of_le h, Nat.pow_zero, roundDiv_one, Nat.mul_one]

theorem nearestNat_of_le {n : Nat} (h : n ≤ 2 ^ 53) : nearestNat n = n := by
  rcases h.lt_or_eq with h | rfl
  · rcases Nat.eq_zero_or_pos n with rfl | hpos
    · rfl
    · have := (Nat.log2_lt hpos.ne').mpr h
      exact nearestNat_of_log2_le (by omega)
  · rw [nearestNat, Nat.log2_two_pow]
    rfl

/-- Zeros that are put behind a number before it is rounded do not count. -/
theorem roundDiv_padded {n i j : Nat} (h : n.log2 + i = 52 + j) :
    roundDiv (n * 2 ^ i) (2 ^ j) * 2 ^ n.log2 = nearestNat n * 2 ^ 52 := by
  rcases Nat.le_total n.log2 52 with hle | hle
  · have hi : i = (52 - n.log2) + j := by omega
    rw [hi, Nat.pow_add, ← Nat.mul_assoc, roundDiv_mul_two_pow, nearestNat_of_log2_le hle,
      Nat.mul_assoc, ← Nat.pow_add, Nat.sub_add_cancel hle]
  · have hj : j = (n.log2 - 52) + i := by omega
    rw [hj, Nat.pow_add, roundDiv_mul_right (Nat.two_pow_pos i), nearestNat, Nat.mul_assoc,
      ← Nat.pow_add, Nat.sub_add_cancel hle]

/-- A number that is padded with zeros and rounded is the nearest one. -/
theorem isScaled_padded {n i : Nat} {e : Int} (h : n ≠ 0) (hlo : 52 ≤ n.log2 + i) (he : e = -i)
    (hhi : n.log2 ≤ 1022) :
    IsScaled (roundWithAccuracy .binary64 .positive (n * 2 ^ i) e .exact) .positive
      (nearestNat n * 2 ^ 52) := by
  obtain ⟨j, hj⟩ := Nat.exists_eq_add_of_le hlo
  rw [← roundDiv_padded hj]
  exact isScaled_roundWithAccuracy .positive (by rw [log2_mul_two_pow h, hj]) (by omega) hhi

theorem isScaled_ofNat {n : Nat} (h : n ≠ 0) (hhi : n.log2 ≤ 1022) :
    IsScaled (UnpackedFloat.ofNat .binary64 n) .positive (nearestNat n * 2 ^ 52) := by
  have hcmp : compare (n : Int) 0 = .gt := by
    rw [compare_gt_iff_gt]
    omega
  have htarget : Format.binary64.targetExponent (totalExponent n 0) = n.log2 - 52 := by
    rw [targetExponent_eq (by omega), zero_add]
  simp only [UnpackedFloat.ofNat, UnpackedFloat.ofInt, UnpackedFloat.normalize, hcmp,
    Int.toNat_natCast, UnpackedFloat.round, decreaseExponent, htarget, Nat.shiftLeft_eq]
  exact isScaled_padded h (by omega) (by omega) hhi

/-- What a float is made of. -/
def unpacked (x : Float) : UnpackedFloat := x.toModel.unpack

theorem unpacked_one :
    unpacked (Float.ofBits 0x3FF0000000000000) = .finite .positive (2 ^ 52) (-52) (by decide) := rfl

theorem unpacked_mul (x y : Float) :
    unpacked (x * y) = (Float.Model.pack (.mul .binary64 (unpacked x) (unpacked y))).unpack := rfl

theorem unpacked_toFloat (n : UInt64) :
    unpacked n.toFloat = (Float.Model.pack (.ofNat .binary64 n.toNat)).unpack := rfl

/-- The product with one has the same digits. -/
theorem IsScaled.mul_one {u : UnpackedFloat} {v : Nat} (h : IsScaled u .positive v)
    (hv : v < 2 ^ 1074) :
    IsScaled (UnpackedFloat.mul .binary64 u (.finite .positive (2 ^ 52) (-52) (by decide)))
      .positive v := by
  obtain ⟨m, k, hm, rfl, hlog, hk, rfl⟩ := h
  have hk' : k ≤ 1022 := by
    have hle : 2 ^ (52 + k) ≤ m * 2 ^ k := by
      rw [Nat.pow_add]
      exact Nat.mul_le_mul_right _ ((Nat.le_log2 hm.ne').mp hlog.ge)
    have := (Nat.pow_lt_pow_iff_right (by norm_num)).mp (hle.trans_lt hv)
    omega
  have := isScaled_roundWithAccuracy .positive (m := m * 2 ^ 52) (j := 52) (k := k)
    (e := (k - 52 : Int) + -52) (by rw [log2_mul_two_pow hm.ne', hlog]) (by omega) hk'
  rwa [roundDiv_mul_two_pow] at this

/-- A float that is made of a natural number is the nearest one. -/
theorem isScaled_float_ofNat {n : Nat} (h : n ≠ 0) (hhi : n.log2 ≤ 1022) :
    IsScaled (unpacked (Float.ofNat n)) .positive (nearestNat n * 2 ^ 52) := by
  change IsScaled (unpacked (Float.ofScientific n false 0)) _ _
  rw [Float.ofScientific]
  split
  -- up to `2 ^ 53` a word is converted, and multiplied by one
  case isTrue hfast =>
    have hword : n.toUInt64.toNat = n := by
      rw [Nat.toUInt64, UInt64.toNat_ofNat']
      omega
    have hscaled := isScaled_ofNat h hhi
    have hone : unpacked (n.toUInt64.toFloat * Float.ofBits 0x3FF0000000000000) =
        (Float.Model.pack (.mul .binary64 (.ofNat .binary64 n)
          (.finite .positive (2 ^ 52) (-52) (by decide)))).unpack := by
      rw [unpacked_mul, unpacked_toFloat, hword, hscaled.unpack_pack, unpacked_one]
    have hproduct := hscaled.mul_one (by rw [nearestNat_of_le hfast.1.le]; omega)
    change IsScaled (unpacked (n.toUInt64.toFloat * Float.ofBits 0x3FF0000000000000)) _ _
    rwa [hone, hproduct.unpack_pack]
  -- above it the product of a padded mantissa with one is rounded
  case isFalse =>
    have hpadded := isScaled_padded (i := 53) (e := -53) h (by omega) (by omega) hhi
    have hproduct : UnpackedFloat.ofScientific .binary64 n 0 =
        roundWithAccuracy .binary64 .positive (n * 2 ^ 53) (-53) .exact := by
      rw [UnpackedFloat.ofScientific, dif_neg h, if_neg (by norm_num), if_neg (by norm_num),
        if_pos le_rfl]
      simp only [UnpackedFloat.mul, Int.toNat_zero, Nat.pow_zero, Nat.mul_one, Nat.shiftLeft_eq,
        add_zero]
      rfl
    change IsScaled (Float.Model.pack (UnpackedFloat.ofScientific .binary64 n 0)).unpack _ _
    rwa [hproduct, hpadded.unpack_pack]

/-! ## The order of floats -/

theorem compare_map {α β : Type} [LinearOrder α] [LinearOrder β] {f : α → β} (hf : StrictMono f)
    (a b : α) : compare (f a) (f b) = compare a b := by
  rw [← cmp_eq_compare, ← cmp_eq_compare, hf.cmp_map_eq]

/-- With as many digits the exponents decide, and the mantissas where these are the same. -/
theorem compare_scaled {m m' k k' : Nat} (h : m.log2 = 52) (h' : m'.log2 = 52) :
    (compare ((k : Int) - 52) (k' - 52)).then (compare m m') =
      compare (m * 2 ^ k) (m' * 2 ^ k') := by
  have below : ∀ {m m' k k' : Nat}, m.log2 = 52 → m'.log2 = 52 → k < k' →
      m * 2 ^ k < m' * 2 ^ k' := by
    intro m m' k k' h h' hlt
    have hm : m < 2 ^ 53 := (Nat.log2_lt (by rintro rfl; simp at h)).mp (by omega)
    have hm' : 2 ^ 52 ≤ m' := (Nat.le_log2 (by rintro rfl; simp at h')).mp h'.ge
    calc m * 2 ^ k < 2 ^ 53 * 2 ^ k := Nat.mul_lt_mul_of_pos_right hm (Nat.two_pow_pos k)
      _ = 2 ^ 52 * 2 ^ (k + 1) := by ring
      _ ≤ m' * 2 ^ k' := Nat.mul_le_mul hm' (Nat.pow_le_pow_right (by norm_num) hlt)
  have hexp : compare ((k : Int) - 52) (k' - 52) = compare k k' :=
    compare_map (f := fun n : Nat ↦ (n : Int) - 52) (fun a b hab ↦ by simp only; omega) k k'
  rw [hexp]
  rcases lt_trichotomy k k' with hlt | rfl | hlt
  · rw [compare_lt_iff_lt.mpr hlt, compare_lt_iff_lt.mpr (below h h' hlt)]
    rfl
  · rw [compare_eq_iff_eq.mpr rfl, compare_map fun _ _ hab ↦
      Nat.mul_lt_mul_of_pos_right hab (Nat.two_pow_pos k)]
    rfl
  · rw [compare_gt_iff_gt.mpr hlt, compare_gt_iff_gt.mpr (below h' h hlt)]
    rfl

theorem compare_neg (a b : Nat) : compare (-(a : Int)) (-b) = compare b a := by
  rw [← cmp_eq_compare, ← cmp_eq_compare]
  have hanti : StrictAnti fun n : Nat ↦ -(n : Int) := fun _ _ h ↦ by simp only; omega
  exact hanti.cmp_map_eq a b

/-- An unpacked float is an integer. -/
inductive IsInt : UnpackedFloat → Int → Prop where
  | zero (s : Sign) : IsInt (.zero s) 0
  | scaled {u : UnpackedFloat} {s : Sign} {n : Nat} (h : IsScaled u s (n * 2 ^ 52)) :
      IsInt u (s.apply n)

theorem IsScaled.pos {u : UnpackedFloat} {s : Sign} {n : Nat} (h : IsScaled u s (n * 2 ^ 52)) :
    0 < n := by
  obtain ⟨m, k, hm, -, -, -, hv⟩ := h
  have : 0 < m * 2 ^ k := Nat.mul_pos hm (Nat.two_pow_pos k)
  omega

theorem IsInt.unpack_pack {u : UnpackedFloat} {n : Int} (h : IsInt u n) :
    (Float.Model.pack u).unpack = u := by
  cases h with
  | zero s => cases s <;> rfl
  | scaled h => exact h.unpack_pack

theorem IsInt.neg {u : UnpackedFloat} {n : Int} (h : IsInt u n) : IsInt u.neg (-n) := by
  cases h with
  | zero s => exact .zero _
  | @scaled _ s n h =>
    have happly : -(s.apply n) = (-s).apply n := by
      cases s <;> simp only [Sign.apply, Int.neg_neg]
    obtain ⟨m, k, hm, rfl, hrest⟩ := h
    rw [happly]
    exact .scaled ⟨m, k, hm, rfl, hrest⟩

/-- Floats that are integers are in the order of these. -/
theorem IsInt.compare {u v : UnpackedFloat} {a b : Int} (h : IsInt u a) (h' : IsInt v b) :
    u.compare v = some (compare a b) := by
  cases h with
  | zero s =>
    cases h' with
    | zero s' => rfl
    | @scaled _ s' n' h' =>
      have hpos' := h'.pos
      obtain ⟨m', k', hm', rfl, -⟩ := h'
      cases s' <;> simp only [UnpackedFloat.compare, Sign.apply]
      case negative => rw [compare_gt_iff_gt.mpr (by omega)]
      case positive => rw [compare_lt_iff_lt.mpr (by omega)]
  | @scaled _ s n h =>
    have hpos := h.pos
    obtain ⟨m, k, hm, rfl, hlog, -, hv⟩ := h
    cases h' with
    | zero s' =>
      cases s <;> simp only [UnpackedFloat.compare, Sign.apply]
      case negative => rw [compare_lt_iff_lt.mpr (by omega)]
      case positive => rw [compare_gt_iff_gt.mpr (by omega)]
    | @scaled _ s' n' h' =>
      have hpos' := h'.pos
      obtain ⟨m', k', hm', rfl, hlog', -, hv'⟩ := h'
      have hmagnitude : (Ord.compare ((k : Int) - 52) (k' - 52)).then (Ord.compare m m') =
          Ord.compare n n' := by
        rw [compare_scaled hlog hlog', hv, hv']
        exact compare_map (fun _ _ hab ↦ Nat.mul_lt_mul_of_pos_right hab (Nat.two_pow_pos 52)) n n'
      cases s <;> cases s' <;> simp only [UnpackedFloat.compare, Sign.apply, hmagnitude]
      case negative.negative => rw [← Std.OrientedOrd.eq_swap, compare_neg]
      case negative.positive => rw [compare_lt_iff_lt.mpr (by omega)]
      case positive.negative => rw [compare_gt_iff_gt.mpr (by omega)]
      case positive.positive => rw [compare_map Nat.strictMono_cast]

/-! ## Integers as floats -/

/-- An integer with all but its 53 leading digits rounded to the nearest, and to the even one of
two. -/
def nearest (n : Int) : Int := n.sign * nearestNat n.natAbs

theorem nearest_of_le {n : Int} (h : n.natAbs ≤ 2 ^ 53) : nearest n = n := by
  rw [nearest, nearestNat_of_le h, Int.sign_mul_natAbs]

theorem isInt_float_ofNat {n : Nat} (h : n.log2 ≤ 1022) :
    IsInt (unpacked (Float.ofNat n)) (nearestNat n) := by
  rcases Nat.eq_zero_or_pos n with rfl | hpos
  · exact .zero .positive
  · exact .scaled (isScaled_float_ofNat hpos.ne' h)

theorem isInt_float_ofInt {n : Int} (h : n.natAbs.log2 ≤ 1022) :
    IsInt (unpacked (Float.ofInt n)) (nearest n) := by
  cases n with
  | ofNat n =>
    have hn : nearest (Int.ofNat n) = nearestNat n := by
      rcases Nat.eq_zero_or_pos n with rfl | hpos
      · rfl
      · rw [nearest, Int.ofNat_eq_natCast, Int.sign_natCast_of_ne_zero hpos.ne', one_mul,
          Int.natAbs_natCast]
    rw [hn]
    exact isInt_float_ofNat h
  | negSucc n =>
    have hnat := isInt_float_ofNat (n := n + 1) h
    have hneg : unpacked (Float.ofInt (.negSucc n)) = (unpacked (Float.ofNat (n + 1))).neg :=
      hnat.neg.unpack_pack
    rw [hneg, nearest, Int.sign_negSucc, Int.neg_one_mul]
    exact hnat.neg

theorem ofInt_beq_ofInt {a b : Int} (ha : a.natAbs.log2 ≤ 1022) (hb : b.natAbs.log2 ≤ 1022) :
    (Float.ofInt a == Float.ofInt b) = true ↔ nearest a = nearest b := by
  change ((unpacked (Float.ofInt a)).compare (unpacked (Float.ofInt b)) == some .eq) = true ↔ _
  rw [(isInt_float_ofInt ha).compare (isInt_float_ofInt hb), beq_iff_eq, Option.some_inj,
    compare_eq_iff_eq]

theorem ofInt_lt_ofInt {a b : Int} (ha : a.natAbs.log2 ≤ 1022) (hb : b.natAbs.log2 ≤ 1022) :
    Float.ofInt a < Float.ofInt b ↔ nearest a < nearest b := by
  change decide (((unpacked (Float.ofInt a)).compare (unpacked (Float.ofInt b)) == some .lt) =
    true) = true ↔ _
  rw [decide_eq_true_iff, (isInt_float_ofInt ha).compare (isInt_float_ofInt hb), beq_iff_eq,
    Option.some_inj, compare_lt_iff_lt]

end LivePage.Binary
