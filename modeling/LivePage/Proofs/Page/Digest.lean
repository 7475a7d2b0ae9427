import Mathlib
import LivePage.Proofs.Expr.Numeral

/-!
# What a digest says

The word of a text is a polynomial of its units at 31, as far as 32 bits with a sign go, and a
digest is a numeral of its absolute value.  Since 31 has an inverse there, no single unit can be
another one without the word being another one.
-/

namespace LivePage

namespace Digest

/-! ## Words -/

/-- The value at 31 of the polynomial with these coefficients, of which the last is the constant. -/
def polynomial (us : List Nat) : Nat :=
  ∑ i : Fin us.length, us[i] * 31 ^ (us.length - (i + 1))

@[simp] theorem polynomial_nil : polynomial [] = 0 := rfl

theorem polynomial_cons (u : Nat) (us : List Nat) :
    polynomial (u :: us) = u * 31 ^ us.length + polynomial us := by
  refine (Fin.sum_univ_succ (n := us.length) _).trans ?_
  simp [polynomial]

theorem polynomial_append (us vs : List Nat) :
    polynomial (us ++ vs) = polynomial us * 31 ^ vs.length + polynomial vs := by
  induction us with
  | nil => simp
  | cons u r ih =>
    rw [List.cons_append, polynomial_cons, polynomial_cons, ih, List.length_append]
    ring

theorem bmod_modEq (x : Int) : x.bmod (2 ^ 32) ≡ x [ZMOD 2 ^ 32] := Int.bmod_emod

theorem shiftLeft_modEq (h : Int32) : (h <<< 5).toInt ≡ 32 * h.toInt [ZMOD 2 ^ 32] := by
  have shifted : (h <<< 5).toInt = (h.toInt * 32).bmod (2 ^ 32) := by
    calc
      (h <<< 5).toInt = (h.toBitVec * BitVec.twoPow 32 5).toInt := by
        rw [← BitVec.shiftLeft_eq_mul_twoPow]
        rfl
      _ = (h.toInt * 32).bmod (2 ^ 32) := BitVec.toInt_mul ..
  rw [shifted, mul_comm]
  exact bmod_modEq _

/-- What was there is taken 31 times, and the unit is added. -/
theorem push_modEq (h : Int32) (u : Nat) : (push h u).toInt ≡ 31 * h.toInt + u [ZMOD 2 ^ 32] := by
  have unit : (Int32.ofNat u).toInt ≡ u [ZMOD 2 ^ 32] := by
    rw [Int32.toInt_ofNat']
    exact bmod_modEq u
  calc
    (push h u).toInt ≡ ((h <<< 5) - h).toInt + (Int32.ofNat u).toInt [ZMOD 2 ^ 32] := by
      rw [push, Int32.toInt_add]
      exact bmod_modEq _
    _ ≡ (h <<< 5).toInt - h.toInt + u [ZMOD 2 ^ 32] := by
      rw [Int32.toInt_sub]
      exact (bmod_modEq _).add unit
    _ ≡ 32 * h.toInt - h.toInt + u [ZMOD 2 ^ 32] := ((shiftLeft_modEq h).sub_right _).add_right _
    _ = 31 * h.toInt + u := by ring

theorem foldl_push_modEq (h : Int32) (us : List Nat) :
    (us.foldl push h).toInt ≡ h.toInt * 31 ^ us.length + polynomial us [ZMOD 2 ^ 32] := by
  induction us generalizing h with
  | nil => simp
  | cons u r ih =>
    calc
      (r.foldl push (push h u)).toInt ≡ (push h u).toInt * 31 ^ r.length + polynomial r
          [ZMOD 2 ^ 32] := ih _
      _ ≡ (31 * h.toInt + u) * 31 ^ r.length + polynomial r [ZMOD 2 ^ 32] :=
        ((push_modEq h u).mul_right _).add_right _
      _ = h.toInt * 31 ^ (u :: r).length + polynomial (u :: r) := by
        rw [polynomial_cons, List.length_cons]
        push_cast
        ring

theorem toInt_word (us : List Nat) : (word us).toInt = (polynomial us : Int).bmod (2 ^ 32) := by
  have read := foldl_push_modEq 0 us
  rw [Int32.toInt_zero, zero_mul, zero_add] at read
  calc
    (word us).toInt = (word us).toInt.bmod (2 ^ 32) := (Int32.toInt_bmod_size _).symm
    _ = ((word us).toInt % (2 ^ 32 : Nat)).bmod (2 ^ 32) := (Int.emod_bmod ..).symm
    _ = ((polynomial us : Int) % (2 ^ 32 : Nat)).bmod (2 ^ 32) := by
      exact congrArg (Int.bmod · (2 ^ 32)) read
    _ = (polynomial us : Int).bmod (2 ^ 32) := Int.emod_bmod ..

/-! ## One other unit -/

theorem lt_of_mem_units {text : String} {u : Nat} (h : u ∈ units text) : u < 2 ^ 16 := by
  obtain ⟨c, -, h⟩ := List.mem_flatMap.mp h
  have bound : c.toNat < 0x110000 := by
    rcases c.valid with h | ⟨-, h⟩
    · exact Nat.lt_trans h (by decide)
    · exact h
  dsimp only at h
  split at h
  · obtain rfl := List.mem_singleton.mp h
    omega
  · simp only [List.mem_cons, List.not_mem_nil, or_false] at h
    omega

/-- Rows that differ in one place are alike before and behind it. -/
theorem exists_split {us vs : List Nat} (length : us.length = vs.length)
    (one : ∃! i : Nat, us[i]? ≠ vs[i]?) :
    ∃ before u v behind, us = before ++ u :: behind ∧ vs = before ++ v :: behind ∧ u ≠ v := by
  obtain ⟨i, differ, only⟩ := one
  have same {j : Nat} (hj : j ≠ i) : us[j]? = vs[j]? := by
    by_contra other
    exact hj (only j other)
  have hi : i < us.length := by
    by_contra beyond
    exact differ (by rw [List.getElem?_eq_none (by omega), List.getElem?_eq_none (by omega)])
  refine ⟨us.take i, us[i], vs[i], us.drop (i + 1), ?_, ?_, ?_⟩
  · rw [List.getElem_cons_drop, List.take_append_drop]
  · have front : us.take i = vs.take i := by
      refine List.ext_getElem? fun j ↦ ?_
      rw [List.getElem?_take, List.getElem?_take]
      split
      · exact same (by omega)
      · rfl
    have back : us.drop (i + 1) = vs.drop (i + 1) := by
      refine List.ext_getElem? fun j ↦ ?_
      rw [List.getElem?_drop, List.getElem?_drop]
      exact same (by omega)
    rw [front, back, List.getElem_cons_drop, List.take_append_drop]
  · intro equal
    refine differ ?_
    rw [List.getElem?_eq_getElem hi, List.getElem?_eq_getElem (length ▸ hi), equal]

theorem existsUnique_of_split {u v : Nat} (before behind : List Nat) (h : u ≠ v) :
    ∃! i : Nat, (before ++ u :: behind)[i]? ≠ (before ++ v :: behind)[i]? := by
  refine ⟨before.length, by simp [h], fun i differ ↦ ?_⟩
  rcases Nat.lt_trichotomy i before.length with front | here | back
  · exact absurd (by rw [List.getElem?_append_left front, List.getElem?_append_left front]) differ
  · exact here
  · refine absurd ?_ differ
    rw [List.getElem?_append_right back.le, List.getElem?_append_right back.le,
      List.getElem?_cons, List.getElem?_cons, if_neg (by omega), if_neg (by omega)]

theorem word_ne {us vs : List Nat} (small : ∀ u ∈ us, u < 2 ^ 16) (small' : ∀ v ∈ vs, v < 2 ^ 16)
    (length : us.length = vs.length) (one : ∃! i : Nat, us[i]? ≠ vs[i]?) :
    (word us).toInt ≠ (word vs).toInt := by
  obtain ⟨before, u, v, behind, rfl, rfl, differ⟩ := exists_split length one
  intro equal
  rw [toInt_word, toInt_word] at equal
  have read : (polynomial (before ++ u :: behind) : Int) ≡ polynomial (before ++ v :: behind)
      [ZMOD 2 ^ 32] :=
    (bmod_modEq _).symm.trans ((congrArg (· % 2 ^ 32) equal).trans (bmod_modEq _))
  have read : polynomial (before ++ u :: behind) ≡ polynomial (before ++ v :: behind)
      [MOD 2 ^ 32] := Int.natCast_modEq_iff.mp (by exact_mod_cast read)
  rw [polynomial_append, polynomial_append, polynomial_cons, polynomial_cons, List.length_cons,
    List.length_cons] at read
  have scaled : u * 31 ^ behind.length ≡ v * 31 ^ behind.length [MOD 2 ^ 32] :=
    (read.add_left_cancel' _).add_right_cancel' _
  have odd : Nat.gcd (2 ^ 32) (31 ^ behind.length) = 1 := Nat.Coprime.pow _ _ (by decide)
  have bound := small u (by simp)
  have bound' := small' v (by simp)
  exact differ ((scaled.cancel_right_of_coprime odd).eq_of_lt_of_lt (by omega) (by omega))

/-! ## Numerals -/

variable {n : Nat}

theorem digits_zero : digits 0 = [0] := by
  rw [digits, if_pos (by decide)]

theorem digits_eq (h : n ≠ 0) : digits n = (Nat.digits 36 n).reverse := by
  fun_induction digits with
  | case1 n small => rw [Nat.digits_of_lt 36 n h small, List.reverse_singleton]
  | case2 n large ih =>
    rw [ih (by omega), Nat.digits_def' (n := n) (by decide) (by omega), List.reverse_cons]

theorem numeral_eq (h : n ≠ 0) :
    numeral n = String.ofList ((Nat.digits 36 n).reverse.map digitChar) := by
  rw [numeral, digits_eq h]

theorem numeral_zero : numeral 0 = "0" := by
  rw [numeral, digits_zero]
  rfl

theorem writes_numeral (n : Nat) : Builtin.Writes 36 (numeral n).toList n := by
  have spelled (ds : List Nat) : List.Forall₂ Builtin.Spells (ds.map digitChar) ds :=
    List.forall₂_map_left_iff.mpr (List.forall₂_same.mpr fun _ _ ↦ .inl rfl)
  rw [numeral, String.toList_ofList]
  by_cases h : n = 0
  · rw [h, digits_zero]
    exact ⟨[0], by decide, by decide, rfl, spelled [0]⟩
  · rw [digits_eq h]
    refine ⟨(Nat.digits 36 n).reverse, ?_, fun d hd ↦ ?_, ?_, spelled _⟩
    · simpa [Nat.digits_eq_nil_iff_eq_zero] using h
    · exact Nat.digits_lt_base (by decide) (List.mem_reverse.mp hd)
    · rw [List.reverse_reverse, Nat.ofDigits_digits]

/-- No numeral but that of zero begins with a zero. -/
theorem numeral_of_head? (h : (numeral n).toList.head? = some '0') : numeral n = "0" := by
  by_cases zero : n = 0
  · rw [zero, numeral_zero]
  · have first : ∀ d < 36, digitChar d = '0' → d = 0 := by decide
    rw [numeral_eq zero, String.toList_ofList, List.head?_map, List.head?_reverse,
      List.getLast?_eq_some_getLast (Nat.digits_ne_nil_iff_ne_zero.mpr zero), Option.map_some,
      Option.some_inj] at h
    have small := Nat.digits_lt_base (b := 36) (by decide)
      (List.getLast_mem (Nat.digits_ne_nil_iff_ne_zero.mpr zero))
    exact absurd (first _ small h) (Nat.getLast_digit_ne_zero 36 zero)

/-- A numeral is read back in its radix. -/
theorem parseInt_numeral (h : n < 2 ^ 63) :
    Builtin.parseInt (numeral n).toList 36 = .int n := by
  have unsigned : Builtin.IsSign n [] := by
    rw [Builtin.IsSign, if_neg (by omega)]
    exact .inl rfl
  have begins := Builtin.Begins.intro [] [] _ [] (by simp) unsigned (writes_numeral n)
    (by simp [Builtin.Ends])
  rw [List.nil_append, List.nil_append, List.append_nil] at begins
  rw [Builtin.parseInt_of_begins (by decide) (by decide) begins, if_pos (by omega)]

theorem magnitude_le (w : Int32) : magnitude w ≤ 2 ^ 31 := by
  have := w.le_toInt
  have := w.toInt_lt
  rw [magnitude]
  omega

end Digest

namespace Page

open Digest (units polynomial word)

/-- The word of a page is the polynomial of the units of its text at 31, as a number of 32 bits with
its sign, and its digest is the numeral of the absolute value of that, with no zero in front of
other digits.  A page whose text has one unit other than it, and no more units, has another word. -/
theorem digest_is_polynomial (p q : Page) :
    let us := units p.canonical
    let h := (polynomial us : Int).bmod (2 ^ 32)
    (word us).toInt = h ∧
    p.digest = (if h = 0 then "0"
      else String.ofList ((Nat.digits 36 h.natAbs).reverse.map Digest.digitChar)) ∧
    (p.digest.toList.head? = some '0' → p.digest = "0") ∧
    Builtin.parseInt p.digest.toList 36 = .int h.natAbs ∧
    ((units q.canonical).length = us.length → (∃! i : Nat, (units q.canonical)[i]? ≠ us[i]?) →
      (word (units q.canonical)).toInt ≠ h) := by
  intro us h
  have value : (word us).toInt = h := Digest.toInt_word us
  have digest : p.digest = Digest.numeral h.natAbs := by
    rw [← value]
    rfl
  have bound : h.natAbs ≤ 2 ^ 31 := by
    rw [← value]
    exact Digest.magnitude_le _
  refine ⟨value, ?_, ?_, ?_, fun length one ↦ ?_⟩
  · rw [digest]
    split
    · next zero => rw [zero]; exact Digest.numeral_zero
    · next nonzero => exact Digest.numeral_eq (by omega)
  · rw [digest]
    exact Digest.numeral_of_head?
  · rw [digest]
    exact Digest.parseInt_numeral (by omega)
  · rw [← value]
    exact Digest.word_ne (fun _ ↦ Digest.lt_of_mem_units) (fun _ ↦ Digest.lt_of_mem_units) length
      one

/-- Two faces are a unit apart, since the first half of their pairs is the same. -/
theorem digests_of_two_faces :
    let p : Page := { id := "😀" }
    let q : Page := { id := "😁" }
    (units q.canonical).length = (units p.canonical).length ∧
    (∃! i : Nat, (units q.canonical)[i]? ≠ (units p.canonical)[i]?) ∧
    Builtin.parseInt p.digest.toList 36 = .int (word (units p.canonical)).toInt.natAbs ∧
    (word (units q.canonical)).toInt ≠ (word (units p.canonical)).toInt := by
  intro p q
  obtain ⟨value, -, -, read, other⟩ := digest_is_polynomial p q
  let before := [123, 34, 105, 100, 34, 58, 34, 0xD83D]
  let behind := [34, 44, 34, 118, 101, 114, 115, 105, 111, 110, 34, 58, 34, 34, 125]
  have hp : units p.canonical = before ++ 0xDE00 :: behind := by
    subst p
    cbv
  have hq : units q.canonical = before ++ 0xDE01 :: behind := by
    subst q
    cbv
  have length : (units q.canonical).length = (units p.canonical).length := by
    rw [hp, hq]
    rfl
  have one : ∃! i : Nat, (units q.canonical)[i]? ≠ (units p.canonical)[i]? := by
    rw [hp, hq]
    exact Digest.existsUnique_of_split before behind (by decide)
  rw [value]
  exact ⟨length, one, read, other length one⟩

end Page

end LivePage
