import Mathlib
import LivePage.Page.Digest
import LivePage.Proofs.Expr.Method
import LivePage.Proofs.Number.Truncation

/-!
# Integers at the front of texts

An integer is read behind blanks and a sign, as far as the digits of its radix go; letters among
them may be small or capital.  The sign is taken off before the digits are read, so what counts is
the absolute value: all integers of 64 bits are read back but the least, whose absolute value is
greater than all of them.
-/

namespace LivePage

namespace Builtin

open Digest (digitChar)

/-! ## Digits -/

/-- A character stands for a digit.  A letter may be a capital. -/
def Spells (c : Char) (d : Nat) : Prop := c = digitChar d ∨ c = (digitChar d).toUpper

instance (c : Char) (d : Nat) : Decidable (Spells c d) := inferInstanceAs (Decidable (_ ∨ _))

variable {c : Char} {d radix : Nat}

theorem digit?_digitChar : ∀ d < 36,
    digit? 36 (digitChar d) = some d ∧ digit? 36 (digitChar d).toUpper = some d := by
  decide

theorem spells_of_ascii : ∀ n < 128, ∀ d ∈ digit? 36 (Char.ofNat n), Spells (Char.ofNat n) d := by
  decide +kernel

/-- A character that is no blank and no sign. -/
def IsPlain (c : Char) : Prop := Text.isBlank c = false ∧ c ≠ '-' ∧ c ≠ '+'

instance (c : Char) : Decidable (IsPlain c) := inferInstanceAs (Decidable (_ ∧ _))

theorem isPlain_digitChar :
    ∀ d < 36, IsPlain (digitChar d) ∧ IsPlain (digitChar d).toUpper := by
  decide

theorem toNat_lt_of_digit? (h : digit? radix c = some d) : c.toNat < 128 := by
  have below {a : Char} (hc : c ≤ a) (ha : a.toNat < 128) : c.toNat < 128 :=
    Nat.lt_of_le_of_lt (Char.le_def.mp hc) ha
  obtain ⟨h, -⟩ := Option.filter_eq_some_iff.mp h
  split at h
  · next digit => exact Nat.lt_of_le_of_lt (Char.isDigit_iff_toNat.mp digit).2 (by decide)
  · split at h
    · next small => exact below small.2 (by decide)
    · split at h
      · next capital => exact below capital.2 (by decide)
      · cases h

theorem digit?_eq_filter (h : radix ≤ 36) (c : Char) :
    digit? radix c = (digit? 36 c).filter (· < radix) := by
  rw [digit?, digit?, Option.filter_filter]
  congr 1
  funext d
  grind

/-- The digits of a radix are read off the characters that stand for them. -/
theorem digit?_eq_some_iff (h : radix ≤ 36) : digit? radix c = some d ↔ d < radix ∧ Spells c d := by
  rw [digit?_eq_filter h, Option.filter_eq_some_iff, decide_eq_true_eq, and_comm]
  refine and_congr_right fun small ↦ ⟨fun read ↦ ?_, ?_⟩
  · have spelled := spells_of_ascii c.toNat (toNat_lt_of_digit? read) d
    rw [Char.ofNat_toNat] at spelled
    exact spelled read
  · rintro (rfl | rfl)
    · exact (digit?_digitChar d (by omega)).1
    · exact (digit?_digitChar d (by omega)).2

theorem Spells.isPlain (h : Spells c d) (hd : d < 36) : IsPlain c := by
  rcases h with rfl | rfl
  · exact (isPlain_digitChar d hd).1
  · exact (isPlain_digitChar d hd).2

/-! ## Numerals -/

/-- Characters write a number in a radix, from the digit that is worth most to the unit. -/
def Writes (radix : Nat) (cs : List Char) (n : Nat) : Prop :=
  ∃ ds, ds ≠ [] ∧ (∀ d ∈ ds, d < radix) ∧ Nat.ofDigits radix ds.reverse = n ∧
    List.Forall₂ Spells cs ds

/-- A text does not go on with a digit of a radix. -/
def Ends (radix : Nat) (cs : List Char) : Prop := ∀ c ∈ cs.head?, ∀ d < radix, ¬Spells c d

variable {cs rest : List Char} {ds : List Nat} {n : Nat}

theorem leadingDigits_append (h : radix ≤ 36) (spelled : List.Forall₂ Spells cs ds)
    (small : ∀ d ∈ ds, d < radix) (ends : Ends radix rest) :
    leadingDigits radix (cs ++ rest) = ds := by
  induction spelled with
  | nil =>
    cases rest with
    | nil => rfl
    | cons c r =>
      have other : digit? radix c = none := by
        rw [Option.eq_none_iff_forall_ne_some]
        intro d read
        obtain ⟨hd, hc⟩ := (digit?_eq_some_iff h).mp read
        exact ends c rfl d hd hc
      rw [List.nil_append, leadingDigits, other]
  | cons first _ ih =>
    obtain ⟨hd, small⟩ := List.forall_mem_cons.mp small
    rw [List.cons_append, leadingDigits, (digit?_eq_some_iff h).mpr ⟨hd, first⟩]
    exact congrArg _ (ih small)

theorem foldl_eq_ofDigits (radix : Nat) (ds : List Nat) :
    ds.foldl (fun n d ↦ radix * n + d) 0 = Nat.ofDigits radix ds.reverse := by
  rw [Nat.ofDigits_eq_foldr, List.foldr_reverse]
  congr 1
  funext n d
  exact Nat.add_comm ..

/-! ## Signs and blanks -/

/-- What may stand in front of the digits of an integer: a minus where it is below zero, and else
nothing or a plus. -/
def IsSign (n : Int) (sign : List Char) : Prop :=
  if n < 0 then sign = ['-'] else sign = [] ∨ sign = ['+']

/-- A text begins with an integer, written in a radix behind any blanks. -/
inductive Begins (radix : Nat) (n : Int) : List Char → Prop where
  | intro (blanks sign digits rest : List Char)
      (blank : ∀ c ∈ blanks, Text.isBlank c = true) (signed : IsSign n sign)
      (written : Writes radix digits n.natAbs) (ends : Ends radix rest) :
      Begins radix n (blanks ++ (sign ++ (digits ++ rest)))

section

variable {blanks sign : List Char} {n : Int}

theorem Writes.exists_cons (h : radix ≤ 36) {n : Nat} (written : Writes radix cs n) :
    ∃ c r, cs = c :: r ∧ IsPlain c := by
  obtain ⟨ds, some, small, -, spelled⟩ := written
  cases spelled with
  | nil => exact absurd rfl some
  | cons first _ =>
    exact ⟨_, _, rfl, first.isPlain (Nat.lt_of_lt_of_le (small _ List.mem_cons_self) h)⟩

/-- No blanks are left in front of a sign, or of digits without one. -/
theorem trimStart_signed (h : radix ≤ 36) (blank : ∀ c ∈ blanks, Text.isBlank c = true)
    (signed : IsSign n sign) (written : Writes radix cs n.natAbs) :
    Text.trimStart (blanks ++ (sign ++ (cs ++ rest))) = sign ++ (cs ++ rest) := by
  obtain ⟨c, r, rfl, digit, -⟩ := written.exists_cons h
  rw [Text.trimStart, List.dropWhile_append_of_pos blank]
  rw [IsSign] at signed
  split at signed
  · subst signed
    exact List.dropWhile_cons_of_neg (by decide)
  · rcases signed with rfl | rfl
    · exact List.dropWhile_cons_of_neg (by simp [digit])
    · exact List.dropWhile_cons_of_neg (by decide)

theorem takeSign_signed (h : radix ≤ 36) (signed : IsSign n sign)
    (written : Writes radix cs n.natAbs) :
    Decimal.takeSign (sign ++ (cs ++ rest)) = (decide (n < 0), cs ++ rest) := by
  obtain ⟨c, r, rfl, -, minus, plus⟩ := written.exists_cons h
  rw [IsSign] at signed
  split at signed
  · next below =>
    subst signed
    rw [decide_eq_true below]
    rfl
  · next above =>
    rw [decide_eq_false above]
    rcases signed with rfl | rfl
    · rw [List.nil_append, List.cons_append, Decimal.takeSign]
      · simpa using minus
      · simpa using plus
    · rfl

/-- An integer at the front of a text is read if its absolute value has no more than 63 bits. -/
theorem parseInt_of_begins (least : 2 ≤ radix) (greatest : radix ≤ 36) {text : List Char}
    (h : Begins radix n text) :
    parseInt text radix = if n.natAbs < 2 ^ 63 then .int n else .null := by
  cases h with
  | intro blanks sign digits rest blank signed written ends =>
    obtain ⟨ds, some, small, value, spelled⟩ := id written
    have amount : (if decide (n < 0) = true then -(n.natAbs : Int) else n.natAbs) = n := by
      by_cases below : n < 0
      · rw [if_pos (decide_eq_true below)]
        omega
      · rw [if_neg (by simpa using below)]
        omega
    rw [parseInt, if_neg (by omega), trimStart_signed greatest blank signed written,
      takeSign_signed greatest signed written]
    dsimp only
    rw [leadingDigits_append greatest spelled small ends, foldl_eq_ofDigits, value, amount]
    by_cases within : n.natAbs < 2 ^ 63
    · rw [if_pos within, if_neg]
      rintro (empty | beyond)
      · exact some (List.isEmpty_iff.mp empty)
      · exact Nat.not_le_of_lt within beyond
    · rw [if_neg within, if_pos (.inr (Nat.le_of_not_lt within))]

end

/-! ## Calls -/

theorem word_radix (h : radix ≤ 36) : Binary.word 32 (Value.nat radix).toNumber = radix := by
  have digits : (radix : Int).natAbs.log2 ≤ 1022 :=
    (Nat.log2_le_self _).trans (by omega)
  have whole : Binary.IsInt (Binary.unpacked (Value.nat radix).toNumber) radix := by
    have read := Binary.isInt_float_ofInt digits
    rwa [Binary.nearest_of_le (by omega)] at read
  rw [Binary.word_of_finite (Binary.isFinite_of_isInt whole), Binary.cutOff_of_isInt whole]
  omega

theorem callGlobal_parseInt (h : radix ≤ 36) (text : String) :
    callGlobal "parseInt" [.str text, .nat radix] = .ok (parseInt text.toList radix) := by
  conv_rhs => rw [← word_radix h]
  rfl

end Builtin

namespace Expr

variable {env : Env} {arguments : List Expr} {args : List Value}

theorem eval_global (h : evalItems env arguments = .ok args) (name : String) (optional : Bool) :
    (call (identifier name) arguments optional).eval env = Builtin.callGlobal name args := by
  rw [eval, reach, h, ok_bind]
  cases Builtin.callGlobal name args <;> rfl

/-- An integer of 64 bits at the front of a text is read back in the radix it is written in, but for
the least one, for which there is null. -/
theorem reads_written_integer_iff (env : Env) {x y : Expr} {text : String} {radix : Nat} {n : Int}
    (hx : x.eval env = .ok (.str text)) (hy : y.eval env = .ok (.nat radix)) (least : 2 ≤ radix)
    (greatest : radix ≤ 36) (lower : -2 ^ 63 ≤ n) (upper : n < 2 ^ 63)
    (h : Builtin.Begins radix n text.toList) (optional : Bool) :
    let read := (call (identifier "parseInt") [x, y] optional).eval env
    (read = .ok (.int n) ↔ n ≠ -2 ^ 63) ∧ (n = -2 ^ 63 → read = .ok .null) := by
  intro read
  have hread : read = .ok (if n.natAbs < 2 ^ 63 then .int n else .null) := by
    rw [← Builtin.parseInt_of_begins least greatest h, ← Builtin.callGlobal_parseInt greatest]
    exact eval_global (evalItems_cons hx (evalItems_cons hy evalItems_nil)) _ _
  by_cases lowest : n = -2 ^ 63
  · rw [if_neg (by omega)] at hread
    rw [hread]
    exact ⟨iff_of_false nofun (absurd lowest), fun _ ↦ rfl⟩
  · rw [if_pos (by omega)] at hread
    exact ⟨iff_of_true hread lowest, fun h ↦ absurd h lowest⟩

/-- The greatest integer of 64 bits with letters of both cases, a plus, and a letter behind it that
is no digit, and the least but one in the greatest radix. -/
theorem reads_greatest_integers :
    let env : Env := ⟨[], 0⟩
    let read (text : String) (radix : Nat) :=
      (call (identifier "parseInt") [literal (.str text), literal (.nat radix)] false).eval env
    Builtin.Begins 16 9223372036854775807 " \t+7fFFffFFffFFffFFg".toList ∧
    Builtin.Begins 36 (-9223372036854775807) "-1Y2P0IJ32E8E7".toList ∧
    read " \t+7fFFffFFffFFffFFg" 16 = .ok (.int 9223372036854775807) ∧
    read "-1Y2P0IJ32E8E7" 36 = .ok (.int (-9223372036854775807)) := by
  intro env read
  have hex : Builtin.Begins 16 9223372036854775807 " \t+7fFFffFFffFFffFFg".toList := by
    refine .intro [' ', '\t'] ['+'] "7fFFffFFffFFffFF".toList ['g']
      (List.all_eq_true.mp (by decide)) (.inr rfl) ?_ ?_
    · refine ⟨[7, 15, 15, 15, 15, 15, 15, 15, 15, 15, 15, 15, 15, 15, 15, 15], by decide,
        by decide, by decide, ?_⟩
      decide
    · rintro c ⟨⟩
      decide
  have base36 : Builtin.Begins 36 (-9223372036854775807) "-1Y2P0IJ32E8E7".toList := by
    refine .intro [] ['-'] "1Y2P0IJ32E8E7".toList [] nofun rfl ?_ nofun
    refine ⟨[1, 34, 2, 25, 0, 18, 19, 3, 2, 14, 8, 14, 7], by decide, by decide, by decide, ?_⟩
    decide
  have value := eval_literal env
  have read_hex := reads_written_integer_iff env (value (.str " \t+7fFFffFFffFFffFFg"))
    (value (.nat 16)) (by decide) (by decide) (by decide) (by decide) hex false
  have read_base36 := reads_written_integer_iff env (value (.str "-1Y2P0IJ32E8E7"))
    (value (.nat 36)) (by decide) (by decide) (by decide) (by decide) base36 false
  exact ⟨hex, base36, read_hex.1.mpr (by decide), read_base36.1.mpr (by decide)⟩

/-- There is null for the least integer of 64 bits, as a value and in a source. -/
theorem least_integer_not_read :
    let read := (call (identifier "parseInt") [literal (.str "-9223372036854775808"),
      literal (.nat 10)] false).eval ⟨[], 0⟩
    Builtin.Begins 10 (-9223372036854775808) "-9223372036854775808".toList ∧
    read = .ok .null ∧ read ≠ .ok (.int (-9223372036854775808)) ∧
    (Expr.run ⟨[], 0⟩ "parseInt('-9223372036854775808', 10)").toOption.map Value.isNull =
      some true := by
  intro read
  have begins : Builtin.Begins 10 (-9223372036854775808) "-9223372036854775808".toList := by
    refine .intro [] ['-'] "9223372036854775808".toList [] nofun rfl ?_ nofun
    refine ⟨[9, 2, 2, 3, 3, 7, 2, 0, 3, 6, 8, 5, 4, 7, 7, 5, 8, 0, 8], by decide, by decide,
      by decide, ?_⟩
    decide
  have value := eval_literal ⟨[], 0⟩
  have null : read = .ok .null := by
    refine (eval_global (evalItems_cons (value _) (evalItems_cons (value _) evalItems_nil)) _
      _).trans ?_
    rw [Builtin.callGlobal_parseInt (by decide)]
    rfl
  refine ⟨begins, null, ?_, by decide +kernel⟩
  rw [null]
  nofun

end Expr

end LivePage
