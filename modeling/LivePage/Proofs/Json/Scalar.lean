import LivePage.Json.Reader
import LivePage.Json.Writer
import LivePage.Proofs.Outcome

/-!
# Text and numbers that are read from documents

Text between quotes is read as it was written.  A number is read from a text whatever the text goes
on with, as long as it does not belong to the number.
-/

namespace LivePage.Json

/-! ## Text between quotes -/

section Quotes

variable {q : Quoted} {c : Char} {r : List Char}

/-- Control characters are written in four digits. -/
theorem hexUnit?_hexDigits : ∀ n < 32,
    (match hexDigits n with
    | [a, b, c, d] => hexUnit? a b c d
    | _ => none) = some n := by
  decide

theorem pushUnit_toNat (hq : q.half = none) (hc : c.toNat < 32) :
    q.pushUnit c.toNat = q.push c := by
  have high : ¬0xdc00 ≤ c.toNat := by omega
  have low : ¬0xd800 ≤ c.toNat := by omega
  simp [Quoted.pushUnit, hq, high, low, Char.ofNat_toNat]

theorem readQuoted_plain (quote : c ≠ '"') (slash : c ≠ '\\') (plain : ¬c < ' ') :
    readQuoted q (c :: r) = readQuoted (q.push c) r := by
  rw [readQuoted.eq_def]
  split
  case h_7 same =>
    cases same
    exact if_neg plain
  all_goals simp_all

/-- What stands for a character is read as this character. -/
theorem readQuoted_escape (hq : q.half = none) :
    readQuoted q (escape c ++ r) = readQuoted (q.push c) r := by
  unfold escape
  split
  case h_8 quote slash _ _ _ _ _ =>
    split
    · next control =>
      have hc : c.toNat < 32 := control
      have digits := hexUnit?_hexDigits c.toNat hc
      split at digits
      · next a b c' d hd =>
        rw [hd]
        change readQuoted q ('\\' :: 'u' :: a :: b :: c' :: d :: r) = _
        rw [readQuoted, digits]
        exact congrArg (readQuoted · r) (pushUnit_toNat hq hc)
      · cases digits
    · next plain => exact readQuoted_plain quote slash plain
  all_goals rfl

theorem readQuoted_escaped (cs : List Char) (hq : q.half = none) (sound : q.sound = true) :
    readQuoted q (cs.flatMap escape ++ '"' :: r) =
      .ok (some (String.ofList (q.chars.reverse ++ cs)), r) := by
  induction cs generalizing q with
  | nil => simp [readQuoted, Quoted.text?, hq, sound]
  | cons c cs ih =>
    rw [List.flatMap_cons, List.append_assoc, readQuoted_escape hq,
      ih rfl (by simp [Quoted.push, hq, sound])]
    simp [Quoted.push]

/-- Text between quotes is read as it was written. -/
theorem readQuoted_quote (s : String) :
    readQuoted {} (s.toList.flatMap escape ++ '"' :: r) = .ok (some s, r) := by
  rw [readQuoted_escaped s.toList rfl rfl, List.reverse_nil, List.nil_append, String.ofList_toList]

theorem toList_quote (s : String) :
    (quote s).toList = '"' :: (s.toList.flatMap escape ++ ['"']) := by
  simp [quote]

end Quotes

/-! ## Numbers -/

/-- Reads a point with digits behind it, if there is one. -/
def readFraction : List Char → Except Fault (List Char × List Char × Bool)
  | '.' :: r =>
    let (fraction, r) := Decimal.takeDigits r
    if fraction.isEmpty then .error (faultAt r) else .ok (fraction, r, true)
  | r => .ok ([], r, false)

/-- Reads an exponent, if there is one, and makes a number of all that was read. -/
def readEnd (negative : Bool) (whole fraction : List Char) (pointed : Bool) (r : List Char) :
    Except Fault (Option Number × List Char) :=
  let plain : Option Number :=
    if pointed then Literal.float? ⟨negative, whole, fraction, 0⟩
    else Literal.integer? ⟨negative, whole, [], 0⟩
  match r with
  | mark :: after =>
    if mark = 'e' ∨ mark = 'E' then
      (readExponent after).map fun (e, r) ↦ (Literal.float? ⟨negative, whole, fraction, e⟩, r)
    else .ok (plain, r)
  | [] => .ok (plain, r)

/-- The end of `readNumber`, where it is known whether there was a point. -/
theorem bind_readEnd {negative : Bool} {whole : List Char} (fraction r : List Char)
    (pointed : Bool) :
    (match r with
      | mark :: after =>
        if mark = 'e' ∨ mark = 'E' then do
          let x ← readExponent after
          pure (Literal.float? ⟨negative, whole, fraction, x.1⟩, x.2)
        else if pointed = true then pure (Literal.float? ⟨negative, whole, fraction, 0⟩, r)
        else pure (Literal.integer? ⟨negative, whole, [], 0⟩, r)
      | [] =>
        if pointed = true then pure (Literal.float? ⟨negative, whole, fraction, 0⟩, r)
        else pure (Literal.integer? ⟨negative, whole, [], 0⟩, r)) =
      readEnd negative whole fraction pointed r := by
  cases r with
  | nil => cases pointed <;> rfl
  | cons mark after =>
    simp only [readEnd]
    split
    · cases readExponent after <;> rfl
    · cases pointed <;> rfl

/-- A number is read in three parts. -/
theorem readNumber_eq (negative : Bool) (cs : List Char) : readNumber negative cs =
    (let (whole, r) := Decimal.takeDigits cs
    if whole.isEmpty then .error (faultAt r)
    else if whole.head? = some '0' ∧ 1 < whole.length then .error .malformed
    else readFraction r >>= fun (fraction, r, pointed) ↦
      readEnd negative whole fraction pointed r) := by
  rw [readNumber]
  obtain ⟨whole, after⟩ := Decimal.takeDigits cs
  dsimp only
  split
  · rfl
  · split
    · rfl
    · split
      · next r =>
        rw [readFraction]
        obtain ⟨fraction, r⟩ := Decimal.takeDigits r
        dsimp only
        split
        · rfl
        · exact bind_readEnd fraction r true
      · next other =>
        rw [readFraction]
        · exact bind_readEnd [] after false
        · exact other

/-- A text that no number goes on with. -/
def Stops (rest : List Char) : Prop :=
  ∀ c ∈ rest.head?, c.isDigit = false ∧ c ≠ '.' ∧ c ≠ 'e' ∧ c ≠ 'E'

section Numbers

variable {negative pointed : Bool} {cs r whole fraction rest : List Char} {n? : Option Number}
  {e : Int}

theorem takeDigits_append (stops : Stops rest) (cs : List Char) :
    Decimal.takeDigits (cs ++ rest) =
      ((Decimal.takeDigits cs).1, (Decimal.takeDigits cs).2 ++ rest) := by
  induction cs with
  | nil =>
    cases rest with
    | nil => rfl
    | cons c r =>
      have nodigit := (stops c rfl).1
      simp [Decimal.takeDigits, nodigit]
  | cons c cs ih =>
    simp only [Decimal.takeDigits, Prod.mk.injEq] at ih ⊢
    cases hc : c.isDigit with
    | false => simp [hc]
    | true => simp [hc, ih]

theorem takeSign_append (hcs : cs ≠ []) : Decimal.takeSign (cs ++ rest) =
    ((Decimal.takeSign cs).1, (Decimal.takeSign cs).2 ++ rest) := by
  cases cs with
  | nil => exact absurd rfl hcs
  | cons c cs =>
    unfold Decimal.takeSign
    split <;> simp_all

theorem readExponent_append (stops : Stops rest) (h : readExponent cs = .ok (e, r)) :
    readExponent (cs ++ rest) = .ok (e, r ++ rest) := by
  have some : cs ≠ [] := by
    rintro rfl
    cases h
  rw [readExponent] at h ⊢
  rw [takeSign_append some]
  dsimp only at h ⊢
  rw [takeDigits_append stops]
  split at h
  · cases h
  · next digits =>
    cases h
    rw [if_neg digits]

theorem readFraction_of_ne (h : ∀ c ∈ cs.head?, c ≠ '.') :
    readFraction cs = .ok ([], cs, false) := by
  unfold readFraction
  split
  · exact absurd rfl (h '.' rfl)
  · rfl

theorem readFraction_append (stops : Stops rest)
    (h : readFraction cs = .ok (fraction, r, pointed)) :
    readFraction (cs ++ rest) = .ok (fraction, r ++ rest, pointed) := by
  cases cs with
  | nil =>
    cases h
    exact readFraction_of_ne fun c hc ↦ (stops c hc).2.1
  | cons c cs =>
    by_cases point : c = '.'
    · subst point
      rw [readFraction] at h
      rw [List.cons_append, readFraction, takeDigits_append stops]
      dsimp only at h ⊢
      split at h
      · cases h
      · next digits =>
        cases h
        rw [if_neg digits]
    · have plain (r : List Char) : readFraction (c :: r) = .ok ([], c :: r, false) :=
        readFraction_of_ne fun _ hc ↦ Option.mem_some.mp hc ▸ point
      rw [plain] at h
      cases h
      exact plain _

theorem readEnd_append (stops : Stops rest)
    (h : readEnd negative whole fraction pointed cs = .ok (n?, r)) :
    readEnd negative whole fraction pointed (cs ++ rest) = .ok (n?, r ++ rest) := by
  cases cs with
  | nil =>
    cases h
    cases rest with
    | nil => rfl
    | cons c rest =>
      obtain ⟨-, -, lower, upper⟩ := stops c rfl
      exact if_neg (not_or.mpr ⟨lower, upper⟩)
  | cons c cs =>
    simp only [readEnd, List.cons_append] at h ⊢
    split at h
    · next mark =>
      obtain ⟨⟨e, r'⟩, he, h⟩ := map_eq_ok_iff.mp h
      cases h
      rw [if_pos mark, readExponent_append stops he]
      rfl
    · next plain =>
      cases h
      rw [if_neg plain]
      rfl

/-- A number that is read from a text is read where the text goes on with something else. -/
theorem readNumber_append (stops : Stops rest) (h : readNumber negative cs = .ok (n?, r)) :
    readNumber negative (cs ++ rest) = .ok (n?, r ++ rest) := by
  rw [readNumber_eq] at h ⊢
  rw [takeDigits_append stops]
  dsimp only at h ⊢
  split at h
  · cases h
  · next digits =>
    rw [if_neg digits]
    split at h
    · cases h
    · next zero =>
      rw [if_neg zero]
      obtain ⟨⟨fraction, r', pointed⟩, hf, h⟩ := bind_eq_ok_iff.mp h
      rw [readFraction_append stops hf, ok_bind]
      exact readEnd_append stops h

end Numbers

/-! ## Numbers as documents -/

section Leaves

variable {fuel depth : Nat} {cs ds r : List Char} {n : Number} {negative : Bool} {t : Tree}
  {v : Value}

theorem value_leaf_word {t : Tree} {x : Except Fault (List Char)}
    (h : (leaf (x.map (some t, ·))).1.value = .ok v) : t.value = .ok v := by
  cases x with
  | error f => cases h
  | ok r => exact h

theorem eq_ok_of_leaf_number {x : Except Fault (Option Number × List Char)}
    (h : (leaf (x.map fun x ↦ (x.1.map .num, x.2))).1.value = .ok (.num n)) :
    ∃ r, x = .ok (some n, r) := by
  cases x with
  | error f => cases h
  | ok x =>
    obtain ⟨n?, r⟩ := x
    cases n? with
    | none => cases h
    | some m =>
      cases h
      exact ⟨r, rfl⟩

theorem eq_str_of_quoted {x : Except (Fault × Bool) (Option String × List Char)}
    (h : (quoted x).1.value = .ok v) : ∃ s, v = .str s := by
  cases x with
  | error f =>
    obtain ⟨f, sound⟩ := f
    cases sound <;> cases h
  | ok x =>
    obtain ⟨s?, r⟩ := x
    cases s? with
    | none => cases h
    | some s =>
      cases h
      exact ⟨s, rfl⟩

theorem value_inDepth (h : (inDepth depth t).value = .ok v) : t.value = .ok v := by
  rw [inDepth] at h
  split at h
  · exact h
  · cases h

theorem value_arr_ne_num {items : List Tree} {broken : Option Fault} :
    (Tree.arr items broken).value ≠ .ok (.num n) := by
  intro h
  rw [Tree.value] at h
  obtain ⟨vs, -, h⟩ := bind_eq_ok_iff.mp h
  cases broken <;> cases h

theorem value_obj_ne_num {members : List (Except Fault String × Tree)} {broken : Option Fault} :
    (Tree.obj members broken).value ≠ .ok (.num n) := by
  intro h
  rw [Tree.value] at h
  obtain ⟨vs, -, h⟩ := bind_eq_ok_iff.mp h
  cases broken <;> cases h

/-- A number starts with a sign or a digit. -/
inductive Numeral : Bool → List Char → List Char → Prop where
  | signed {ds : List Char} : Numeral true ds ('-' :: ds)
  | plain {c : Char} {r : List Char} (digit : c.isDigit = true) : Numeral false (c :: r) (c :: r)

theorem readTree_of_numeral (h : Numeral negative ds (skipSpace cs))
    (number : readNumber negative ds = .ok (some n, r)) :
    readTree (fuel + 1) depth cs = (.num n, some r) := by
  rw [readTree]
  generalize skipSpace cs = s at h
  cases h with
  | signed =>
    split
    case h_6 same =>
      cases same
      rw [number]
      rfl
    case h_9 minus _ _ same =>
      cases same
      exact absurd rfl minus
    all_goals
      next same => cases same
  | @plain c r digit =>
    split
    case h_9 same =>
      cases same
      rw [if_pos digit, number]
      rfl
    case h_1 same => cases same
    all_goals
      next same =>
      cases same
      cases digit

theorem numeral_of_readTree (h : (readTree (fuel + 1) depth cs).1.value = .ok (.num n)) :
    ∃ negative ds r, Numeral negative ds (skipSpace cs) ∧
      readNumber negative ds = .ok (some n, r) ∧ (readTree (fuel + 1) depth cs).2 = some r := by
  have found : ∃ negative ds r, Numeral negative ds (skipSpace cs) ∧
      readNumber negative ds = .ok (some n, r) := by
    rw [readTree] at h
    split at h
    case h_1 => cases h
    case h_2 | h_3 | h_4 => cases value_leaf_word h
    case h_5 =>
      obtain ⟨s, hs⟩ := eq_str_of_quoted h
      cases hs
    case h_6 same =>
      obtain ⟨r, hr⟩ := eq_ok_of_leaf_number h
      exact ⟨true, _, r, same ▸ .signed, hr⟩
    case h_7 =>
      split at h
      all_goals exact absurd (value_inDepth h) value_arr_ne_num
    case h_8 =>
      split at h
      all_goals exact absurd (value_inDepth h) value_obj_ne_num
    case h_9 same =>
      split at h
      · next digit =>
        obtain ⟨r, hr⟩ := eq_ok_of_leaf_number h
        exact ⟨false, _, r, same ▸ .plain digit, hr⟩
      · cases h
  obtain ⟨negative, ds, r, numeral, number⟩ := found
  exact ⟨negative, ds, r, numeral, number, by rw [readTree_of_numeral numeral number]⟩

end Leaves

end LivePage.Json
