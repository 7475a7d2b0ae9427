import Mathlib.Data.List.TakeWhile
import LivePage.Proofs.Expr.Munch
import LivePage.Proofs.Safety.Number

/-!
# The texts of tokens

A text is a token where it is written as one: a numeral, a string in quotes, an operator, a
delimiter or a name.  This is said of the text alone, whatever the way in which tokens are looked
for.  What is munched at the front of a text is written so; and a text that is written so is munched
as a whole, to the token that it is.
-/

namespace LivePage

open Decimal

namespace Token

/-- One or more decimal digits. -/
def Digits (ds : List Char) : Prop := ds ≠ [] ∧ ∀ c ∈ ds, c.isDigit = true

/-- A point and digits, which may both be missing; and the digits. -/
inductive Fraction : List Char → List Char → Prop where
  | missing : Fraction [] []
  | point {ds : List Char} (h : Digits ds) : Fraction ('.' :: ds) ds

/-- A mark, an optional sign and digits, which may all be missing; and the power of ten. -/
inductive Exponent : List Char → Int → Prop where
  | missing : Exponent [] 0
  | unsigned {mark : Char} {ds : List Char} (hm : mark = 'e' ∨ mark = 'E') (h : Digits ds) :
      Exponent (mark :: ds) (ofDigits ds)
  | plus {mark : Char} {ds : List Char} (hm : mark = 'e' ∨ mark = 'E') (h : Digits ds) :
      Exponent (mark :: '+' :: ds) (ofDigits ds)
  | minus {mark : Char} {ds : List Char} (hm : mark = 'e' ∨ mark = 'E') (h : Digits ds) :
      Exponent (mark :: '-' :: ds) (-ofDigits ds)

/-- What stands between two quotes, and what it says. -/
inductive Quoted (q : Char) : List Char → List Char → Prop where
  | nil : Quoted q [] []
  | plain {c : Char} {body text : List Char} (hq : c ≠ q) (hc : c ≠ '\\')
      (h : Quoted q body text) : Quoted q (c :: body) (c :: text)
  | escape (d : Char) {body text : List Char} (h : Quoted q body text) :
      Quoted q ('\\' :: d :: body) (unescape d :: text)

/-- A name as expressions have it. -/
def IsName (name : String) : Prop :=
  ∃ c r, name.toList = c :: r ∧ isNameStart c = true ∧ ∀ d ∈ r, isNamePart d = true

/-- The texts that tokens are written as. -/
inductive Lexeme : Token → List Char → Prop where
  | number {whole fraction places exponent : List Char} {e : Int} (hw : Digits whole)
      (hf : Fraction fraction places) (he : Exponent exponent e) :
      Lexeme (.number (scientific (ofDigits (whole ++ places)) (e - places.length)))
        (whole ++ (fraction ++ exponent))
  | string {q : Char} {body text : List Char} (hq : q = '"' ∨ q = '\'') (h : Quoted q body text) :
      Lexeme (.string (String.ofList text)) (q :: (body ++ [q]))
  | operator (o : Operator) : Lexeme (.operator o) o.text.toList
  | delimiter (d : Delimiter) : Lexeme (.delimiter d) [d.char]
  | identifier {name : String} (h : IsName name) : Lexeme (.identifier name) name.toList

/-- A text is munched as a whole. -/
def Spells (token : Token) (text : List Char) : Prop :=
  ∃ m, munch? text = some m ∧ m.size = text.length ∧ m.token = token

variable {c q : Char} {cs ds r whole fraction places exponent body text w : List Char} {e : Int}
  {n : Nat} {m : Munch} {token : Token} {name : String}

/-! ## Numerals -/

theorem Digits.cons (h : Digits ds) : ∃ d r, ds = d :: r ∧ d.isDigit = true := by
  obtain ⟨d, r, rfl⟩ := List.exists_cons_of_ne_nil h.1
  exact ⟨d, r, rfl, h.2 d List.mem_cons_self⟩

theorem Digits.takeDigits_append (h : Digits ds) (hr : ∀ c ∈ r.head?, c.isDigit = false) :
    takeDigits (ds ++ r) = (ds, r) := Decimal.takeDigits_append h.2 hr

theorem Digits.takeDigits_eq (h : Digits ds) : takeDigits ds = (ds, []) := by
  have hd := h.takeDigits_append (r := []) nofun
  rwa [List.append_nil] at hd

theorem Digits.countDigits_append (h : Digits ds) (hr : ∀ c ∈ r.head?, c.isDigit = false) :
    countDigits (ds ++ r) = ds.length :=
  congrArg (List.length ∘ Prod.fst) (h.takeDigits_append hr)

theorem Digits.countDigits_eq (h : Digits ds) : countDigits ds = ds.length :=
  congrArg (List.length ∘ Prod.fst) h.takeDigits_eq

/-- The digits at the front of a text. -/
theorem exists_digits (h : countDigits cs ≠ 0) :
    ∃ ds r, cs = ds ++ r ∧ Digits ds ∧ countDigits cs = ds.length :=
  ⟨cs.takeWhile Char.isDigit, cs.dropWhile Char.isDigit, List.takeWhile_append_dropWhile.symm,
    ⟨List.ne_nil_of_length_pos (Nat.pos_of_ne_zero h), List.all_eq_true.mp List.all_takeWhile⟩,
    rfl⟩

/-- An exponent starts with its mark, if it is not missing. -/
theorem Exponent.head (h : Exponent exponent e) : ∀ c ∈ exponent.head?, c = 'e' ∨ c = 'E' := by
  cases h with
  | missing => nofun
  | unsigned hm | plus hm | minus hm =>
    rintro c ⟨⟩
    exact hm

/-- Behind the digits in front of the point are no more of them. -/
theorem Exponent.not_isDigit_head (he : Exponent exponent e) (hf : Fraction fraction places) :
    ∀ c ∈ (fraction ++ exponent).head?, c.isDigit = false := by
  cases hf with
  | missing =>
    intro c hc
    rcases he.head c hc with rfl | rfl <;> rfl
  | point =>
    rintro c ⟨⟩
    rfl

theorem Exponent.exponentSize_eq (h : Exponent exponent e) :
    exponentSize exponent = exponent.length := by
  cases h with
  | missing => rfl
  | @unsigned mark ds hm h =>
    obtain ⟨d, r, hds, hd⟩ := h.cons
    have hsign : ¬(d = '+' ∨ d = '-') := by rintro (rfl | rfl) <;> cases hd
    have hcount := h.countDigits_eq
    rw [hds] at hcount
    rw [exponentSize_cons, if_pos hm, hds, signedSize, if_neg hsign, hcount]
    rfl
  | plus hm h | minus hm h =>
    have hne := List.length_pos_iff.mpr h.1
    rw [exponentSize_cons, if_pos hm, signedSize, if_pos (by simp), h.countDigits_eq,
      if_neg (by omega)]
    rfl

theorem Fraction.fractionSize_append (h : Fraction fraction places) (he : Exponent exponent e) :
    fractionSize (fraction ++ exponent) = fraction.length := by
  cases h with
  | missing =>
    cases hx : exponent with
    | nil => rfl
    | cons c r =>
      rw [List.nil_append, fractionSize_cons, if_neg]
      · rfl
      rintro rfl
      rcases he.head '.' (by rw [hx]; rfl) with h | h <;> cases h
  | point h =>
    have hne := List.length_pos_iff.mpr h.1
    have hcount := h.countDigits_append (he.not_isDigit_head .missing)
    rw [List.nil_append] at hcount
    rw [List.cons_append, fractionSize_cons, if_pos rfl, hcount, if_neg (by omega),
      List.length_cons]

/-- A numeral is a number as a whole. -/
theorem numberSize_eq (hw : Digits whole) (hf : Fraction fraction places)
    (he : Exponent exponent e) : countDigits (whole ++ (fraction ++ exponent)) = whole.length ∧
      numberSize (whole ++ (fraction ++ exponent)) =
        (whole ++ (fraction ++ exponent)).length := by
  have hcount := hw.countDigits_append (he.not_isDigit_head hf)
  refine ⟨hcount, ?_⟩
  rw [numberSize, hcount, List.drop_left, hf.fractionSize_append he, ← List.append_assoc,
    ← List.length_append, List.drop_left, he.exponentSize_eq, ← List.length_append]

theorem Fraction.takeFraction_append (h : Fraction fraction places) (he : Exponent exponent e) :
    takeFraction (fraction ++ exponent) = (places, exponent) := by
  cases h with
  | missing =>
    rw [List.nil_append, takeFraction]
    rintro r rfl
    rcases he.head '.' rfl with h | h <;> cases h
  | point h => exact h.takeDigits_append (he.not_isDigit_head .missing)

theorem Exponent.takeExponent?_eq (h : Exponent exponent e) :
    (takeExponent? exponent).getD (0, exponent) = (e, []) := by
  cases h with
  | missing => rfl
  | @unsigned mark ds hm h =>
    obtain ⟨d, r, hds, hd⟩ := h.cons
    have hsign : takeSign ds = (false, ds) := by
      rw [hds, takeSign]
      all_goals
        intro r' h
        cases (List.cons.inj h).1
        cases hd
    simp [takeExponent?, if_pos hm, hsign, h.takeDigits_eq, h.1]
  | plus hm h | minus hm h => simp [takeExponent?, if_pos hm, takeSign, h.takeDigits_eq, h.1]

/-- A numeral is the number that its digits write, with the point and the power of ten it has. -/
theorem readMagnitude?_append (hw : Digits whole) (hf : Fraction fraction places)
    (he : Exponent exponent e) : readMagnitude? (whole ++ (fraction ++ exponent)) =
      some (scientific (ofDigits (whole ++ places)) (e - places.length)) := by
  have hdecimal : takeDecimal? (whole ++ (fraction ++ exponent)) =
      some (ofDigits (whole ++ places), places.length, exponent) :=
    takeDecimal?_eq_some_iff.mpr ⟨whole, fraction ++ exponent, places,
      hw.takeDigits_append (he.not_isDigit_head hf), hf.takeFraction_append he,
      fun h ↦ hw.1 h.1, rfl, rfl⟩
  rw [readMagnitude?_eq, hdecimal, Option.bind_some]
  dsimp only
  rw [he.takeExponent?_eq]
  rfl

theorem exists_fraction (cs : List Char) : ∃ fraction places r, cs = fraction ++ r ∧
    Fraction fraction places ∧ fractionSize cs = fraction.length := by
  by_cases hzero : fractionSize cs = 0
  · exact ⟨[], [], cs, rfl, .missing, hzero⟩
  · cases cs with
    | nil => exact absurd rfl hzero
    | cons c r =>
      rw [fractionSize_cons] at hzero ⊢
      obtain rfl : c = '.' := by
        by_contra hc
        exact hzero (if_neg hc)
      rw [if_pos rfl] at hzero ⊢
      have hr : countDigits r ≠ 0 := fun hr ↦ hzero (if_pos hr)
      rw [if_neg hr]
      obtain ⟨ds, r, rfl, hd, hcount⟩ := exists_digits hr
      rw [hcount]
      exact ⟨'.' :: ds, ds, r, rfl, .point hd, rfl⟩

theorem exists_exponent (cs : List Char) : ∃ exponent e r, cs = exponent ++ r ∧
    Exponent exponent e ∧ exponentSize cs = exponent.length := by
  by_cases hzero : exponentSize cs = 0
  · exact ⟨[], 0, cs, rfl, .missing, hzero⟩
  · cases cs with
    | nil => exact absurd rfl hzero
    | cons c cs =>
      rw [exponentSize_cons] at hzero ⊢
      have hc : c = 'e' ∨ c = 'E' := by
        by_contra hc
        exact hzero (if_neg hc)
      rw [if_pos hc] at hzero ⊢
      cases cs with
      | nil => exact absurd rfl hzero
      | cons s r =>
        rw [signedSize] at hzero ⊢
        by_cases hs : s = '+' ∨ s = '-'
        · rw [if_pos hs] at hzero ⊢
          have hr : countDigits r ≠ 0 := fun hr ↦ hzero (if_pos hr)
          rw [if_neg hr]
          obtain ⟨ds, r, rfl, hd, hcount⟩ := exists_digits hr
          rw [hcount]
          rcases hs with rfl | rfl
          · exact ⟨c :: '+' :: ds, _, r, rfl, .plus hc hd, rfl⟩
          · exact ⟨c :: '-' :: ds, _, r, rfl, .minus hc hd, rfl⟩
        · rw [if_neg hs] at hzero ⊢
          have hr : countDigits (s :: r) ≠ 0 := fun hr ↦ hzero (if_pos hr)
          rw [if_neg hr]
          obtain ⟨ds, r, hcs, hd, hcount⟩ := exists_digits hr
          rw [hcount, hcs]
          exact ⟨c :: ds, _, r, rfl, .unsigned hc hd, rfl⟩

/-- The number at the front of a text is a numeral. -/
theorem exists_numeral (h : countDigits cs ≠ 0) : ∃ whole fraction places exponent e r,
    cs = whole ++ (fraction ++ exponent) ++ r ∧ Digits whole ∧ Fraction fraction places ∧
      Exponent exponent e ∧ numberSize cs = (whole ++ (fraction ++ exponent)).length := by
  obtain ⟨whole, r, rfl, hw, hcount⟩ := exists_digits h
  obtain ⟨fraction, places, r, rfl, hf, hfsize⟩ := exists_fraction r
  obtain ⟨exponent, e, r, rfl, he, hesize⟩ := exists_exponent r
  refine ⟨whole, fraction, places, exponent, e, r, by simp, hw, hf, he, ?_⟩
  rw [numberSize, hcount, List.drop_left, hfsize, ← List.append_assoc, ← List.length_append,
    List.drop_left, hesize]
  simp only [List.length_append, Nat.add_assoc]

theorem lexeme_of_number? (h : number? text = some m) (hs : m.size = text.length) :
    m.token.Lexeme text := by
  obtain ⟨hpos, hsize, htoken⟩ := number?_eq_some_iff.mp h
  obtain ⟨whole, fraction, places, exponent, e, r, rfl, hw, hf, he, hn⟩ := exists_numeral hpos.ne'
  have hr : r = [] := by
    rw [hs, hn, List.length_append] at hsize
    exact List.eq_nil_of_length_eq_zero (by omega)
  subst hr
  rw [hn, List.take_left, readMagnitude?_append hw hf he, Option.getD_some] at htoken
  rw [htoken, List.append_nil]
  exact .number hw hf he

theorem spells_number (hw : Digits whole) (hf : Fraction fraction places)
    (he : Exponent exponent e) :
    (Token.number (scientific (ofDigits (whole ++ places)) (e - places.length))).Spells
      (whole ++ (fraction ++ exponent)) := by
  obtain ⟨hcount, hsize⟩ := numberSize_eq hw hf he
  have hpos : 0 < (whole ++ (fraction ++ exponent)).length := by
    rw [List.length_append]
    exact Nat.add_pos_left (List.length_pos_iff.mpr hw.1) _
  have hnumber : number? (whole ++ (fraction ++ exponent)) =
      some ⟨.number (scientific (ofDigits (whole ++ places)) (e - places.length)), _, hpos⟩ := by
    refine number?_eq_some_iff.mpr ⟨hcount ▸ List.length_pos_iff.mpr hw.1, hsize.symm, ?_⟩
    rw [hsize, List.take_length, readMagnitude?_append hw hf he, Option.getD_some]
  rw [Spells, munch?, hnumber]
  exact ⟨_, rfl, rfl, rfl⟩

/-! ## Strings -/

/-- What is read up to a quote is what stands before it. -/
theorem exists_quoted (h : quoted? q cs = some (w, n)) :
    ∃ body r, cs = body ++ q :: r ∧ Quoted q body w ∧ n = body.length + 1 := by
  induction cs using quoted?.induct q generalizing w n with
  | case1 => cases h
  | case2 r =>
    rw [quoted?_quote] at h
    cases h
    exact ⟨[], r, rfl, .nil, rfl⟩
  | case3 hq =>
    simp only [quoted?, if_neg hq, if_pos] at h
    cases h
  | case4 d r hq ih =>
    rw [quoted?_escape hq, Option.map_eq_some_iff] at h
    obtain ⟨⟨w', n'⟩, h, he⟩ := h
    cases he
    obtain ⟨body, r', rfl, hbody, rfl⟩ := ih h
    exact ⟨_, r', rfl, .escape d hbody, rfl⟩
  | case5 c r hq hc ih =>
    rw [quoted?_plain hq hc, Option.map_eq_some_iff] at h
    obtain ⟨⟨w', n'⟩, h, he⟩ := h
    cases he
    obtain ⟨body, r', rfl, hbody, rfl⟩ := ih h
    exact ⟨_, r', rfl, .plain hq hc hbody, rfl⟩

theorem Quoted.quoted?_append (h : Quoted q body w) (hq : '\\' ≠ q) (r : List Char) :
    quoted? q (body ++ q :: r) = some (w, body.length + 1) := by
  induction h with
  | nil => exact quoted?_quote q r
  | plain hne hc _ ih =>
    rw [List.cons_append, quoted?_plain hne hc, ih]
    rfl
  | escape d _ ih =>
    rw [List.cons_append, List.cons_append, quoted?_escape hq, ih]
    rfl

theorem lexeme_of_string? (h : string? text = some m) (hs : m.size = text.length) :
    m.token.Lexeme text := by
  cases text with
  | nil => cases h
  | cons q r =>
    rw [string?, Option.ite_none_right_eq_some] at h
    obtain ⟨hq, h⟩ := h
    obtain ⟨⟨w, n⟩, hquoted, rfl⟩ := Option.map_eq_some_iff.mp h
    obtain ⟨body, r, rfl, hbody, rfl⟩ := exists_quoted hquoted
    have hr : r = [] := by
      simp only [List.length_cons, List.length_append] at hs
      exact List.eq_nil_of_length_eq_zero (by omega)
    rw [hr]
    exact .string hq hbody

theorem spells_string (hq : q = '"' ∨ q = '\'') (h : Quoted q body w) :
    (Token.string (String.ofList w)).Spells (q :: (body ++ [q])) := by
  have hne : '\\' ≠ q := by rcases hq with rfl | rfl <;> decide
  rw [Spells, munch?_cons, if_pos hq, string?, if_pos hq, h.quoted?_append hne]
  exact ⟨_, rfl, by simp, rfl⟩

/-! ## Operators and delimiters -/

theorem lexeme_of_operator? (h : operator? text = some m) (hs : m.size = text.length) :
    m.token.Lexeme text := by
  obtain ⟨o, ho, rfl⟩ := Option.map_eq_some_iff.mp h
  have hp := List.find?_some ho
  rw [List.isPrefixOf_iff_prefix] at hp
  rw [← hp.eq_of_length (String.length_toList.trans hs)]
  exact .operator o

theorem spells_operator (o : Operator) : (Token.operator o).Spells o.text.toList := by
  cases o <;> exact ⟨_, rfl, rfl, rfl⟩

theorem char_of_ofChar? {d : Delimiter} (h : Delimiter.ofChar? c = some d) : d.char = c :=
  beq_iff_eq.mp (List.find?_some (p := fun d : Delimiter ↦ d.char == c) h)

theorem lexeme_of_delimiter? (h : delimiter? text = some m) (hs : m.size = text.length) :
    m.token.Lexeme text := by
  cases text with
  | nil => cases h
  | cons c r =>
    obtain ⟨d, hd, rfl⟩ := Option.map_eq_some_iff.mp h
    obtain rfl := List.eq_nil_of_length_eq_zero (Nat.succ_inj.mp hs).symm
    obtain rfl := char_of_ofChar? hd
    exact .delimiter d

theorem spells_delimiter (d : Delimiter) : (Token.delimiter d).Spells [d.char] := by
  cases d <;> exact ⟨_, rfl, rfl, rfl⟩

/-! ## Names -/

/-- No name starts with a digit. -/
theorem not_isNameStart_of_isDigit (h : c.isDigit = true) : isNameStart c = false := by
  have hc : c.toNat < 58 ∧ c ≠ '$' := by
    simp only [Char.isDigit, Bool.and_eq_true, decide_eq_true_eq] at h
    refine ⟨Nat.lt_succ_of_le h.2, ?_⟩
    rintro rfl
    exact absurd h.1 (by decide)
  have hascii : Text.isAscii c = true := decide_eq_true (by omega)
  have halpha : c.isAlpha = false := by
    rw [Bool.eq_false_iff]
    intro ha
    have hfirst : 'A'.val ≤ c.val ∨ 'a'.val ≤ c.val :=
      (Bool.or_eq_true_iff.mp ha).imp (fun hu ↦ (of_decide_eq_true hu).1)
        fun hl ↦ of_decide_eq_true (Bool.and_eq_true_iff.mp hl).1
    have hle : 58 ≤ c.toNat := by
      rcases hfirst with h | h
      · exact Nat.le_trans (by decide) h
      · exact Nat.le_trans (by decide) h
    omega
  have hlow : c ≠ '_' := by
    rintro rfl
    exact absurd hc.1 (by decide)
  simp [isNameStart, Text.isAlphabetic, hascii, halpha, hlow, hc.2]

/-- No operator has a character that names start with. -/
theorem not_isNameStart_of_mem_text (o : Operator) :
    ∀ c ∈ o.text.toList, isNameStart c = false := by
  have hall : o.text.toList.all (!isNameStart ·) = true := by cases o <;> rfl
  simpa using hall

theorem not_isNameStart_char (d : Delimiter) : isNameStart d.char = false := by
  cases d <;> rfl

/-- Only names start as names do. -/
theorem munch?_of_isNameStart (h : isNameStart c = true) (r : List Char) :
    munch? (c :: r) = identifier? (c :: r) := by
  have hnumber : number? (c :: r) = none := by
    rw [← Option.not_isSome_iff_eq_none, isSome_number?_cons]
    intro hd
    rw [not_isNameStart_of_isDigit hd] at h
    cases h
  have hstring : string? (c :: r) = none := by
    rw [string?, if_neg]
    rintro (rfl | rfl) <;> cases h
  have hoperator : operator? (c :: r) = none := by
    refine operator?_of_not_mem (fun o ho ↦ ?_) r
    rw [not_isNameStart_of_mem_text o c ho] at h
    cases h
  have hdelimiter : delimiter? (c :: r) = none := by
    rw [delimiter?, Option.map_eq_none_iff, Option.eq_none_iff_forall_ne_some]
    intro d hd
    rw [← char_of_ofChar? hd, not_isNameStart_char] at h
    cases h
  rw [munch?, hnumber, hstring, hoperator, hdelimiter]
  rfl

theorem lexeme_of_identifier? (h : identifier? text = some m) (hs : m.size = text.length) :
    m.token.Lexeme text := by
  cases text with
  | nil => cases h
  | cons c r =>
    rw [identifier?, Option.ite_none_right_eq_some] at h
    obtain ⟨hc, h⟩ := h
    cases h
    have hlen : (r.takeWhile isNamePart).length = r.length := Nat.succ_inj.mp hs
    have hr : r.takeWhile isNamePart = r :=
      (List.takeWhile_prefix isNamePart).eq_of_length hlen
    have hname : IsName (String.ofList (c :: r)) := by
      refine ⟨c, r, String.toList_ofList, hc, ?_⟩
      rw [← hr]
      exact List.all_eq_true.mp List.all_takeWhile
    have hl := Lexeme.identifier hname
    rw [String.toList_ofList] at hl
    simpa only [hr] using hl

theorem spells_identifier (h : IsName name) : (Token.identifier name).Spells name.toList := by
  obtain ⟨c, r, hname, hc, hr⟩ := h
  have hall : r.takeWhile isNamePart = r := List.takeWhile_eq_self_iff.mpr hr
  rw [Spells, hname, munch?_of_isNameStart hc, identifier?, if_pos hc]
  refine ⟨_, rfl, congrArg (·.length + 1) hall, ?_⟩
  change Token.identifier (String.ofList (c :: r.takeWhile isNamePart)) = _
  rw [hall, ← hname, String.ofList_toList]

/-! ## All kinds -/

theorem munch?_cases (h : munch? cs = some m) : number? cs = some m ∨ string? cs = some m ∨
    operator? cs = some m ∨ delimiter? cs = some m ∨ identifier? cs = some m := by
  simp only [munch?, Option.or_eq_some_iff] at h
  rcases h with (((h | ⟨-, h⟩) | ⟨-, h⟩) | ⟨-, h⟩) | ⟨-, h⟩
  · exact .inl h
  · exact .inr (.inl h)
  · exact .inr (.inr (.inl h))
  · exact .inr (.inr (.inr (.inl h)))
  · exact .inr (.inr (.inr (.inr h)))

/-- A text is munched as a whole to just the token that it is written as. -/
theorem spells_iff_lexeme : token.Spells text ↔ token.Lexeme text := by
  constructor
  · rintro ⟨m, hm, hs, rfl⟩
    rcases munch?_cases hm with h | h | h | h | h
    · exact lexeme_of_number? h hs
    · exact lexeme_of_string? h hs
    · exact lexeme_of_operator? h hs
    · exact lexeme_of_delimiter? h hs
    · exact lexeme_of_identifier? h hs
  · intro h
    cases h with
    | number hw hf he => exact spells_number hw hf he
    | string hq h => exact spells_string hq h
    | operator o => exact spells_operator o
    | delimiter d => exact spells_delimiter d
    | identifier h => exact spells_identifier h

/-- A text is written as one token at most. -/
theorem Lexeme.eq {t u : Token} (ht : t.Lexeme text) (hu : u.Lexeme text) : t = u := by
  obtain ⟨m, hm, -, rfl⟩ := spells_iff_lexeme.mpr ht
  obtain ⟨m', hm', -, rfl⟩ := spells_iff_lexeme.mpr hu
  rw [Option.some.inj (hm.symm.trans hm')]

end Token

end LivePage
