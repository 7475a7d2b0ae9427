import LivePage.Expr.Lexer

/-!
# The token at the front of a text

No recognizer of tokens looks further than a few characters behind the token that it finds, and none
goes on over a blank.  So a token stays the same where what follows it is cut off at some place, or
goes on with a blank there; and where there is a token at the front of a text, there is one, which
may be longer, however the text goes on.
-/

namespace LivePage

namespace Token

variable {c : Char} {r r' t u v w : List Char} {m : Munch}

/-- A text goes like another one, until it ends or there is a blank. -/
inductive Follows : List Char → List Char → Prop where
  | stop (r : List Char) : Follows r []
  | blank {s : Char} (hs : isSpace s = true) (r q : List Char) : Follows r (s :: q)
  | same (c : Char) {r r' : List Char} (h : Follows r r') : Follows (c :: r) (c :: r')

namespace Follows

theorem append (h : Follows r r') (t : List Char) : Follows (t ++ r) (t ++ r') := by
  induction t with
  | nil => exact h
  | cons c t ih => exact .same c ih

theorem cut (h : r' <+: r) : Follows r r' := by
  obtain ⟨q, rfl⟩ := h
  simpa using (stop q).append r'

end Follows

/-- What can be said of a recognizer of tokens that start with characters of some kind.  It finds
one where it finds one in a part of the text, and none where another kind of character is in front;
and what it finds in the front of a text does not depend on what is behind that. -/
structure Recognizes (f : List Char → Option Munch) : Prop where
  size_le : ∀ {cs m}, f cs = some m → m.size ≤ cs.length
  grows : ∀ {u v}, (f u).isSome = true → (f (u ++ v)).isSome = true
  calm : ∀ {c r r'}, f (c :: r) = none → Follows r r' → f (c :: r') = none
  settled : ∀ {t r r' m}, f (t ++ r) = some m → m.size ≤ t.length → Follows r r' →
    f (t ++ r') = some m

namespace Recognizes

variable {f g : List Char → Option Munch}

/-- Of two recognizers the first one goes first. -/
theorem or (hf : Recognizes f) (hg : Recognizes g) : Recognizes fun cs ↦ (f cs).or (g cs) where
  size_le h := by
    rcases Option.or_eq_some_iff.mp h with h | ⟨-, h⟩
    · exact hf.size_le h
    · exact hg.size_le h
  grows {u v} h := by
    rw [Option.isSome_or, Bool.or_eq_true] at h ⊢
    exact h.imp hf.grows hg.grows
  calm h hr := by
    rw [Option.or_eq_none_iff] at h ⊢
    exact ⟨hf.calm h.1 hr, hg.calm h.2 hr⟩
  settled {t r r' m} h hm hr := by
    rw [Option.or_eq_some_iff] at h ⊢
    rcases h with h | ⟨hnone, h⟩
    · exact .inl (hf.settled h hm hr)
    · cases t with
      | nil => exact absurd m.size_pos (by simpa using hm)
      | cons c t => exact .inr ⟨hf.calm hnone (hr.append t), hg.settled h hm hr⟩

end Recognizes

/-! ## Blanks -/

theorem isSpace_iff : isSpace c = true ↔ c = ' ' ∨ c = '\t' ∨ c = '\r' ∨ c = '\n' := by
  simp only [isSpace, Bool.or_eq_true, beq_iff_eq, or_assoc]

theorem not_isDigit_of_isSpace (h : isSpace c = true) : c.isDigit = false := by
  rcases isSpace_iff.mp h with rfl | rfl | rfl | rfl <;> rfl

theorem not_isNamePart_of_isSpace (h : isSpace c = true) : isNamePart c = false := by
  rcases isSpace_iff.mp h with rfl | rfl | rfl | rfl <;> rfl

/-- Where a run of characters ends within a part of a text, it ends there however the text goes
on. -/
theorem takeWhile_follows {p : Char → Bool} (hp : ∀ s, isSpace s = true → p s = false)
    (hr : Follows r r') (h : ((t ++ r).takeWhile p).length ≤ t.length) :
    (t ++ r').takeWhile p = (t ++ r).takeWhile p := by
  induction t with
  | nil =>
    have hnil : r.takeWhile p = [] := List.eq_nil_of_length_eq_zero (Nat.le_zero.mp h)
    rw [List.nil_append, List.nil_append, hnil]
    cases hr with
    | stop => rfl
    | blank hs => rw [List.takeWhile_cons, hp _ hs]; rfl
    | same c =>
      rw [List.takeWhile_cons] at hnil ⊢
      split at hnil
      · cases hnil
      · next hc => rw [if_neg hc]
  | cons c t ih =>
    rw [List.cons_append, List.cons_append, List.takeWhile_cons, List.takeWhile_cons] at *
    split
    · next hc =>
      rw [if_pos hc, List.length_cons, List.length_cons] at h
      rw [ih (Nat.le_of_succ_le_succ h)]
    · rfl

/-! ## Numbers -/

theorem countDigits_cons (c : Char) (r : List Char) :
    countDigits (c :: r) = if c.isDigit = true then countDigits r + 1 else 0 := by
  rw [countDigits, List.takeWhile_cons]
  split
  · rfl
  · rfl

theorem countDigits_of_isSpace (h : isSpace c = true) (r : List Char) :
    countDigits (c :: r) = 0 := by
  rw [countDigits_cons, not_isDigit_of_isSpace h]
  rfl

theorem countDigits_follows (hr : Follows r r') (h : countDigits (t ++ r) ≤ t.length) :
    countDigits (t ++ r') = countDigits (t ++ r) :=
  congrArg List.length (takeWhile_follows (fun _ ↦ not_isDigit_of_isSpace) hr h)

theorem countDigits_le (cs : List Char) : countDigits cs ≤ cs.length :=
  (List.takeWhile_prefix Char.isDigit).length_le

theorem fractionSize_cons (c : Char) (r : List Char) : fractionSize (c :: r) =
    if c = '.' then if countDigits r = 0 then 0 else countDigits r + 1 else 0 := by
  rw [fractionSize.eq_def]
  split
  · next h => rw [(List.cons.inj h).1, if_pos rfl, (List.cons.inj h).2]
  · next h =>
    rw [if_neg]
    rintro rfl
    exact h r rfl

theorem fractionSize_le (cs : List Char) : fractionSize cs ≤ cs.length := by
  cases cs with
  | nil => exact Nat.le_refl 0
  | cons c r =>
    have := countDigits_le r
    rw [fractionSize_cons, List.length_cons]
    split
    · split <;> omega
    · omega

theorem fractionSize_cons_follows (hr : Follows r r')
    (h : fractionSize (c :: (t ++ r)) ≤ t.length + 1) :
    fractionSize (c :: (t ++ r')) = fractionSize (c :: (t ++ r)) := by
  rw [fractionSize_cons] at h ⊢
  rw [fractionSize_cons]
  split
  · next hc =>
    rw [if_pos hc] at h
    have hdigits : countDigits (t ++ r) ≤ t.length := by
      split at h <;> omega
    rw [countDigits_follows hr hdigits]
  · rfl

theorem fractionSize_follows (hr : Follows r r') (h : fractionSize (t ++ r) ≤ t.length) :
    fractionSize (t ++ r') = fractionSize (t ++ r) := by
  cases t with
  | cons c t => exact fractionSize_cons_follows hr h
  | nil =>
    have hzero : fractionSize r = 0 := Nat.le_zero.mp h
    rw [List.nil_append, List.nil_append]
    cases hr with
    | stop => exact hzero.symm
    | blank hs =>
      rw [hzero, fractionSize_cons, if_neg]
      rintro rfl
      cases hs
    | same c hr => exact fractionSize_cons_follows (t := []) hr (Nat.le_succ_of_le h)

/-- Length of an optional sign and digits, and of the mark in front, if the digits are there. -/
def signedSize : List Char → Nat
  | [] => 0
  | s :: r =>
    if s = '+' ∨ s = '-' then if countDigits r = 0 then 0 else countDigits r + 2
    else if countDigits (s :: r) = 0 then 0 else countDigits (s :: r) + 1

theorem exponentSize_cons (c : Char) (r : List Char) : exponentSize (c :: r) =
    if c = 'e' ∨ c = 'E' then signedSize r else 0 := by
  cases r with
  | nil => rfl
  | cons s r =>
    rw [signedSize]
    by_cases hs : s = '+' ∨ s = '-'
    · rw [if_pos hs]
      rcases hs with rfl | rfl
      · rfl
      · rfl
    · rw [if_neg hs, exponentSize]
      · rfl
      · exact fun _ h ↦ hs (.inl (List.cons.inj h).1)
      · exact fun _ h ↦ hs (.inr (List.cons.inj h).1)

theorem exponentSize_le (cs : List Char) : exponentSize cs ≤ cs.length := by
  cases cs with
  | nil => exact Nat.le_refl 0
  | cons c r =>
    rw [exponentSize_cons, List.length_cons]
    split
    · cases r with
      | nil => exact Nat.zero_le _
      | cons s r =>
        have hr := countDigits_le r
        have hs := countDigits_le (s :: r)
        rw [List.length_cons] at hs
        rw [signedSize, List.length_cons]
        split <;> split <;> omega
    · omega

theorem signedSize_follows (hr : Follows r r') (h : signedSize (t ++ r) ≤ t.length + 1) :
    signedSize (t ++ r') = signedSize (t ++ r) := by
  cases t with
  | cons s t =>
    rw [List.cons_append, List.cons_append, signedSize, signedSize] at *
    split
    · next hs =>
      rw [if_pos hs, List.length_cons] at h
      have hdigits : countDigits (t ++ r) ≤ t.length := by
        split at h <;> omega
      rw [countDigits_follows hr hdigits]
    · next hs =>
      rw [if_neg hs] at h
      have hdigits : countDigits (s :: t ++ r) ≤ (s :: t).length := by
        rw [List.cons_append]
        split at h <;> omega
      have hsame := countDigits_follows hr hdigits
      rw [List.cons_append, List.cons_append] at hsame
      rw [hsame]
  | nil =>
    -- a mark without digits behind it is not taken, so there are none to lose
    have hzero : signedSize r = 0 := by
      cases r with
      | nil => rfl
      | cons s r =>
        rw [List.nil_append, signedSize] at h
        rw [signedSize]
        split at h <;> split at h <;> simp_all
    have none {r r' : List Char} (hr : Follows r r') (h : countDigits r = 0) :
        countDigits r' = 0 := (countDigits_follows (t := []) hr (Nat.le_of_eq h)).trans h
    rw [List.nil_append, List.nil_append, hzero]
    cases hr with
    | stop => rfl
    | blank hs r q =>
      rw [signedSize, if_neg, if_pos (countDigits_of_isSpace hs q)]
      rintro (rfl | rfl) <;> cases hs
    | same s hr =>
      rw [signedSize] at hzero ⊢
      split at hzero
      · next hs => rw [if_pos hs, if_pos (none hr (by simpa using hzero))]
      · next hs => rw [if_neg hs, if_pos (none (.same s hr) (by simpa using hzero))]

theorem exponentSize_cons_follows (hr : Follows r r')
    (h : exponentSize (c :: (t ++ r)) ≤ t.length + 1) :
    exponentSize (c :: (t ++ r')) = exponentSize (c :: (t ++ r)) := by
  rw [exponentSize_cons] at h ⊢
  rw [exponentSize_cons]
  split
  · next hc => exact signedSize_follows hr (by rwa [if_pos hc] at h)
  · rfl

theorem exponentSize_follows (hr : Follows r r') (h : exponentSize (t ++ r) ≤ t.length) :
    exponentSize (t ++ r') = exponentSize (t ++ r) := by
  cases t with
  | cons c t => exact exponentSize_cons_follows hr h
  | nil =>
    have hzero : exponentSize r = 0 := Nat.le_zero.mp h
    rw [List.nil_append, List.nil_append]
    cases hr with
    | stop => exact hzero.symm
    | blank hs =>
      rw [hzero, exponentSize_cons, if_neg]
      rintro (rfl | rfl) <;> cases hs
    | same c hr => exact exponentSize_cons_follows (t := []) hr (Nat.le_succ_of_le h)

/-- How much of a text is a number. -/
def numberSize (cs : List Char) : Nat :=
  let whole := countDigits cs
  let fraction := fractionSize (cs.drop whole)
  whole + fraction + exponentSize (cs.drop (whole + fraction))

theorem numberSize_follows (hr : Follows r r') (h : numberSize (t ++ r) ≤ t.length) :
    numberSize (t ++ r') = numberSize (t ++ r) := by
  unfold numberSize at *
  dsimp only at *
  have hwhole : countDigits (t ++ r) ≤ t.length := by omega
  have hfraction : fractionSize ((t ++ r).drop (countDigits (t ++ r))) ≤
      (t.drop (countDigits (t ++ r))).length := by
    rw [List.length_drop]
    omega
  rw [countDigits_follows hr hwhole]
  generalize countDigits (t ++ r) = whole at *
  rw [List.drop_append_of_le_length hwhole] at *
  rw [List.drop_append_of_le_length hwhole, fractionSize_follows hr hfraction]
  generalize fractionSize (t.drop whole ++ r) = fraction at *
  have hboth : whole + fraction ≤ t.length := by omega
  rw [List.drop_append_of_le_length hboth] at *
  rw [List.drop_append_of_le_length hboth, exponentSize_follows hr]
  rw [List.length_drop]
  omega

theorem number?_eq_some_iff {cs : List Char} : number? cs = some m ↔
    0 < countDigits cs ∧ m.size = numberSize cs ∧
      m.token = .number ((Decimal.readMagnitude? (cs.take (numberSize cs))).getD 0.0) := by
  obtain ⟨token, size, pos⟩ := m
  rw [number?]
  split
  · next h => simp [h, numberSize, eq_comm, and_comm]
  · next h => simp [h]

theorem isSome_number?_cons (c : Char) (r : List Char) :
    (number? (c :: r)).isSome = c.isDigit := by
  have hpos : 0 < countDigits (c :: r) ↔ c.isDigit = true := by
    rw [countDigits_cons]
    cases c.isDigit <;> simp
  rw [number?]
  split
  · next h => exact (hpos.mp h).symm
  · next h => exact (Bool.eq_false_iff.mpr (h ∘ hpos.mpr)).symm

theorem recognizes_number : Recognizes number? where
  size_le {cs m} h := by
    have hwhole := countDigits_le cs
    have hfraction := fractionSize_le (cs.drop (countDigits cs))
    have hexponent := exponentSize_le
      (cs.drop (countDigits cs + fractionSize (cs.drop (countDigits cs))))
    rw [List.length_drop] at hfraction hexponent
    rw [(number?_eq_some_iff.mp h).2.1, numberSize]
    omega
  grows {u v} h := by
    cases u with
    | nil => cases h
    | cons c u =>
      rw [List.cons_append, isSome_number?_cons] at *
      exact h
  calm {c r r'} h hr := by
    rw [← Option.not_isSome_iff_eq_none, isSome_number?_cons] at *
    exact h
  settled {t r r' m} h hm hr := by
    rw [number?_eq_some_iff] at *
    obtain ⟨hpos, hsize, htoken⟩ := h
    have hsame := numberSize_follows hr (hsize ▸ hm)
    have hwhole : countDigits (t ++ r) ≤ t.length := by
      rw [hsize, numberSize] at hm
      omega
    rw [countDigits_follows hr hwhole, hsame]
    refine ⟨hpos, hsize, ?_⟩
    rw [htoken, List.take_append_of_le_length (hsize ▸ hm),
      List.take_append_of_le_length (hsize ▸ hm)]

/-! ## Operators -/

/-- What goes like a text starts with a word without blanks only where the text does. -/
theorem Follows.prefix_cut (h : Follows r r') (hw : ∀ s ∈ w, isSpace s = false)
    (hp : w <+: r') : w <+: r := by
  induction h generalizing w with
  | stop => rw [List.prefix_nil.mp hp]; exact List.nil_prefix
  | blank hs =>
    cases w with
    | nil => exact List.nil_prefix
    | cons c w =>
      obtain ⟨rfl, -⟩ := List.cons_prefix_cons.mp hp
      rw [hw c List.mem_cons_self] at hs
      cases hs
  | same c _ ih =>
    cases w with
    | nil => exact List.nil_prefix
    | cons d w =>
      obtain ⟨rfl, hrest⟩ := List.cons_prefix_cons.mp hp
      refine List.cons_prefix_cons.mpr ⟨rfl, ih (fun s hs ↦ ?_) hrest⟩
      exact hw s (List.mem_cons_of_mem d hs)

/-- No operator has a blank. -/
theorem not_isSpace_of_mem_text (o : Operator) : ∀ s ∈ o.text.toList, isSpace s = false := by
  have hall : o.text.toList.all (!isSpace ·) = true := by cases o <;> rfl
  simpa using hall

theorem recognizes_operator : Recognizes operator? where
  size_le h := by
    obtain ⟨o, ho, rfl⟩ := Option.map_eq_some_iff.mp h
    have hp := List.find?_some ho
    rw [List.isPrefixOf_iff_prefix] at hp
    change o.text.length ≤ _
    rw [← String.length_toList]
    exact hp.length_le
  grows {u v} h := by
    rw [operator?, Option.isSome_map, List.find?_isSome] at *
    obtain ⟨o, ho, hp⟩ := h
    exact ⟨o, ho, by
      rw [List.isPrefixOf_iff_prefix] at *
      exact hp.trans (List.prefix_append u v)⟩
  calm {c r r'} h hr := by
    rw [operator?, Option.map_eq_none_iff, List.find?_eq_none] at *
    intro o ho hp
    rw [List.isPrefixOf_iff_prefix] at hp
    have hprefix := (Follows.same c hr).prefix_cut (not_isSpace_of_mem_text o) hp
    exact h o ho (List.isPrefixOf_iff_prefix.mpr hprefix)
  settled {t r r' m} h hm hr := by
    obtain ⟨o, ho, rfl⟩ := Option.map_eq_some_iff.mp h
    refine Option.map_eq_some_iff.mpr ⟨o, ?_, rfl⟩
    obtain ⟨hp, before, behind, hall, hnone⟩ := List.find?_eq_some_iff_append.mp ho
    refine List.find?_eq_some_iff_append.mpr ⟨?_, before, behind, hall, fun o' ho' ↦ ?_⟩
    · rw [List.isPrefixOf_iff_prefix] at hp ⊢
      have hlength : o.text.toList.length ≤ t.length := by rwa [String.length_toList]
      have ht := List.prefix_of_prefix_length_le hp (List.prefix_append t r) hlength
      exact ht.trans (List.prefix_append t r')
    · have hnot := hnone o' ho'
      rw [Bool.not_eq_true', Bool.eq_false_iff, Ne, List.isPrefixOf_iff_prefix] at hnot ⊢
      exact fun hp' ↦ hnot ((hr.append t).prefix_cut (not_isSpace_of_mem_text o') hp')

theorem operator?_of_not_mem (h : ∀ o : Operator, c ∉ o.text.toList) (r : List Char) :
    operator? (c :: r) = none := by
  rw [operator?, Option.map_eq_none_iff, List.find?_eq_none]
  intro o _ hp
  rw [List.isPrefixOf_iff_prefix] at hp
  cases ho : o.text.toList with
  | nil => exact absurd o.length_text_pos (by rw [← String.length_toList, ho]; decide)
  | cons d text =>
    rw [ho] at hp
    obtain ⟨rfl, -⟩ := List.cons_prefix_cons.mp hp
    exact h o (by rw [ho]; exact List.mem_cons_self)

theorem recognizes_delimiter : Recognizes delimiter? where
  size_le {cs m} h := by
    cases cs with
    | nil => cases h
    | cons c r =>
      obtain ⟨d, -, rfl⟩ := Option.map_eq_some_iff.mp h
      exact Nat.succ_le_succ (Nat.zero_le _)
  grows {u v} h := by
    cases u with
    | nil => cases h
    | cons c u => exact h
  calm h _ := h
  settled {t r r' m} h hm hr := by
    cases t with
    | nil => exact absurd m.size_pos (by simpa using hm)
    | cons c t => exact h

theorem recognizes_identifier : Recognizes identifier? where
  size_le {cs m} h := by
    cases cs with
    | nil => cases h
    | cons c r =>
      rw [identifier?] at h
      split at h
      · cases h
        exact Nat.succ_le_succ (List.takeWhile_prefix isNamePart).length_le
      · cases h
  grows {u v} h := by
    cases u with
    | nil => cases h
    | cons c u =>
      rw [identifier?] at h
      rw [List.cons_append, identifier?]
      split at h
      · next hc => simp [hc]
      · cases h
  calm h _ := by
    rw [identifier?] at *
    split at h
    · cases h
    · next hc => rw [if_neg hc]
  settled {t r r' m} h hm hr := by
    cases t with
    | nil => exact absurd m.size_pos (by simpa using hm)
    | cons c t =>
      rw [List.cons_append, identifier?] at *
      split at h
      · next hc =>
        cases h
        have hlength : ((t ++ r).takeWhile isNamePart).length ≤ t.length :=
          Nat.le_of_succ_le_succ hm
        have hsame := takeWhile_follows (fun _ ↦ not_isNamePart_of_isSpace) hr hlength
        simp only [if_pos hc, hsame]
      · cases h

/-! ## Strings -/

variable {q : Char} {n : Nat}

theorem quoted?_quote (q : Char) (r : List Char) : quoted? q (q :: r) = some ([], 1) := by
  rw [quoted?.eq_def]
  simp only [if_pos]

theorem quoted?_escape (hq : '\\' ≠ q) (d : Char) (r : List Char) :
    quoted? q ('\\' :: d :: r) = (quoted? q r).map fun (cs, n) ↦ (unescape d :: cs, n + 2) := by
  simp only [quoted?, if_neg hq, if_pos]

theorem quoted?_plain (hq : c ≠ q) (hc : c ≠ '\\') (r : List Char) :
    quoted? q (c :: r) = (quoted? q r).map fun (cs, n) ↦ (c :: cs, n + 1) := by
  rw [quoted?.eq_def]
  simp only [if_neg hq, if_neg hc]

theorem quoted?_bounds (h : quoted? q t = some (w, n)) : 0 < n ∧ n ≤ t.length := by
  induction t using quoted?.induct q generalizing w n with
  | case1 => cases h
  | case2 r =>
    rw [quoted?_quote] at h
    cases h
    exact ⟨Nat.one_pos, Nat.succ_le_succ (Nat.zero_le _)⟩
  | case3 hq =>
    simp only [quoted?, if_neg hq, if_pos] at h
    cases h
  | case4 d r hq ih =>
    rw [quoted?_escape hq, Option.map_eq_some_iff] at h
    obtain ⟨⟨w', n'⟩, h, he⟩ := h
    cases he
    exact ⟨Nat.succ_pos _, Nat.succ_le_succ (Nat.succ_le_succ (ih h).2)⟩
  | case5 c r hq hc ih =>
    rw [quoted?_plain hq hc, Option.map_eq_some_iff] at h
    obtain ⟨⟨w', n'⟩, h, he⟩ := h
    cases he
    exact ⟨Nat.succ_pos _, Nat.succ_le_succ (ih h).2⟩

/-- What a string says does not depend on what is behind its closing quote. -/
theorem quoted?_append (h : quoted? q (t ++ u) = some (w, n)) (hn : n ≤ t.length)
    (v : List Char) : quoted? q (t ++ v) = some (w, n) := by
  induction t using quoted?.induct q generalizing w n with
  | case1 => exact absurd hn (Nat.not_le_of_lt (quoted?_bounds h).1)
  | case2 r =>
    rw [List.cons_append, quoted?_quote] at *
    exact h
  | case3 hq =>
    cases u with
    | nil =>
      simp only [List.append_nil, quoted?, if_neg hq, if_pos] at h
      cases h
    | cons d u =>
      rw [List.singleton_append, quoted?_escape hq, Option.map_eq_some_iff] at h
      obtain ⟨⟨w', n'⟩, -, he⟩ := h
      cases he
      cases hn with | step hn => cases hn
  | case4 d r hq ih =>
    rw [List.cons_append, List.cons_append, quoted?_escape hq, Option.map_eq_some_iff] at *
    obtain ⟨⟨w', n'⟩, h, he⟩ := h
    cases he
    exact ⟨_, ih h (Nat.le_of_succ_le_succ (Nat.le_of_succ_le_succ hn)), rfl⟩
  | case5 c r hq hc ih =>
    rw [List.cons_append, quoted?_plain hq hc, Option.map_eq_some_iff] at *
    obtain ⟨⟨w', n'⟩, h, he⟩ := h
    cases he
    exact ⟨_, ih h (Nat.le_of_succ_le_succ hn), rfl⟩

theorem string?_le (h : string? t = some m) : m.size ≤ t.length := by
  cases t with
  | nil => cases h
  | cons c t =>
    rw [string?] at h
    split at h
    · obtain ⟨⟨w, n⟩, hq, rfl⟩ := Option.map_eq_some_iff.mp h
      exact Nat.succ_le_succ (quoted?_bounds hq).2
    · cases h

theorem string?_append (h : string? (t ++ u) = some m) (hm : m.size ≤ t.length) (v : List Char) :
    string? (t ++ v) = some m := by
  cases t with
  | nil => exact absurd m.size_pos (by simpa using hm)
  | cons c t =>
    rw [List.cons_append, string?] at *
    split at h
    · next hc =>
      obtain ⟨⟨w, n⟩, hq, rfl⟩ := Option.map_eq_some_iff.mp h
      rw [if_pos hc, quoted?_append hq (Nat.le_of_succ_le_succ hm) v]
      rfl
    · cases h

/-! ## Tokens -/

/-- The token at the front of a text, if it is no string. -/
def plain? (cs : List Char) : Option Munch :=
  (((number? cs).or (operator? cs)).or (delimiter? cs)).or (identifier? cs)

theorem recognizes_plain : Recognizes plain? :=
  ((recognizes_number.or recognizes_operator).or recognizes_delimiter).or recognizes_identifier

/-- A string is the only token that starts with a quote. -/
theorem plain?_of_quote (hc : c = '"' ∨ c = '\'') (r : List Char) : plain? (c :: r) = none := by
  have hnumber : number? (c :: r) = none := by
    rw [← Option.not_isSome_iff_eq_none, isSome_number?_cons]
    rcases hc with rfl | rfl
    all_goals decide
  have hoperator : operator? (c :: r) = none := by
    refine operator?_of_not_mem (fun o ↦ ?_) r
    rcases hc with rfl | rfl
    all_goals cases o <;> decide
  have hrest : delimiter? (c :: r) = none ∧ identifier? (c :: r) = none := by
    rcases hc with rfl | rfl
    all_goals exact ⟨rfl, rfl⟩
  rw [plain?, hnumber, hoperator, hrest.1, hrest.2]
  rfl

theorem munch?_cons (c : Char) (r : List Char) : munch? (c :: r) =
    if c = '"' ∨ c = '\'' then string? (c :: r) else plain? (c :: r) := by
  split
  · next hc =>
    have hplain := plain?_of_quote hc r
    simp only [plain?, Option.or_eq_none_iff] at hplain
    obtain ⟨⟨⟨hnumber, hoperator⟩, hdelimiter⟩, hidentifier⟩ := hplain
    simp [munch?, hnumber, hoperator, hdelimiter, hidentifier]
  · next hc =>
    have hstring : string? (c :: r) = none := by rw [string?, if_neg hc]
    rw [munch?, hstring, Option.or_none, plain?]

theorem munch?_le {cs : List Char} (h : munch? cs = some m) : m.size ≤ cs.length := by
  cases cs with
  | nil => cases h
  | cons c r =>
    rw [munch?_cons] at h
    split at h
    · exact string?_le h
    · exact recognizes_plain.size_le h

/-- A token stays the same where what is behind it is cut off, or goes on with a blank there. -/
theorem munch?_follows (h : munch? (t ++ r) = some m) (hm : m.size ≤ t.length)
    (hr : Follows r r') : munch? (t ++ r') = some m := by
  cases t with
  | nil => exact absurd m.size_pos (by simpa using hm)
  | cons c t =>
    rw [List.cons_append, munch?_cons] at *
    split
    · next hc =>
      rw [if_pos hc] at h
      exact string?_append (t := c :: t) h hm r'
    · next hc =>
      rw [if_neg hc] at h
      exact recognizes_plain.settled (t := c :: t) h hm hr

/-- Where there is a token at the front of a text, there is one however the text goes on. -/
theorem isSome_munch?_append (h : (munch? u).isSome = true) (v : List Char) :
    (munch? (u ++ v)).isSome = true := by
  cases u with
  | nil => cases h
  | cons c u =>
    rw [List.cons_append, munch?_cons] at *
    split
    · next hc =>
      rw [if_pos hc] at h
      obtain ⟨m, hm⟩ := Option.isSome_iff_exists.mp h
      have happend := string?_append (t := c :: u) (u := []) (m := m) (by rwa [List.append_nil])
        (string?_le hm) v
      rw [← List.cons_append, happend]
      rfl
    · next hc =>
      rw [if_neg hc] at h
      exact recognizes_plain.grows h

/-- No token starts with a blank. -/
theorem munch?_of_isSpace (h : isSpace c = true) (r : List Char) : munch? (c :: r) = none := by
  have hnumber : number? (c :: r) = none := by
    rw [← Option.not_isSome_iff_eq_none, isSome_number?_cons, not_isDigit_of_isSpace h]
    decide
  have hoperator : operator? (c :: r) = none :=
    operator?_of_not_mem (fun o ho ↦ by simp [not_isSpace_of_mem_text o c ho] at h) r
  have hrest : string? (c :: r) = none ∧ delimiter? (c :: r) = none ∧
      identifier? (c :: r) = none := by
    rcases isSpace_iff.mp h with rfl | rfl | rfl | rfl
    all_goals exact ⟨rfl, rfl, rfl⟩
  rw [munch?, hnumber, hoperator, hrest.1, hrest.2.1, hrest.2.2]
  rfl

end Token

end LivePage
