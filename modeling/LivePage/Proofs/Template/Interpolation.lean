import LivePage.Proofs.Outcome
import LivePage.Proofs.Template.Segment

/-!
# Values of templates

A template is rendered in one pass: the expressions between its braces are evaluated from left to
right, and what they give stands in the text as it is.
-/

namespace LivePage

namespace Template

open Text (Blank)

/-! ## Written templates -/

/-- Text without braces. -/
def Plain (cs : List Char) : Prop := '{' ∉ cs ∧ '}' ∉ cs

instance (cs : List Char) : Decidable (Plain cs) := inferInstanceAs (Decidable (_ ∧ _))

/-- An expression that can be told from the text around it. -/
structure IsCode (code : List Char) : Prop where
  plain : Plain code
  line : '\n' ∉ code
  not_blank : ¬Blank code

instance (code : List Char) : Decidable (IsCode code) :=
  decidable_of_iff (Plain code ∧ '\n' ∉ code ∧ ¬Blank code)
    ⟨fun ⟨plain, line, blank⟩ ↦ ⟨plain, line, blank⟩, fun h ↦ ⟨h.plain, h.line, h.not_blank⟩⟩

/-- A text with expressions behind it, each in front of another text. -/
def written (l : List Char) : List (List Char × List Char) → List Char
  | [] => l
  | (code, l') :: r => l ++ '{' :: '{' :: (code ++ '}' :: '}' :: written l' r)

/-- A text with the values of expressions in their places; the first failure ends it. -/
def interpolated (env : Env) (l : List Char) :
    List (List Char × List Char) → Except ExprError String
  | [] => .ok (String.ofList l)
  | (code, l') :: r => do
    let v ← Expr.run env (String.ofList (Text.trim code))
    let text ← interpolated env l' r
    return String.ofList l ++ v.display ++ text

/-- The value that a text has with expressions in it: the value of the only one where nothing but
blanks is around it, and else a text. -/
def valueOfWritten (env : Env) (l : List Char) :
    List (List Char × List Char) → Except ExprError Value
  | [] => .ok (.str (String.ofList l))
  | [(code, l')] =>
    if l.all Text.isBlank && l'.all Text.isBlank then Expr.run env (String.ofList (Text.trim code))
    else (interpolated env l [(code, l')]).map .str
  | parts => (interpolated env l parts).map .str

variable {code l l' rest x : List Char} {parts : List (List Char × List Char)}
  {ends : List Char → Option (List Char)} {env : Env}

/-- An expression is read without the blanks around it. -/
theorem code?_append (h : IsCode code)
    (hends : ∀ s, closing? s = none → ends s = none)
    (hs : ∀ bs, Blank bs → ends (bs ++ '}' :: '}' :: rest) = some x) :
    code? ends (code ++ '}' :: '}' :: rest) = some (Text.trim code, x) := by
  obtain ⟨bs, bs', hb, hb', he⟩ := Text.exists_eq_trim code
  have hne : Text.trim code ≠ [] := by
    intro hn
    refine h.not_blank fun c hc ↦ ?_
    rw [he, hn, List.nil_append, List.mem_append] at hc
    exact hc.elim (hb c) (hb' c)
  have hmem {c : Char} (hc : c ∈ Text.trim code) : c ∈ code := by
    rw [he]
    simp [hc]
  have hdrop : (code ++ '}' :: '}' :: rest).dropWhile Text.isBlank =
      Text.trim code ++ (bs' ++ '}' :: '}' :: rest) := by
    obtain ⟨c, r, hr⟩ := List.exists_cons_of_ne_nil hne
    have hc := Text.isBlank_of_trim_eq_cons hr
    rw [hr] at he ⊢
    rw [he]
    simp only [List.append_assoc]
    rw [hb.dropWhile_append, List.cons_append, List.dropWhile_cons_of_neg (by simp [hc])]
  refine code?_of_body? ?_
  rw [hdrop]
  refine body?_append ⟨hne, fun hm ↦ h.line (hmem hm), fun p q hpq hp hq ↦ hends _ ?_⟩ (hs bs' hb')
  refine Option.eq_none_iff_forall_ne_some.mpr fun r hr ↦ ?_
  -- an end inside of the expression would make the rest of it blank
  obtain ⟨b, hblank, hbr⟩ := closing?_eq_some_iff.mp hr
  have hq' : '}' ∉ q := fun hm ↦ h.plain.2 (hmem (by rw [hpq]; simp [hm]))
  rw [← List.append_assoc] at hbr
  obtain ⟨hqb, -⟩ := eq_of_first_eq hbr
    (by simp [hq', hb'.brace_notMem (.inr rfl)]) (hblank.brace_notMem (.inr rfl))
  refine Text.not_blank_of_trim_eq_append hpq hq fun c hc ↦ hblank c ?_
  rw [← hqb]
  simp [hc]

theorem segment?_code (h : IsCode code) (rest : List Char) :
    segment? ('{' :: '{' :: (code ++ '}' :: '}' :: rest)) = some (Text.trim code, rest) :=
  code?_append h (fun _ h ↦ h) fun bs hb ↦ closing?_eq_some_iff.mpr ⟨bs, hb, rfl⟩

/-- What a written template consists of. -/
theorem pieces_written (hl : Plain l) (hp : ∀ q ∈ parts, IsCode q.1 ∧ Plain q.2) :
    pieces (written l parts) = l.map .literal ++ parts.flatMap fun q ↦
      .code (String.ofList (Text.trim q.1)) :: q.2.map .literal := by
  induction parts generalizing l with
  | nil =>
    rw [written, ← List.append_nil l, pieces_append hl.1, pieces_nil]
    simp
  | cons q r ih =>
    obtain ⟨code, l'⟩ := q
    obtain ⟨hcode, hl'⟩ := hp _ List.mem_cons_self
    rw [written, pieces_append hl.1, pieces_of_segment? (segment?_code hcode _),
      ih hl' fun q hq ↦ hp q (List.mem_cons_of_mem _ hq)]
    simp

theorem codes_pieces_written (hl : Plain l) (hp : ∀ q ∈ parts, IsCode q.1 ∧ Plain q.2) :
    codes (pieces (written l parts)) = parts.map fun q ↦ String.ofList (Text.trim q.1) := by
  rw [pieces_written hl hp, codes_append, codes_literals, List.nil_append]
  clear hp
  induction parts with
  | nil => rfl
  | cons q r ih =>
    rw [List.flatMap_cons, codes_append, ih]
    simp [codes, codes_literals]

/-! ## Filling -/

theorem fill_nil : fill env [] = .ok "" := rfl

theorem fill_cons (p : Piece) (ps : List Piece) :
    fill env (p :: ps) = do
      let s ← pieceText env p
      let t ← fill env ps
      return s ++ t := by
  rw [fill, List.mapM_cons, fill]
  cases pieceText env p with
  | error e => rfl
  | ok s =>
    cases ps.mapM (pieceText env) with
    | error e => rfl
    | ok ts => exact congrArg Except.ok String.join_cons

theorem fill_literals (l : List Char) (ps : List Piece) :
    fill env (l.map .literal ++ ps) = (fill env ps).map (String.ofList l ++ ·) := by
  induction l with
  | nil =>
    cases h : fill env ps <;> simp [h, Except.map]
  | cons c l ih =>
    rw [List.map_cons, List.cons_append, fill_cons, ih, pieceText]
    cases fill env ps with
    | error e => rfl
    | ok t =>
      refine congrArg Except.ok ?_
      rw [String.ofList_cons]
      exact (String.append_assoc ..).symm

theorem fill_pieces_written (hl : Plain l) (hp : ∀ q ∈ parts, IsCode q.1 ∧ Plain q.2) :
    fill env (pieces (written l parts)) = interpolated env l parts := by
  rw [pieces_written hl hp]
  clear hl hp
  induction parts generalizing l with
  | nil =>
    rw [List.flatMap_nil, fill_literals, interpolated]
    simp [fill_nil, Except.map]
  | cons q r ih =>
    obtain ⟨code, l'⟩ := q
    rw [List.flatMap_cons, List.cons_append, fill_literals, fill_cons, ih, pieceText, interpolated]
    cases Expr.run env (String.ofList (Text.trim code)) with
    | error e => rfl
    | ok v =>
      cases interpolated env l' r with
      | error e => rfl
      | ok t => exact congrArg Except.ok (String.append_assoc ..).symm

/-! ## The only expression of a text -/

theorem whole?_of_blank (hl : Blank l) (hcode : IsCode code) (hl' : Blank l') :
    whole? (written l [(code, l')]) = some (String.ofList (Text.trim code)) := by
  have hends : ∀ s, closing? s = none → lastClosing? s = none := fun s h ↦ by
    rw [lastClosing?, h]
    rfl
  have hlast : ∀ bs, Blank bs → lastClosing? (bs ++ '}' :: '}' :: l') = some [] := fun bs hb ↦
    lastClosing?_eq_some_iff.mpr ⟨rfl, bs, l', hb, hl', rfl⟩
  rw [whole?, written, hl.dropWhile_append]
  exact congrArg (Option.map _) (code?_append hcode hends hlast)

theorem whole?_of_not_blank (hl : Plain l) (hcode : Plain code) (hl' : Plain l')
    (h : ¬(Blank l ∧ Blank l')) : whole? (written l [(code, l')]) = none := by
  by_cases hb : Blank l
  · rw [whole?, written, hb.dropWhile_append]
    refine congrArg (Option.map _) (code?_eq_none fun q s hs _ ↦ ?_)
    refine Option.eq_none_iff_forall_ne_some.mpr fun r hr ↦ h ⟨hb, ?_⟩
    obtain ⟨-, bs, bs', hbs, hbs', rfl⟩ := lastClosing?_eq_some_iff.mp hr
    obtain ⟨p, hs⟩ : ∃ p, code ++ '}' :: '}' :: l' = p ++ (bs ++ '}' :: '}' :: bs') :=
      ⟨_, by rw [List.append_assoc, ← hs]; exact List.takeWhile_append_dropWhile.symm⟩
    -- there are two closing braces in all, so none of them is in front of the end
    have hp : '}' ∉ p := by
      have hcount := congrArg (List.count '}') hs
      simp only [List.count_append, List.count_cons_self,
        List.count_eq_zero_of_not_mem hcode.2, List.count_eq_zero_of_not_mem hl'.2] at hcount
      exact List.count_eq_zero.mp (by omega)
    rw [← List.append_assoc] at hs
    obtain ⟨-, hs⟩ := eq_of_first_eq hs hcode.2
      (by simp [hp, hbs.brace_notMem (.inr rfl)])
    rw [show l' = bs' from (List.cons.inj hs).2]
    exact hbs'
  · rw [whole?, written]
    cases hd : l.dropWhile Text.isBlank with
    | nil => exact absurd (List.dropWhile_eq_nil_iff.mp hd) hb
    | cons c r =>
      have hc : c ≠ '{' := by
        rintro rfl
        exact hl.1 ((List.dropWhile_suffix _).mem (hd ▸ List.mem_cons_self))
      have hdrop (cs : List Char) : (l ++ cs).dropWhile Text.isBlank = c :: (r ++ cs) := by
        rw [List.dropWhile_append, hd]
        rfl
      rw [hdrop]
      split
      · next he => exact absurd (List.cons.inj he).1 hc
      · rfl

/-! ## Values -/

theorem renderText_eq_run {text source : String} (hc : (codes (pieces text.toList)).length = 1)
    (hw : whole? text.toList = some source) : renderText env text = Expr.run env source := by
  obtain ⟨s, hs⟩ := List.length_eq_one_iff.mp hc
  rw [renderText]
  simp only [hs, hw]

/-- Where no expression is the whole of a text the text is filled; without expressions that changes
nothing. -/
theorem renderText_eq_fill {text : String}
    (h : (codes (pieces text.toList)).length ≠ 1 ∨ whole? text.toList = none) :
    renderText env text = (fill env (pieces text.toList)).map .str := by
  rw [renderText]
  split
  · next hc =>
    rw [pieces_of_codes_eq_nil hc, ← List.append_nil (List.map _ _), fill_literals]
    simp [fill_nil, Except.map]
  · next hc hw => simp [hc, hw] at h
  · rfl

theorem renderText_written (hl : Plain l) (hp : ∀ q ∈ parts, IsCode q.1 ∧ Plain q.2) :
    renderText env (String.ofList (written l parts)) = valueOfWritten env l parts := by
  have hcodes :
      (codes (pieces (String.ofList (written l parts)).toList)).length = parts.length := by
    rw [String.toList_ofList, codes_pieces_written hl hp, List.length_map]
  have hfill (h : parts.length ≠ 1 ∨ whole? (written l parts) = none) :
      renderText env (String.ofList (written l parts)) = (interpolated env l parts).map .str := by
    rw [renderText_eq_fill (by rwa [hcodes, String.toList_ofList]), String.toList_ofList,
      fill_pieces_written hl hp]
  match parts with
  | [] => exact hfill (.inl (by simp))
  | [(code, l')] =>
    obtain ⟨hcode, hl'⟩ := hp _ List.mem_cons_self
    rw [valueOfWritten]
    split
    · next h =>
      rw [Bool.and_eq_true, List.all_eq_true, List.all_eq_true] at h
      refine renderText_eq_run hcodes ?_
      rw [String.toList_ofList, whole?_of_blank h.1 hcode h.2]
    · next h =>
      rw [Bool.and_eq_true, List.all_eq_true, List.all_eq_true] at h
      exact hfill (.inr (whole?_of_not_blank hl hcode.plain hl' h))
  | p :: q :: r => exact hfill (.inl (by simp))

end Template

end LivePage
