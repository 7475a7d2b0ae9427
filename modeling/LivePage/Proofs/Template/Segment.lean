import Mathlib.Data.List.TakeWhile
import LivePage.Template

/-!
# Expressions between braces

Which expressions a template is found to hold.  The readers of templates look for the shortest text
on one line in front of an end; here they are described by the ways to divide a text, without
regard to how they search.
-/

namespace LivePage

/-! ## Blanks -/

namespace Text

def Blank (cs : List Char) : Prop := ∀ c ∈ cs, isBlank c = true

instance (cs : List Char) : Decidable (Blank cs) := List.decidableBAll _ cs

theorem Blank.dropWhile_append {bs : List Char} (h : Blank bs) (cs : List Char) :
    (bs ++ cs).dropWhile isBlank = cs.dropWhile isBlank :=
  List.dropWhile_append_of_pos h

theorem Blank.brace_notMem {bs : List Char} (h : Blank bs) {c : Char} (hc : c = '{' ∨ c = '}') :
    c ∉ bs := by
  intro hm
  have := h c hm
  rcases hc with rfl | rfl <;> exact absurd this (by decide)

theorem blank_takeWhile (cs : List Char) : Blank (cs.takeWhile isBlank) := fun _ hc ↦
  List.all_eq_true.mp List.all_takeWhile _ hc

/-- A text is what is left of it between blanks. -/
theorem exists_eq_trim (cs : List Char) :
    ∃ bs bs', Blank bs ∧ Blank bs' ∧ cs = bs ++ (trim cs ++ bs') := by
  refine ⟨cs.takeWhile isBlank, ((trimStart cs).reverse.takeWhile isBlank).reverse,
    blank_takeWhile cs, fun c hc ↦ blank_takeWhile _ c (List.mem_reverse.mp hc), ?_⟩
  rw [trim, trimEnd, ← List.reverse_append, List.takeWhile_append_dropWhile, List.reverse_reverse,
    trimStart, List.takeWhile_append_dropWhile]

theorem isBlank_of_dropWhile {cs r : List Char} {c : Char} (h : cs.dropWhile isBlank = c :: r) :
    isBlank c = false := by
  have := List.head?_dropWhile_not isBlank cs
  rw [h] at this
  simpa using this

/-- What is left starts with no blank. -/
theorem isBlank_of_trim_eq_cons {cs r : List Char} {c : Char} (h : trim cs = c :: r) :
    isBlank c = false := by
  have hp : trim cs <+: trimStart cs := by
    rw [trim, trimEnd, ← List.reverse_suffix, List.reverse_reverse]
    exact List.dropWhile_suffix _
  obtain ⟨t, ht⟩ := hp
  rw [h] at ht
  exact isBlank_of_dropWhile ht.symm

/-- What is left ends with no blank. -/
theorem isBlank_of_trim_eq_concat {cs r : List Char} {c : Char} (h : trim cs = r ++ [c]) :
    isBlank c = false := by
  have h := congrArg List.reverse h
  rw [trim, trimEnd, List.reverse_reverse, List.reverse_concat] at h
  exact isBlank_of_dropWhile h

/-- No end of what is left is blank. -/
theorem not_blank_of_trim_eq_append {cs p q : List Char} (h : trim cs = p ++ q) (hq : q ≠ []) :
    ¬Blank q := by
  intro hb
  obtain ⟨r, c, rfl⟩ := List.eq_nil_or_concat q |>.resolve_left hq
  have hc := hb c (by simp)
  rw [isBlank_of_trim_eq_concat (r := p ++ r) (by simpa using h)] at hc
  cases hc

end Text

open Text (Blank)

namespace Template

/-! ## Ends -/

variable {cs rest : List Char}

/-- Two ways to divide a text at its first character of a kind are one. -/
theorem eq_of_first_eq {x y u v : List Char} {c : Char} (h : x ++ c :: u = y ++ c :: v)
    (hx : c ∉ x) (hy : c ∉ y) : x = y ∧ u = v := by
  rcases List.append_eq_append_iff.mp h with ⟨z, rfl, hz⟩ | ⟨z, rfl, hz⟩ <;>
    cases z with
    | nil => simp_all
    | cons d z => simp_all

theorem closing?_eq_some_iff :
    closing? cs = some rest ↔ ∃ bs, Blank bs ∧ cs = bs ++ '}' :: '}' :: rest := by
  constructor
  · intro h
    unfold closing? at h
    split at h
    · next r he =>
      cases h
      refine ⟨cs.takeWhile Text.isBlank, Text.blank_takeWhile cs, ?_⟩
      rw [← he, List.takeWhile_append_dropWhile]
    · cases h
  · rintro ⟨bs, hb, rfl⟩
    rw [closing?, hb.dropWhile_append]
    rfl

theorem lastClosing?_eq_some_iff :
    lastClosing? cs = some rest ↔
      rest = [] ∧ ∃ bs bs', Blank bs ∧ Blank bs' ∧ cs = bs ++ '}' :: '}' :: bs' := by
  rw [lastClosing?, Option.bind_eq_some_iff]
  constructor
  · rintro ⟨r, hr, h⟩
    obtain ⟨bs, hb, rfl⟩ := closing?_eq_some_iff.mp hr
    split at h
    · next ha =>
      cases h
      exact ⟨rfl, bs, r, hb, List.all_eq_true.mp ha, rfl⟩
    · cases h
  · rintro ⟨rfl, bs, bs', hb, hb', rfl⟩
    exact ⟨bs', closing?_eq_some_iff.mpr ⟨bs, hb, rfl⟩, if_pos (List.all_eq_true.mpr hb')⟩

/-! ## Bodies -/

variable {ends : List Char → Option (List Char)} {code s t : List Char} {c : Char}

/-- What may be read as an expression in front of another text: something on one line, where ends
match none of what starts behind its first character. -/
structure IsBody (ends : List Char → Option (List Char)) (code s : List Char) : Prop where
  ne_nil : code ≠ []
  line : '\n' ∉ code
  first : ∀ p q, code = p ++ q → p ≠ [] → q ≠ [] → ends (q ++ s) = none

theorem isBody_singleton : IsBody ends [c] s ↔ c ≠ '\n' := by
  refine ⟨fun h ↦ by simpa [eq_comm] using h.line, fun h ↦ ⟨by simp, by simpa using h.symm, ?_⟩⟩
  intro p q he hp hq
  have hlen := congrArg List.length he
  have := List.length_pos_iff.mpr hp
  have := List.length_pos_iff.mpr hq
  simp only [List.length_singleton, List.length_append] at hlen
  omega

theorem isBody_cons (ht : t ≠ []) :
    IsBody ends (c :: t) s ↔ c ≠ '\n' ∧ ends (t ++ s) = none ∧ IsBody ends t s := by
  constructor
  · intro h
    obtain ⟨hc, hline⟩ := not_or.mp (List.mem_cons.not.mp h.line)
    refine ⟨Ne.symm hc, h.first [c] t rfl (by simp) ht, ht, hline, fun p q he hp hq ↦ ?_⟩
    exact h.first (c :: p) q (by rw [he]; rfl) (by simp) hq
  · rintro ⟨hc, hend, h⟩
    refine ⟨by simp, ?_, fun p q he hp hq ↦ ?_⟩
    · rw [List.mem_cons]
      exact not_or.mpr ⟨Ne.symm hc, h.line⟩
    · obtain ⟨d, p, rfl⟩ := List.exists_cons_of_ne_nil hp
      obtain ⟨rfl, rfl⟩ := List.cons.inj he
      cases p with
      | nil => exact hend
      | cons e p => exact h.first (e :: p) q rfl (by simp) hq

theorem body?_append (h : IsBody ends code s) (hs : ends s = some rest) :
    body? ends (code ++ s) = some (code, rest) := by
  induction code with
  | nil => exact absurd rfl h.ne_nil
  | cons c t ih =>
    rw [List.cons_append, body?]
    by_cases ht : t = []
    · subst ht
      rw [if_neg (isBody_singleton.mp h), List.nil_append, hs]
    · obtain ⟨hc, hend, h⟩ := (isBody_cons ht).mp h
      rw [if_neg hc, hend, ih h]
      rfl

/-- The body of a text is in front of an end. -/
theorem body?_eq_some_iff : body? ends cs = some (code, rest) ↔
    ∃ s, cs = code ++ s ∧ IsBody ends code s ∧ ends s = some rest := by
  refine ⟨fun h ↦ ?_, fun ⟨s, he, h, hs⟩ ↦ he ▸ body?_append h hs⟩
  induction cs generalizing code with
  | nil => cases h
  | cons c r ih =>
    rw [body?] at h
    split at h
    · cases h
    · next hc =>
      split at h
      · next x hx =>
        cases h
        exact ⟨r, rfl, isBody_singleton.mpr hc, hx⟩
      · next hx =>
        obtain ⟨⟨t, x⟩, ht, he⟩ := Option.map_eq_some_iff.mp h
        cases he
        obtain ⟨s, rfl, hb, hs⟩ := ih ht
        exact ⟨s, rfl, (isBody_cons hb.ne_nil).mpr ⟨hc, hx, hb⟩, hs⟩

/-- Where something on one line is in front of an end there is a body. -/
theorem body?_ne_none (hne : code ≠ []) (hline : '\n' ∉ code) (hs : ends s ≠ none) :
    body? ends (code ++ s) ≠ none := by
  induction code with
  | nil => exact absurd rfl hne
  | cons c t ih =>
    obtain ⟨hc, hline⟩ := not_or.mp (List.mem_cons.not.mp hline)
    rw [List.cons_append, body?, if_neg (Ne.symm hc)]
    cases ht : ends (t ++ s) with
    | some x => simp
    | none =>
      have hne : t ≠ [] := by
        rintro rfl
        exact hs ht
      simpa using ih hne hline

/-! ## Expressions -/

theorem code?_of_body? {found : List Char × List Char}
    (h : body? ends (cs.dropWhile Text.isBlank) = some found) : code? ends cs = some found := by
  rw [code?]
  simp only [h]

theorem code?_eq_none
    (h : ∀ p s, cs.dropWhile Text.isBlank = p ++ s → '\n' ∉ p → ends s = none) :
    code? ends cs = none := by
  have hb : body? ends (cs.dropWhile Text.isBlank) = none := by
    refine Option.eq_none_iff_forall_ne_some.mpr fun ⟨code, rest⟩ hb ↦ ?_
    obtain ⟨s, he, hbody, hs⟩ := body?_eq_some_iff.mp hb
    rw [h code s he hbody.line] at hs
    cases hs
  rw [code?]
  simp only [hb, h [] _ rfl List.not_mem_nil]

/-- An expression takes up something in front of an end. -/
theorem exists_of_code? (h : code? ends cs = some (code, rest)) :
    ∃ x s, x ≠ [] ∧ cs = x ++ s ∧ ends s = some rest := by
  have hcs : cs = cs.takeWhile Text.isBlank ++ cs.dropWhile Text.isBlank :=
    List.takeWhile_append_dropWhile.symm
  rw [code?] at h
  split at h
  · next found hb =>
    cases h
    obtain ⟨s, he, hbody, hs⟩ := body?_eq_some_iff.mp hb
    exact ⟨cs.takeWhile Text.isBlank ++ code, s, by simp [hbody.ne_nil],
      by rw [List.append_assoc, ← he, ← hcs], hs⟩
  · split at h
    · next rest' c hs hc =>
      cases h
      refine ⟨cs.takeWhile Text.isBlank, _, fun hn ↦ ?_, hcs, hs⟩
      rw [hn] at hc
      cases hc
    · cases h

theorem segment?_of_ne (h : c ≠ '{') : segment? (c :: cs) = none := by
  unfold segment?
  split
  · next he => exact absurd (List.cons.inj he).1 h
  · rfl

theorem exists_of_segment? (h : segment? cs = some (code, rest)) :
    ∃ x, x ≠ [] ∧ cs = '{' :: '{' :: (x ++ '}' :: '}' :: rest) := by
  unfold segment? at h
  split at h
  · next r =>
    obtain ⟨x, s, hx, rfl, hs⟩ := exists_of_code? h
    obtain ⟨bs, -, rfl⟩ := closing?_eq_some_iff.mp hs
    exact ⟨x ++ bs, by simp [hx], by rw [List.append_assoc]⟩
  · cases h

/-! ## Pieces -/

theorem pieces_nil : pieces [] = [] := by
  rw [pieces]
  rfl

theorem pieces_of_segment? (h : segment? cs = some (code, rest)) :
    pieces cs = .code (String.ofList code) :: pieces rest := by
  rw [pieces]
  split
  · next h' =>
    rw [h] at h'
    cases h'
    rfl
  · next h' =>
    rw [h] at h'
    cases h'

theorem pieces_cons_of_none (h : segment? (c :: cs) = none) :
    pieces (c :: cs) = .literal c :: pieces cs := by
  rw [pieces]
  split
  · next h' =>
    rw [h] at h'
    cases h'
  · rfl

/-- Text without opening braces is left as it is. -/
theorem pieces_append {l : List Char} (h : '{' ∉ l) (cs : List Char) :
    pieces (l ++ cs) = l.map .literal ++ pieces cs := by
  induction l with
  | nil => rfl
  | cons c l ih =>
    obtain ⟨hc, hl⟩ := not_or.mp (List.mem_cons.not.mp h)
    rw [List.cons_append, pieces_cons_of_none (segment?_of_ne (Ne.symm hc)), ih hl]
    rfl

theorem codes_append (ps qs : List Piece) : codes (ps ++ qs) = codes ps ++ codes qs := by
  induction ps with
  | nil => rfl
  | cons p r ih => cases p <;> simp [codes, ih]

theorem codes_literals (l : List Char) : codes (l.map .literal) = [] := by
  induction l with
  | nil => rfl
  | cons c l ih => exact ih

/-- A text has no expressions where none starts anywhere in it. -/
theorem codes_pieces_eq_nil_iff :
    codes (pieces cs) = [] ↔ ∀ s, s <:+ cs → segment? s = none := by
  induction cs with
  | nil =>
    rw [pieces_nil]
    refine ⟨fun _ s hs ↦ ?_, fun _ ↦ rfl⟩
    rw [List.suffix_nil.mp hs]
    rfl
  | cons c r ih =>
    cases h : segment? (c :: r) with
    | some found =>
      rw [pieces_of_segment? h]
      refine ⟨nofun, fun hs ↦ ?_⟩
      rw [hs _ List.suffix_rfl] at h
      cases h
    | none =>
      rw [pieces_cons_of_none h, codes, ih]
      refine forall_congr' fun s ↦ ⟨fun hs hsuf ↦ ?_, fun hs hsuf ↦ hs (hsuf.trans ?_)⟩
      · rcases List.suffix_cons_iff.mp hsuf with rfl | hsuf
        · exact h
        · exact hs hsuf
      · exact List.suffix_cons c r

theorem pieces_of_codes_eq_nil (h : codes (pieces cs) = []) : pieces cs = cs.map .literal := by
  induction cs with
  | nil => exact pieces_nil
  | cons c r ih =>
    have hs := pieces_cons_of_none (codes_pieces_eq_nil_iff.mp h _ List.suffix_rfl)
    rw [hs] at h ⊢
    rw [ih h]
    rfl

end Template

end LivePage
