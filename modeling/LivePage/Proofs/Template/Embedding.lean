import Mathlib
import LivePage.Proofs.Template.Interpolation

/-!
# Expressions as templates

An expression in braces is a template with its value, as long as it is on one line and no braces
are closed in it before others are opened.  The readers of templates do not know the texts that an
expression may hold, nor that its lines may be divided: an expression on more than one line is no
expression of a template, and closing braces in it that come before opening ones make two of it.
-/

namespace LivePage

namespace Template

open Text (Blank)

/-- Something with two closing braces behind it, and two opening ones further behind. -/
def Reopens (code : List Char) : Prop :=
  ∃ p m s, p ≠ [] ∧ s ≠ [] ∧ code = p ++ '}' :: '}' :: (m ++ '{' :: '{' :: s)

/-- An expression in braces. -/
def embedded (code : List Char) : List Char := '{' :: '{' :: (code ++ ['}', '}'])

/-- The template of an expression. -/
def embed (source : String) : Value := .str (String.ofList (embedded source.toList))

variable {code cs p q s rest y : List Char}

/-! ## The whole -/

/-- An end at the end of a text is not in front of blanks. -/
theorem lastClosing?_append (h : ¬Blank q) : lastClosing? (q ++ ['}', '}']) = none := by
  refine Option.eq_none_iff_forall_ne_some.mpr fun r hr ↦ h ?_
  obtain ⟨-, bs, bs', hb, hb', he⟩ := lastClosing?_eq_some_iff.mp hr
  have hnil : bs' = [] := by
    by_contra hne
    have hend : ['}'] <:+ q ++ ['}', '}'] := ⟨q ++ ['}'], by simp⟩
    have hlast : ['}'] <:+ bs' := List.suffix_of_suffix_length_le hend
      ⟨bs ++ ['}', '}'], by simp [he]⟩ (List.length_pos_iff.mpr hne)
    exact hb'.brace_notMem (.inr rfl) (hlast.mem List.mem_cons_self)
  subst hnil
  rw [List.append_cancel_right he]
  exact hb

section Whole

variable (hne : code ≠ []) (ht : Text.trim code = code)

include hne ht

theorem dropWhile_trimmed (cs : List Char) :
    (code ++ cs).dropWhile Text.isBlank = code ++ cs := by
  obtain ⟨c, r, rfl⟩ := List.exists_cons_of_ne_nil hne
  exact List.dropWhile_cons_of_neg (by simp [Text.isBlank_of_trim_eq_cons ht])

/-- An expression in braces is the whole of a text just where it is on one line. -/
theorem whole?_embedded :
    whole? (embedded code) = if '\n' ∈ code then none else some (String.ofList code) := by
  have hw : whole? (embedded code) =
      (code? lastClosing? (code ++ ['}', '}'])).map fun found ↦ String.ofList found.1 := rfl
  have hdrop := dropWhile_trimmed hne ht ['}', '}']
  rw [hw]
  split
  · next hline =>
    refine congrArg (Option.map _) (code?_eq_none fun p s he hp ↦ ?_)
    rw [hdrop] at he
    refine Option.eq_none_iff_forall_ne_some.mpr fun r hs ↦ ?_
    -- the text in front of the end would be the expression with its lines
    rcases List.append_eq_append_iff.mp he with ⟨q, rfl, -⟩ | ⟨q, rfl, rfl⟩
    · exact hp (List.mem_append_left _ hline)
    · by_cases hq : q = []
      · subst hq
        exact hp (by simpa using hline)
      · rw [lastClosing?_append (Text.not_blank_of_trim_eq_append ht hq)] at hs
        cases hs
  · next hline =>
    have hbody : IsBody lastClosing? code ['}', '}'] := ⟨hne, hline, fun p q he _ hq ↦
      lastClosing?_append (Text.not_blank_of_trim_eq_append (ht.trans he) hq)⟩
    rw [code?_of_body? (by rw [hdrop]; exact body?_append hbody rfl)]
    rfl

end Whole

/-! ## One expression or more -/

/-- An expression starts at two opening braces before two closing ones, with more than blanks on
one line between them. -/
theorem segment?_ne_none (h : ¬Blank s) (hline : '\n' ∉ s) :
    segment? ('{' :: '{' :: (s ++ '}' :: '}' :: rest)) ≠ none := by
  have hs : s.dropWhile Text.isBlank ≠ [] := fun hn ↦ h (List.dropWhile_eq_nil_iff.mp hn)
  have hdrop : (s ++ '}' :: '}' :: rest).dropWhile Text.isBlank =
      s.dropWhile Text.isBlank ++ '}' :: '}' :: rest := by
    rw [List.dropWhile_append, if_neg (by simpa using hs)]
  have hb : body? closing? ((s ++ '}' :: '}' :: rest).dropWhile Text.isBlank) ≠ none := by
    rw [hdrop]
    exact body?_ne_none hs (fun hm ↦ hline ((List.dropWhile_suffix _).mem hm)) nofun
  obtain ⟨found, hf⟩ := Option.ne_none_iff_exists'.mp hb
  exact fun hn ↦ by cases hn.symm.trans (code?_of_body? hf)

/-- Two closing braces are not passed over by an end. -/
theorem suffix_of_closing? (h : closing? (p ++ '}' :: '}' :: y) = some rest) : y <:+ rest := by
  obtain ⟨bs, hb, he⟩ := closing?_eq_some_iff.mp h
  have hy : y <:+ bs ++ '}' :: '}' :: rest := ⟨p ++ ['}', '}'], by simp [← he]⟩
  have hr : rest <:+ bs ++ '}' :: '}' :: rest := ⟨bs ++ ['}', '}'], by simp⟩
  rcases List.append_eq_append_iff.mp he with ⟨z, rfl, hz⟩ | ⟨z, rfl, hz⟩
  · cases z with
    | nil => exact ⟨[], by simpa using hz⟩
    | cons c z =>
      obtain ⟨rfl, -⟩ := List.cons.inj hz
      exact absurd (List.mem_append_right _ List.mem_cons_self) (hb.brace_notMem (.inr rfl))
  · refine List.suffix_of_suffix_length_le hy hr ?_
    have := congrArg List.length hz
    simp only [List.length_append, List.length_cons] at this
    omega

/-- What follows the first expression of a text follows all that follows two closing braces. -/
theorem suffix_of_isBody (hp : p ≠ []) (he : code ++ s = p ++ '}' :: '}' :: y)
    (hbody : IsBody closing? code s) (hs : closing? s = some rest) : y <:+ rest := by
  rcases List.append_eq_append_iff.mp he with ⟨q, rfl, rfl⟩ | ⟨q, rfl, hq⟩
  · exact suffix_of_closing? hs
  · by_cases hne : q = []
    · subst hne
      rw [List.nil_append] at hq
      exact suffix_of_closing? (p := []) (by rw [List.nil_append, hq]; exact hs)
    · have hend := hbody.first p q rfl hp hne
      rw [← hq] at hend
      cases hend

/-- An expression in braces on one line is read as one expression just where it does not open
braces behind others that it closes. -/
theorem length_codes_embedded (hne : code ≠ []) (ht : Text.trim code = code)
    (hline : '\n' ∉ code) : (codes (pieces (embedded code))).length = 1 ↔ ¬Reopens code := by
  obtain ⟨⟨front, rest⟩, hb⟩ := Option.ne_none_iff_exists'.mp
    (body?_ne_none hne hline (nofun : closing? ['}', '}'] ≠ none))
  obtain ⟨s, he, hbody, hs⟩ := body?_eq_some_iff.mp hb
  have hseg : segment? (embedded code) = some (front, rest) :=
    code?_of_body? (by rw [dropWhile_trimmed hne ht]; exact hb)
  have hcodes : codes (pieces (embedded code)) = String.ofList front :: codes (pieces rest) := by
    rw [pieces_of_segment? hseg]
    rfl
  rw [hcodes, List.length_cons, Nat.add_eq_right, List.length_eq_zero_iff, codes_pieces_eq_nil_iff]
  constructor
  · rintro hnone ⟨p, m, t, hp, htne, rfl⟩
    have hy : m ++ '{' :: '{' :: (t ++ ['}', '}']) <:+ rest :=
      suffix_of_isBody hp (by rw [← he]; simp) hbody hs
    refine segment?_ne_none ?_ ?_ (hnone _ (List.IsSuffix.trans ⟨m, rfl⟩ hy))
    · exact Text.not_blank_of_trim_eq_append
        (p := p ++ '}' :: '}' :: (m ++ ['{', '{'])) (ht.trans (by simp)) htne
    · exact fun hm ↦ hline (by simp [hm])
  · intro hre t hsuf
    refine Option.eq_none_iff_forall_ne_some.mpr fun ⟨code', rest'⟩ hseg ↦ hre ?_
    obtain ⟨x, hx, rfl⟩ := exists_of_segment? hseg
    obtain ⟨m, rfl⟩ := hsuf
    obtain ⟨bs, -, rfl⟩ := closing?_eq_some_iff.mp hs
    -- the closing braces of the second expression are at or before those of the whole
    have hend : ['}', '}'] <:+ code ++ ['}', '}'] := ⟨code, rfl⟩
    obtain ⟨w, hw⟩ : ['}', '}'] <:+ x ++ '}' :: '}' :: rest' :=
      List.suffix_of_suffix_length_le hend
        ⟨front ++ bs ++ '}' :: '}' :: (m ++ ['{', '{']), by simp [he]⟩ (by simp; omega)
    refine ⟨front ++ bs, m, w, by simp [hbody.ne_nil], ?_, ?_⟩
    · rintro rfl
      have := congrArg List.length hw
      have := List.length_pos_iff.mpr hx
      simp only [List.length_append, List.length_cons, List.length_nil] at *
      omega
    · refine (List.append_left_inj ['}', '}']).mp ?_
      rw [he, ← hw]
      simp

/-! ## Values -/

/-- What an expression in braces is rendered to, whatever it is.  If it is on one line and does not
open braces behind others that it closes, it is evaluated as it stands, and its value or failure is
the one of the template; and else the braces are no template of the whole, but a text that is filled
piece by piece. -/
theorem renders_embedded_expression (env : Env) (source : String) (hne : source ≠ "")
    (ht : Text.trim source.toList = source.toList) :
    ('\n' ∉ source.toList → ¬Reopens source.toList →
      render env (embed source) = Expr.run env source) ∧
    ('\n' ∈ source.toList ∨ Reopens source.toList →
      render env (embed source) = (fill env (pieces (embedded source.toList))).map .str) := by
  have hne : source.toList ≠ [] := fun hn ↦ hne (String.toList_eq_nil_iff.mp hn)
  have hwhole := whole?_embedded hne ht
  have htext : (String.ofList (embedded source.toList)).toList = embedded source.toList :=
    String.toList_ofList
  constructor
  · intro hline hre
    refine renderText_eq_run ?_ ?_
    · rw [htext]
      exact (length_codes_embedded hne ht hline).mpr hre
    · rw [htext, hwhole, if_neg hline, String.ofList_toList]
  · intro h
    refine (renderText_eq_fill ?_).trans (by rw [htext])
    rw [htext, hwhole]
    by_cases hline : '\n' ∈ source.toList
    · exact .inr (if_pos hline)
    · refine .inl fun hc ↦ ?_
      exact (length_codes_embedded hne ht hline).mp hc (h.resolve_left hline)

/-- An object is rendered as it is evaluated, though it ends with braces, and though there are
braces in what a name in it stands for; an expression on two lines is left as text. -/
theorem renders_nested_object :
    let env : Env := ⟨[("x", .str "{{ x }}")], 0⟩
    render env (embed "{a: {b: x}}") = .ok (.obj [("a", .obj [("b", .str "{{ x }}")])]) ∧
    render env (embed "x ??\nx") = .ok (embed "x ??\nx") := by
  intro env
  have hre : ¬Reopens "{a: {b: x}}".toList := by
    have hcs : "{a: {b: x}}".toList =
        ['{', 'a', ':', ' ', '{', 'b', ':', ' ', 'x', '}', '}'] := by decide
    rw [hcs]
    rintro ⟨p, m, s, -, hs, h⟩
    have hend : ['}'] <:+ ['{', 'a', ':', ' ', '{', 'b', ':', ' ', 'x', '}', '}'] :=
      ⟨['{', 'a', ':', ' ', '{', 'b', ':', ' ', 'x', '}'], rfl⟩
    have hlast : ['}'] <:+ s := List.suffix_of_suffix_length_le hend
      ⟨p ++ '}' :: '}' :: (m ++ ['{', '{']), by simp [← h]⟩ (List.length_pos_iff.mpr hs)
    have hpos := List.count_pos_iff.mpr (hlast.mem List.mem_cons_self)
    have hcount := congrArg (List.count '}') h
    simp only [List.count_append, List.count_cons] at hcount
    simp at hcount
    omega
  constructor
  · refine ((renders_embedded_expression env "{a: {b: x}}" (by decide) (by decide)).1
      (by decide) hre).trans ?_
    cbv
  · refine ((renders_embedded_expression env "x ??\nx" (by decide) (by decide)).2
      (.inl (by decide))).trans ?_
    cbv

/-- An expression on two lines is left as text, and one with a text that closes braces and opens
others is read as two expressions, though both have a value. -/
theorem embedded_expressions_not_rendered :
    let env : Env := ⟨[], 0⟩
    (Expr.run env "null ??\n'x'" = .ok (.str "x") ∧
      render env (embed "null ??\n'x'") = .ok (embed "null ??\n'x'")) ∧
    Expr.run env "'\x7d\x7d \x7b\x7b'" = .ok (.str "\x7d\x7d \x7b\x7b") ∧
    render env (embed "'\x7d\x7d \x7b\x7b'") =
      .error (.syntactic "'" ⟨.lexical "'", 0⟩) := by
  intro env
  exact ⟨⟨by cbv, by cbv⟩, by cbv, by cbv⟩

end Template

end LivePage
