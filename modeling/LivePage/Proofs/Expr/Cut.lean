import LivePage.Proofs.Expr.Tiling
import LivePage.Proofs.Outcome

/-!
# Texts cut at a token

A text may be cut in front of any of its tokens and behind it, and the parts have the tokens that
they have in the text.  Texts are read one behind another if there is a blank between them.  So
tokens can be put behind a token of a text, without a change of what is around them.
-/

namespace LivePage

open Text Token

variable {pos pos' mid : Nat} {u v gap text cs back : List Char} {ss rs : List Spanned}
  {s : Spanned} {ts us : List Token} {t : Token}

namespace Reads

/-- The tokens of a text do not depend on the place where it starts. -/
theorem shift (h : Reads pos cs ss pos' back) (p : Nat) :
    ∃ rs p', Reads p cs rs p' back ∧ rs.map (·.token) = ss.map (·.token) := by
  induction h generalizing p with
  | gap hg => exact ⟨[], _, .gap hg, rfl⟩
  | @token _ _ gap text _ _ _ _ hg hm hs _ ih =>
    obtain ⟨rs, p', hr, hmap⟩ := ih (p + byteLength (gap ++ text))
    exact ⟨_, p', .token hg hm hs hr, congrArg (_ :: ·) hmap⟩

/-- A text is cut in front of one of its tokens and behind it. -/
theorem split (h : Reads pos cs (ss ++ s :: rs) pos' back) :
    ∃ front text v mid, cs = front ++ (text ++ v) ∧ s.token.Spells text ∧
      Reads pos (front ++ text) (ss ++ [s]) mid [] ∧
      Reads s.start (text ++ v) (s :: rs) pos' back := by
  have none : Blank [] := nofun
  induction ss generalizing pos cs with
  | nil =>
    cases h with
    | @token _ _ gap text rest _ m _ hg hm hs h =>
      have hcut : munch? (text ++ []) = some m := munch?_follows hm hs.le (.stop rest)
      have hend : Reads (pos + byteLength (gap ++ text)) ([] ++ []) []
          (pos + byteLength (gap ++ text) + byteLength []) [] := .gap none
      refine ⟨gap, text, rest, pos + byteLength (gap ++ text), rfl,
        ⟨m, by simpa using hcut, hs, rfl⟩, ?_, ?_⟩
      · simpa using Reads.token hg hcut hs hend
      · rw [byteLength_append, ← Nat.add_assoc] at h ⊢
        exact .token none hm hs h
  | cons s' ss ih =>
    cases h with
    | @token _ _ gap text rest _ m _ hg hm hs h =>
      obtain ⟨front, text', v, mid, rfl, hspells, hr, hv⟩ := ih h
      refine ⟨gap ++ (text ++ front), text', v, mid, by simp, hspells, ?_, hv⟩
      have hcut : munch? (text ++ (front ++ text')) = some m := by
        refine munch?_follows hm hs.le (.cut ?_)
        rw [← List.append_assoc]
        exact List.prefix_append _ v
      simpa using Reads.token hg hcut hs hr

/-- Blanks in front of a text are no tokens. -/
theorem blank (hg : Blank gap) (h : Reads (pos + byteLength gap) v ss pos' back) :
    Reads pos (gap ++ v) ss pos' back := by
  have blanks {gap' : List Char} (hg' : Blank gap') : Blank (gap ++ gap') :=
    fun c hc ↦ (List.mem_append.mp hc).elim (hg c) (hg' c)
  have place (gap' : List Char) :
      pos + byteLength gap + byteLength gap' = pos + byteLength (gap ++ gap') := by
    rw [byteLength_append, Nat.add_assoc]
  cases h with
  | @gap _ gap' back hg' =>
    rw [place, ← List.append_assoc]
    exact .gap (blanks hg')
  | @token _ _ gap' text rest _ m _ hg' hm hs h =>
    rw [place, place, ← List.append_assoc gap gap' (text ++ rest),
      ← List.append_assoc gap gap' text]
    rw [place, ← List.append_assoc] at h
    exact .token (blanks hg') hm hs h

/-- Texts are read one behind another where the second one starts with a blank. -/
theorem append (h : Reads pos u ss mid []) (hv : Reads mid v rs pos' back) (hf : Follows [] v) :
    Reads pos (u ++ v) (ss ++ rs) pos' back := by
  generalize hend : [] = rest at h
  induction h with
  | gap hg =>
    subst hend
    rw [List.append_nil]
    exact hv.blank hg
  | @token _ _ gap text rest _ m _ hg hm hs _ ih =>
    have hgoes : munch? (text ++ (rest ++ v)) = some m := by
      have hrest := hf.append rest
      rw [List.append_nil] at hrest
      exact munch?_follows hm hs.le hrest
    simpa using Reads.token hg hgoes hs (ih hv hend)

end Reads

/-! ## Tokens of sources -/

/-- The tokens of a source. -/
def HasTokens (source : String) (ts : List Token) : Prop :=
  (tokenize source).map (List.map (·.token)) = .ok ts

instance (source : String) (ts : List Token) : Decidable (HasTokens source ts) :=
  inferInstanceAs (Decidable (_ = _))

theorem hasTokens_ofList_iff : HasTokens (String.ofList cs) ts ↔
    ∃ ss pos', Reads 0 cs ss pos' [] ∧ ss.map (·.token) = ts := by
  rw [HasTokens, map_eq_ok_iff]
  constructor
  · rintro ⟨ss, h, rfl⟩
    obtain ⟨pos', hr⟩ := reads_of_tokenize_eq h
    exact ⟨ss, pos', hr, rfl⟩
  · rintro ⟨ss, pos', hr, rfl⟩
    exact ⟨ss, (tokenize_ofList cs).trans hr.lexFrom_eq, rfl⟩

namespace HasTokens

theorem eq {source : String} (h : HasTokens source ts) (h' : HasTokens source us) : ts = us :=
  Except.ok.inj (h.symm.trans h')

/-- A text is cut in front of one of its tokens and behind it. -/
theorem split (h : HasTokens (String.ofList cs) (ts ++ t :: us)) :
    ∃ front text v, cs = front ++ (text ++ v) ∧ t.Spells text ∧
      HasTokens (String.ofList (front ++ text)) (ts ++ [t]) ∧
      HasTokens (String.ofList (text ++ v)) (t :: us) := by
  obtain ⟨_, _, hr, hmap⟩ := hasTokens_ofList_iff.mp h
  obtain ⟨ss, _, rfl, rfl, hbehind⟩ := List.map_eq_append_iff.mp hmap
  obtain ⟨s, rs, rfl, rfl, rfl⟩ := List.map_eq_cons_iff.mp hbehind
  obtain ⟨front, text, v, mid, rfl, hspells, hu, hv⟩ := hr.split
  obtain ⟨rs', p', hshift, htokens⟩ := hv.shift 0
  exact ⟨front, text, v, rfl, hspells, hasTokens_ofList_iff.mpr ⟨_, mid, hu, by simp⟩,
    hasTokens_ofList_iff.mpr ⟨rs', p', hshift, htokens⟩⟩

/-- Texts are read one behind another where there is a blank between them. -/
theorem append (hu : HasTokens (String.ofList u) ts) (hv : HasTokens (String.ofList v) us) :
    HasTokens (String.ofList (u ++ ' ' :: v)) (ts ++ us) := by
  obtain ⟨ss, mid, hru, rfl⟩ := hasTokens_ofList_iff.mp hu
  obtain ⟨rs, _, hrv, rfl⟩ := hasTokens_ofList_iff.mp hv
  have space : Blank [' '] := by simp [Blank, isSpace]
  obtain ⟨rs', p', hshift, hmap⟩ := hrv.shift (mid + byteLength [' '])
  have hr := hru.append (hshift.blank space) (.blank rfl [] v)
  exact hasTokens_ofList_iff.mpr ⟨_, p', hr, by rw [List.map_append, hmap]⟩

end HasTokens

/-- The text of a name is the name. -/
theorem Token.Spells.eq_toList {name : String} (h : (Token.identifier name).Spells text) :
    text = name.toList := by
  cases spells_iff_lexeme.mp h
  rfl

end LivePage
