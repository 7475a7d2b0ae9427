import Mathlib.Data.String.Basic
import LivePage.Proofs.Expr.Lexeme
import LivePage.Proofs.Safety.Crash

/-!
# Tokens tile their source

The spans of the tokens of a source lie one behind another, with nothing but blanks between them.
Each is written as its token, and from its start no longer text is written as one; it is that token
alone; and the tokens stay the same whatever blanks are put between them.  This is because a token
does not depend on what is behind it, up to where a blank is put there.  A source is read up to the
first place that is no blank and from which no text is written as a token.
-/

namespace LivePage

open Text

/-- A run of blanks, which may be empty. -/
def Token.Blank (cs : List Char) : Prop := ∀ c ∈ cs, isSpace c = true

/-- The part of a source that a span takes. -/
def Spanned.text (s : Spanned) (source : String) : String :=
  String.Pos.Raw.extract source ⟨s.start⟩ ⟨s.stop⟩

open Token

variable {pos pos' : Nat} {cs gap text rest back : List Char} {ts : List Spanned} {s : Spanned}
  {m : Munch} {token : Token}

/-! ## Cuts -/

/-- Of two cuts of a text, the one in front cuts the first part of the other one. -/
theorem cut_le {u v before behind : List Char} (h : u ++ v = before ++ behind)
    (hle : byteLength u ≤ byteLength before) : ∃ r, before = u ++ r ∧ v = r ++ behind := by
  rcases List.append_eq_append_iff.mp h with ⟨r, rfl, hv⟩ | ⟨r, rfl, hr⟩
  · exact ⟨r, rfl, hv⟩
  · cases r with
    | nil => exact ⟨[], by simp, hr.symm⟩
    | cons d r =>
      have := d.utf8Size_pos
      rw [byteLength_append, byteLength_cons] at hle
      omega

/-- A character behind a cut that is in front of another one stands between them. -/
theorem mem_of_cut_lt {u v before behind : List Char} {c : Char}
    (h : u ++ v = before ++ c :: behind) (hlt : byteLength before < byteLength u) : c ∈ u := by
  obtain ⟨r, rfl, hr⟩ := cut_le h.symm hlt.le
  cases r with
  | nil =>
    rw [List.append_nil] at hlt
    exact absurd hlt (Nat.lt_irrefl _)
  | cons d r =>
    obtain ⟨rfl, -⟩ := List.cons.inj hr
    simp

/-! ## Reading on -/

/-- Tokens are read from a place on, up to a place where no blanks are any more. -/
inductive Reads : Nat → List Char → List Spanned → Nat → List Char → Prop where
  | gap {pos : Nat} {gap back : List Char} (hg : Blank gap) :
      Reads pos (gap ++ back) [] (pos + byteLength gap) back
  | token {pos pos' : Nat} {gap text rest back : List Char} {m : Munch} {ts : List Spanned}
      (hg : Blank gap) (hm : munch? (text ++ rest) = some m) (hs : m.size = text.length)
      (h : Reads (pos + byteLength (gap ++ text)) rest ts pos' back) :
      Reads pos (gap ++ (text ++ rest))
        (⟨m.token, pos + byteLength gap, pos + byteLength (gap ++ text)⟩ :: ts) pos' back

theorem takeWhile_blank (hg : Blank gap) (h : ∀ c ∈ rest.head?, isSpace c = false) :
    (gap ++ rest).takeWhile isSpace = gap ∧ (gap ++ rest).dropWhile isSpace = rest := by
  rw [List.takeWhile_append_of_pos hg, List.dropWhile_append_of_pos hg]
  cases rest with
  | nil => simp
  | cons c r =>
    have hc := h c rfl
    simp [hc]

/-- No token starts with a blank. -/
theorem head_of_munch? (h : munch? cs = some m) : ∃ c r, cs = c :: r ∧ isSpace c = false := by
  cases cs with
  | nil => cases h
  | cons c r =>
    refine ⟨c, r, rfl, Bool.eq_false_iff.mpr fun hc ↦ ?_⟩
    rw [munch?_of_isSpace hc] at h
    cases h

theorem lexFrom_blank (hg : Blank gap) (pos : Nat) : lexFrom pos gap = .ok [] := by
  have hnone : ∀ c ∈ ([] : List Char).head?, isSpace c = false := nofun
  have hdrop := (takeWhile_blank hg hnone).2
  rw [List.append_nil] at hdrop
  rw [lexFrom]
  split
  · rfl
  · next h =>
    rw [hdrop] at h
    cases h

theorem lexFrom_token (hg : Blank gap) (hm : munch? (text ++ rest) = some m)
    (hs : m.size = text.length) (pos : Nat) :
    lexFrom pos (gap ++ (text ++ rest)) =
      (lexFrom (pos + byteLength (gap ++ text)) rest).map
        (⟨m.token, pos + byteLength gap, pos + byteLength (gap ++ text)⟩ :: ·) := by
  obtain ⟨c, r, hcr, hc⟩ := head_of_munch? hm
  have hfirst : ∀ c ∈ (text ++ rest).head?, isSpace c = false := by
    rw [hcr]
    simpa using hc
  obtain ⟨htake, hdrop⟩ := takeWhile_blank hg hfirst
  rw [lexFrom]
  split
  · next h =>
    rw [hdrop, hcr] at h
    cases h
  · next c' r' h =>
    rw [hdrop] at h
    rw [← h, hm, htake]
    simp only [hs, List.take_left, List.drop_left, byteLength_append, Nat.add_assoc]

theorem lexFrom_stuck (hg : Blank gap) {c : Char} {r : List Char} (hc : isSpace c = false)
    (hm : munch? (c :: r) = none) (pos : Nat) :
    lexFrom pos (gap ++ c :: r) =
      .error ⟨String.ofList ((c :: r).take 12), pos + byteLength gap⟩ := by
  have hfirst : ∀ d ∈ (c :: r).head?, isSpace d = false := by simpa using hc
  obtain ⟨htake, hdrop⟩ := takeWhile_blank hg hfirst
  rw [lexFrom]
  split
  · next h =>
    rw [hdrop] at h
    cases h
  · next c' r' h =>
    rw [hdrop] at h
    rw [← h, hm, htake]

/-- How a text is read: to its end, or up to where no token starts. -/
theorem exists_reads (pos : Nat) (cs : List Char) :
    (∃ ts pos', Reads pos cs ts pos' [] ∧ lexFrom pos cs = .ok ts) ∨
    ∃ ts pos' c r, Reads pos cs ts pos' (c :: r) ∧ isSpace c = false ∧ munch? (c :: r) = none ∧
      lexFrom pos cs = .error ⟨String.ofList ((c :: r).take 12), pos'⟩ := by
  induction hn : cs.length using Nat.strong_induction_on generalizing pos cs with
  | _ n ih =>
    subst hn
    obtain ⟨gap, rest, rfl, hg, hrest⟩ : ∃ gap rest, cs = gap ++ rest ∧ Blank gap ∧
        ∀ c ∈ rest.head?, isSpace c = false := by
      refine ⟨cs.takeWhile isSpace, cs.dropWhile isSpace, List.takeWhile_append_dropWhile.symm,
        fun c hc ↦ ?_, fun c hc ↦ ?_⟩
      · exact List.all_eq_true.mp List.all_takeWhile c hc
      · have hnot := List.head?_dropWhile_not isSpace cs
        rw [hc] at hnot
        simpa using hnot
    cases rest with
    | nil =>
      refine .inl ⟨[], _, .gap hg, ?_⟩
      rw [List.append_nil]
      exact lexFrom_blank hg pos
    | cons c r =>
      cases hm : munch? (c :: r) with
      | none =>
        have hc := hrest c rfl
        exact .inr ⟨[], _, c, r, .gap hg, hc, hm, lexFrom_stuck hg hc hm pos⟩
      | some m =>
        obtain ⟨text, rest, htext, hs⟩ : ∃ text rest, c :: r = text ++ rest ∧
            m.size = text.length := by
          refine ⟨(c :: r).take m.size, (c :: r).drop m.size, (List.take_append_drop ..).symm, ?_⟩
          rw [List.length_take, Nat.min_eq_left (munch?_le hm)]
        rw [htext] at hm ⊢
        have hshort : rest.length < (gap ++ (text ++ rest)).length := by
          have := m.size_pos
          simp only [List.length_append]
          omega
        have hlex := lexFrom_token hg hm hs pos
        rcases ih _ (by rw [htext]; exact hshort) (pos + byteLength (gap ++ text)) rest rfl with
          ⟨ts, pos', hread, hok⟩ | ⟨ts, pos', c', r', hread, hc, hnone, herr⟩
        · refine .inl ⟨_, pos', .token hg hm hs hread, ?_⟩
          rw [hlex, hok]
          rfl
        · refine .inr ⟨_, pos', c', r', .token hg hm hs hread, hc, hnone, ?_⟩
          rw [hlex, herr]
          rfl

namespace Reads

/-- What is read ends where the rest starts. -/
theorem exists_front (h : Reads pos cs ts pos' back) :
    ∃ front, cs = front ++ back ∧ pos' = pos + byteLength front := by
  induction h with
  | gap => exact ⟨_, rfl, rfl⟩
  | @token pos pos' gap text rest back m ts hg hm hs h ih =>
    obtain ⟨front, rfl, rfl⟩ := ih
    refine ⟨gap ++ text ++ front, by simp, ?_⟩
    simp only [byteLength_append, Nat.add_assoc]

/-- What is read of a text is read of the part in front of the rest. -/
theorem cut (h : Reads pos cs ts pos' back) :
    ∃ front, cs = front ++ back ∧ Reads pos front ts pos' [] := by
  induction h with
  | @gap pos gap back hg =>
    have hread : Reads pos (gap ++ []) [] (pos + byteLength gap) [] := .gap hg
    exact ⟨gap, rfl, by simpa using hread⟩
  | @token pos pos' gap text rest back m ts hg hm hs h ih =>
    obtain ⟨front, rfl, hread⟩ := ih
    refine ⟨gap ++ (text ++ front), by simp, .token hg ?_ hs hread⟩
    exact munch?_follows hm hs.le (.cut (List.prefix_append front back))

theorem lexFrom_eq (h : Reads pos cs ts pos' []) : lexFrom pos cs = .ok ts := by
  generalize hback : [] = back at h
  induction h with
  | gap hg =>
    subst hback
    rw [List.append_nil]
    exact lexFrom_blank hg _
  | token hg hm hs _ ih =>
    rw [lexFrom_token hg hm hs, ih hback]
    rfl

/-- Where the span of a token lies, and that it is munched there. -/
theorem exists_munch (h : Reads pos cs ts pos' back) (hs : s ∈ ts) :
    ∃ before text behind m, cs = before ++ (text ++ behind) ∧ s.start = pos + byteLength before ∧
      s.stop = pos + byteLength (before ++ text) ∧
      munch? (text ++ behind) = some m ∧ m.size = text.length ∧ m.token = s.token := by
  induction h with
  | gap => cases hs
  | @token pos pos' gap text rest back m ts hg hm hsize h ih =>
    rcases List.mem_cons.mp hs with rfl | hs
    · exact ⟨gap, text, rest, m, rfl, rfl, rfl, hm, hsize, rfl⟩
    · obtain ⟨before, text', behind, m', rfl, hstart, hstop, hrest⟩ := ih hs
      refine ⟨gap ++ (text ++ before), text', behind, m', by simp, ?_, ?_, hrest⟩
      · simp only [hstart, byteLength_append, Nat.add_assoc]
      · simp only [hstop, byteLength_append, Nat.add_assoc]

theorem apart (h : Reads pos cs ts pos' back) :
    (∀ s ∈ ts, pos ≤ s.start) ∧ ts.Pairwise fun s t ↦ s.stop ≤ t.start := by
  induction h with
  | gap => exact ⟨nofun, .nil⟩
  | @token pos pos' gap text rest back m ts hg hm hs h ih =>
    refine ⟨fun s hs ↦ ?_, List.pairwise_cons.mpr ⟨ih.1, ih.2⟩⟩
    rcases List.mem_cons.mp hs with rfl | hs
    · exact Nat.le_add_right _ _
    · exact (Nat.le_add_right _ _).trans (ih.1 s hs)

/-- A character that is read and is in no span is a blank. -/
theorem isSpace_of_outside (h : Reads pos cs ts pos' back) {before behind : List Char} {c : Char}
    (hcs : cs = before ++ c :: behind) (hread : pos + byteLength before < pos')
    (hout : ∀ s ∈ ts, pos + byteLength before < s.start ∨ s.stop ≤ pos + byteLength before) :
    isSpace c = true := by
  induction h generalizing before with
  | gap hg => exact hg c (mem_of_cut_lt hcs (Nat.lt_of_add_lt_add_left hread))
  | @token pos pos' gap text rest back m ts hg hm hs h ih =>
    rcases Nat.lt_or_ge (byteLength before) (byteLength gap) with hlt | hge
    · exact hg c (mem_of_cut_lt hcs hlt)
    · have hstop := (hout _ List.mem_cons_self).resolve_left
        (Nat.not_lt_of_ge (Nat.add_le_add_left hge pos))
      rw [← List.append_assoc] at hcs
      obtain ⟨r, rfl, hrest⟩ := cut_le hcs (Nat.le_of_add_le_add_left hstop)
      have hshift : pos + byteLength (gap ++ text ++ r) =
          pos + byteLength (gap ++ text) + byteLength r := by
        rw [byteLength_append, Nat.add_assoc]
      rw [hshift] at hread hout
      exact ih hrest hread fun s hs ↦ hout s (List.mem_cons_of_mem _ hs)

end Reads

/-! ## Texts of one token -/

theorem tokenize_ofList (text : List Char) : tokenize (String.ofList text) = lexFrom 0 text := by
  rw [tokenize, String.toList_ofList]

theorem byteLength_pos (h : text ≠ []) : 0 < byteLength text := by
  cases text with
  | nil => exact absurd rfl h
  | cons c r =>
    have := c.utf8Size_pos
    rw [byteLength_cons]
    omega

theorem reads_of_tokenize_eq (h : tokenize (String.ofList text) = .ok ts) :
    ∃ pos', Reads 0 text ts pos' [] := by
  rw [tokenize_ofList] at h
  rcases exists_reads 0 text with ⟨ts', pos', hread, hok⟩ | ⟨_, _, _, _, _, _, _, herr⟩
  · cases hok.symm.trans h
    exact ⟨pos', hread⟩
  · cases herr.symm.trans h

/-- A text is read to a token that takes all of it where it is written as that token. -/
theorem tokenize_eq_iff_lexeme : tokenize (String.ofList text) =
    .ok [⟨token, 0, byteLength text⟩] ↔ token.Lexeme text := by
  rw [← spells_iff_lexeme]
  constructor
  · intro h
    obtain ⟨pos', hread⟩ := reads_of_tokenize_eq h
    obtain ⟨before, text', behind, m, rfl, hstart, hstop, hm, hs, rfl⟩ :=
      hread.exists_munch List.mem_cons_self
    have hbefore : before = [] := by
      by_contra hne
      have := byteLength_pos hne
      simp only [Nat.zero_add] at hstart
      omega
    have hbehind : behind = [] := by
      by_contra hne
      have := byteLength_pos hne
      simp only [byteLength_append, Nat.zero_add] at hstop
      omega
    subst hbefore hbehind
    exact ⟨m, by simpa using hm, by simpa using hs, rfl⟩
  · rintro ⟨m, hm, hs, rfl⟩
    have hnone : Blank [] := nofun
    rw [← List.append_nil text] at hm
    have hlex := lexFrom_token hnone hm hs 0
    simp only [List.nil_append, List.append_nil, lexFrom_blank hnone, byteLength_nil,
      Nat.zero_add] at hlex
    rw [tokenize_ofList, hlex]
    rfl

/-- Where nothing is munched no text is written as a token. -/
theorem not_lexeme_of_stuck (hm : munch? cs = none) (hp : text <+: cs) : ¬token.Lexeme text := by
  intro h
  obtain ⟨m, hm', -⟩ := spells_iff_lexeme.mpr h
  obtain ⟨v, rfl⟩ := hp
  have hgrows := isSome_munch?_append (Option.isSome_iff_exists.mpr ⟨m, hm'⟩) v
  rw [hm] at hgrows
  cases hgrows

/-- A munched token is the longest one at its place. -/
theorem prefix_of_lexeme {t : List Char} (hm : munch? (text ++ rest) = some m)
    (hs : m.size = text.length) (ht : token.Lexeme t) (hp : t <+: text ++ rest) : t <+: text := by
  refine List.prefix_of_prefix_length_le hp (List.prefix_append text rest) ?_
  by_contra hlt
  -- a longer one would go on behind the munched one, which is munched there as well
  obtain ⟨u, rfl⟩ := List.prefix_of_prefix_length_le (List.prefix_append text rest) hp
    (Nat.le_of_not_ge hlt)
  have hu : u <+: rest := (List.prefix_append_right_inj text).mp hp
  have hcut := munch?_follows hm hs.le (.cut hu)
  obtain ⟨m', hm', hs', -⟩ := spells_iff_lexeme.mpr ht
  obtain rfl := Option.some.inj (hcut.symm.trans hm')
  exact hlt (hs'.symm.trans hs).le

/-- Where a text is written as a token and no longer one from its start is, it is munched. -/
theorem exists_munch_of_longest (ht : token.Lexeme text)
    (hlongest : ∀ t u (token : Token), text ++ rest = t ++ u → token.Lexeme t →
      byteLength t ≤ byteLength text) :
    ∃ m, munch? (text ++ rest) = some m ∧ m.size = text.length ∧ m.token = token := by
  obtain ⟨m₀, hm₀, -⟩ := spells_iff_lexeme.mpr ht
  obtain ⟨m, hm⟩ := Option.isSome_iff_exists.mp
    (isSome_munch?_append (Option.isSome_iff_exists.mpr ⟨m₀, hm₀⟩) rest)
  obtain ⟨t, u, htu, hs⟩ : ∃ t u, text ++ rest = t ++ u ∧ m.size = t.length :=
    ⟨_, _, (List.take_append_drop m.size _).symm, by
      rw [List.length_take, Nat.min_eq_left (munch?_le hm)]⟩
  rw [htu] at hm
  have hcut := munch?_follows hm hs.le (.stop u)
  rw [List.append_nil] at hcut
  have hlexeme : m.token.Lexeme t := spells_iff_lexeme.mp ⟨m, hcut, hs, rfl⟩
  -- neither of the two texts goes on behind the other one
  obtain ⟨w, rfl⟩ := prefix_of_lexeme hm hs ht ⟨rest, htu⟩
  obtain rfl : w = [] := by
    by_contra hw
    have := byteLength_pos hw
    have := hlongest _ _ _ htu hlexeme
    rw [byteLength_append] at this
    omega
  rw [List.append_nil] at htu hm hs hlexeme
  exact ⟨m, htu ▸ hm, hs, hlexeme.eq ht⟩

theorem text_eq {source : String} {before behind : List Char}
    (h : source.toList = before ++ (text ++ behind)) (hstart : s.start = byteLength before)
    (hstop : s.stop = byteLength (before ++ text)) : s.text source = String.ofList text := by
  have hlen (cs : List Char) : byteLength cs = String.utf8Len cs := by
    induction cs with
    | nil => rfl
    | cons c r ih => rw [byteLength_cons, String.utf8Len_cons, ih, Nat.add_comm]
  have hsource : source = String.ofList (before ++ text ++ behind) := by
    rw [List.append_assoc, ← h, String.ofList_toList]
  rw [Spanned.text, hstart, hstop, byteLength_append, hlen, hlen, hsource]
  exact String.extract_of_valid before text behind

/-- Texts in front of which equally many bytes stand are the same. -/
theorem append_inj_of_byteLength {before u front v : List Char} (h : before ++ u = front ++ v)
    (hlen : byteLength before = byteLength front) : before = front ∧ u = v := by
  have hcut : cutAt? (before ++ u) (byteLength before) = some (before, u) :=
    cutAt?_eq_some_iff.mpr ⟨rfl, rfl⟩
  rw [cutAt?_eq_some_iff.mpr ⟨h, hlen.symm⟩] at hcut
  cases hcut
  exact ⟨rfl, rfl⟩

/-! ## Tiles -/

/-- A span is written as its token, and no longer text from its start is written as one. -/
structure Spanned.Munches (s : Spanned) (source : String) : Prop where
  nonempty : s.start < s.stop
  start_isValid : (String.Pos.Raw.mk s.start).IsValid source
  stop_isValid : (String.Pos.Raw.mk s.stop).IsValid source
  lexeme : s.token.Lexeme (s.text source).toList
  longest : ∀ front text back (token : Token), source.toList = front ++ (text ++ back) →
    byteLength front = s.start → token.Lexeme text → byteLength text ≤ s.stop - s.start
  alone : tokenize (s.text source) = .ok [⟨s.token, 0, s.stop - s.start⟩]

/-- The texts of some spans of a source, with other gaps between them. -/
def respace (source : String) (ts : List Spanned) (lead : List Char) (gaps : List (List Char)) :
    String :=
  String.ofList (lead ++ (List.zipWith (fun s gap ↦ (s.text source).toList ++ gap) ts gaps).flatten)

/-- Tokens whose spans tile a source, whatever the gaps between them are. -/
structure Tile (source : String) (ts : List Spanned) : Prop where
  munches : ∀ s ∈ ts, s.Munches source
  apart : ts.Pairwise fun s t ↦ s.stop ≤ t.start
  blank : ∀ front c back, source.toList = front ++ c :: back →
    (∀ s ∈ ts, byteLength front < s.start ∨ s.stop ≤ byteLength front) → isSpace c = true
  respaced : ∀ lead gaps, Blank lead → (∀ gap ∈ gaps, Blank gap) → gaps.length = ts.length →
    (∀ gap ∈ gaps.dropLast, gap ≠ []) →
    (tokenize (respace source ts lead gaps)).map (·.map (·.token)) = .ok (ts.map (·.token))

variable {source : String}

theorem toList_respace_nil (lead : List Char) (gaps : List (List Char)) :
    (respace source [] lead gaps).toList = lead := by
  rw [respace, List.zipWith_nil_left, List.flatten_nil, List.append_nil, String.toList_ofList]

theorem toList_respace_cons (s : Spanned) (ts : List Spanned) (lead gap : List Char)
    (gaps : List (List Char)) : (respace source (s :: ts) lead (gap :: gaps)).toList =
      lead ++ ((s.text source).toList ++ (respace source ts gap gaps).toList) := by
  simp only [respace, String.toList_ofList, List.zipWith_cons_cons, List.flatten_cons,
    List.append_assoc]

/-- Behind a token there is nothing more, or the blank of a gap. -/
theorem follows_respace {gap : List Char} {gaps : List (List Char)} (hgap : Blank gap)
    (hlength : gaps.length = ts.length) (hne : gaps ≠ [] → gap ≠ []) :
    Follows [] (respace source ts gap gaps).toList := by
  cases gap with
  | nil =>
    have hgaps : gaps = [] := by
      by_contra h
      exact hne h rfl
    subst hgaps
    obtain rfl := List.eq_nil_of_length_eq_zero hlength.symm
    rw [toList_respace_nil]
    exact .stop []
  | cons b gap =>
    rw [respace, String.toList_ofList]
    exact .blank (hgap b List.mem_cons_self) _ _

/-- Texts of one token each are read to their tokens, whatever blanks are between them. -/
theorem lexFrom_respace (h : ∀ s ∈ ts, s.token.Spells (s.text source).toList) {lead : List Char}
    {gaps : List (List Char)} (hlead : Blank lead) (hgaps : ∀ gap ∈ gaps, Blank gap)
    (hlength : gaps.length = ts.length) (hne : ∀ gap ∈ gaps.dropLast, gap ≠ []) (pos : Nat) :
    (lexFrom pos (respace source ts lead gaps).toList).map (·.map (·.token)) =
      .ok (ts.map (·.token)) := by
  induction ts generalizing lead gaps pos with
  | nil =>
    rw [toList_respace_nil, lexFrom_blank hlead]
    rfl
  | cons s ts ih =>
    cases gaps with
    | nil => cases hlength
    | cons gap gaps =>
      have hgap := hgaps gap List.mem_cons_self
      have hlength := Nat.succ_inj.mp hlength
      obtain ⟨m, hm, hs, htoken⟩ := h s List.mem_cons_self
      have hbehind : Follows [] (respace source ts gap gaps).toList := by
        refine follows_respace hgap hlength fun hmore ↦ hne gap ?_
        rw [List.dropLast_cons_of_ne_nil hmore]
        exact List.mem_cons_self
      rw [← List.append_nil (s.text source).toList] at hm
      have hrest (pos : Nat) : (lexFrom pos (respace source ts gap gaps).toList).map
          (·.map (·.token)) = .ok (ts.map (·.token)) := by
        refine ih (fun s hs ↦ h s (List.mem_cons_of_mem _ hs)) hgap
          (fun g hg ↦ hgaps g (List.mem_cons_of_mem gap hg)) hlength (fun g hg ↦ hne g ?_) pos
        have hmore : gaps ≠ [] := List.ne_nil_of_mem ((List.dropLast_sublist gaps).subset hg)
        rw [List.dropLast_cons_of_ne_nil hmore]
        exact List.mem_cons_of_mem gap hg
      rw [toList_respace_cons, lexFrom_token hlead (munch?_follows hm hs.le hbehind) hs]
      have hread := hrest (pos + byteLength (lead ++ (s.text source).toList))
      cases hlex : lexFrom (pos + byteLength (lead ++ (s.text source).toList))
          (respace source ts gap gaps).toList with
      | error e =>
        rw [hlex] at hread
        cases hread
      | ok ts' =>
        rw [hlex] at hread
        simp only [Except.map, Except.ok.injEq, List.map_cons] at hread ⊢
        rw [hread, htoken]

theorem isValid_of_append {front back : List Char} (h : source.toList = front ++ back) :
    (String.Pos.Raw.mk (byteLength front)).IsValid source := by
  rw [← isSome_cutAt?_iff, cutAt?_eq_some_iff.mpr ⟨h, rfl⟩]
  rfl

namespace Reads

variable (h : Reads 0 source.toList ts pos' back)

include h

theorem spells_text (hs : s ∈ ts) : s.token.Spells (s.text source).toList := by
  obtain ⟨before, text, behind, m, hsource, hstart, hstop, hm, hsize, htoken⟩ := h.exists_munch hs
  rw [Nat.zero_add] at hstart hstop
  rw [text_eq hsource hstart hstop, String.toList_ofList]
  have hcut := munch?_follows hm hsize.le (.stop behind)
  rw [List.append_nil] at hcut
  exact ⟨m, hcut, hsize, htoken⟩

theorem munches (hs : s ∈ ts) : s.Munches source := by
  obtain ⟨before, text, behind, m, hsource, hstart, hstop, hm, hsize, htoken⟩ := h.exists_munch hs
  rw [Nat.zero_add] at hstart hstop
  have htext := text_eq hsource hstart hstop
  have hlen : s.stop - s.start = byteLength text := by
    rw [hstart, hstop, byteLength_append, Nat.add_sub_cancel_left]
  have hne : text ≠ [] := List.ne_nil_of_length_pos (hsize ▸ m.size_pos)
  have hlexeme := spells_iff_lexeme.mp (h.spells_text hs)
  refine ⟨?_, hstart ▸ isValid_of_append hsource, ?_, hlexeme, ?_, ?_⟩
  · have := byteLength_pos hne
    omega
  · rw [← List.append_assoc] at hsource
    exact hstop ▸ isValid_of_append hsource
  · intro front t behind' token hsource' hfront ht
    obtain ⟨-, hrest⟩ := append_inj_of_byteLength (hsource'.symm.trans hsource)
      (hfront.trans hstart)
    obtain ⟨u, rfl⟩ := prefix_of_lexeme hm hsize ht ⟨behind', hrest⟩
    rw [hlen, byteLength_append]
    exact Nat.le_add_right _ _
  · rw [htext, String.toList_ofList] at hlexeme
    rw [htext, hlen]
    exact tokenize_eq_iff_lexeme.mpr hlexeme

/-- What is read to the end of a source tiles it. -/
theorem tile (hback : back = []) : Tile source ts := by
  subst hback
  refine ⟨fun s hs ↦ h.munches hs, h.apart.2, fun front c back hsource hout ↦ ?_, ?_⟩
  · obtain ⟨all, hall, hpos⟩ := h.exists_front
    have := c.utf8Size_pos
    rw [List.append_nil, hsource] at hall
    refine h.isSpace_of_outside hsource ?_ (by simpa using hout)
    rw [hpos, ← hall, byteLength_append, byteLength_cons]
    omega
  · intro lead gaps hlead hgaps hlength hne
    exact lexFrom_respace (fun s hs ↦ h.spells_text hs) hlead hgaps hlength hne 0

end Reads

/-- Where the span of a token lies behind a cut, and that it is munched there. -/
theorem Spanned.Munches.exists_munch (hs : s.Munches source) {front rest : List Char}
    (hsource : source.toList = front ++ rest) (hstart : byteLength front ≤ s.start) :
    ∃ gap text behind m, rest = gap ++ (text ++ behind) ∧ s.start = byteLength (front ++ gap) ∧
      s.stop = byteLength (front ++ gap ++ text) ∧
      munch? (text ++ behind) = some m ∧ m.size = text.length ∧ m.token = s.token := by
  obtain ⟨⟨before, _⟩, hcut⟩ :=
    Option.isSome_iff_exists.mp (isSome_cutAt?_iff.mpr hs.start_isValid)
  obtain ⟨⟨before', behind⟩, hcut'⟩ :=
    Option.isSome_iff_exists.mp (isSome_cutAt?_iff.mpr hs.stop_isValid)
  obtain ⟨hbefore, hlen⟩ := cutAt?_eq_some_iff.mp hcut
  obtain ⟨hbefore', hlen'⟩ := cutAt?_eq_some_iff.mp hcut'
  obtain ⟨gap, rfl, hrest⟩ := cut_le (hsource.symm.trans hbefore) (hlen.symm ▸ hstart)
  obtain ⟨text, rfl, rfl⟩ := cut_le (hbefore.symm.trans hbefore')
    (by rw [hlen, hlen']; exact hs.nonempty.le)
  have hlexeme := hs.lexeme
  rw [text_eq hbefore hlen.symm hlen'.symm, String.toList_ofList] at hlexeme
  obtain ⟨m, hm, hsize, htoken⟩ := exists_munch_of_longest hlexeme fun t u token htu ht ↦ by
    have hle := hs.longest (front ++ gap) t u token (by rw [hbefore, htu]) hlen ht
    rwa [← hlen, ← hlen', byteLength_append (front ++ gap), Nat.add_sub_cancel_left] at hle
  exact ⟨gap, text, behind, m, hrest, hlen.symm, hlen'.symm, hm, hsize, htoken⟩

/-- What tiles the part of a source behind a cut is read there. -/
theorem exists_reads_of_munches {front rest : List Char} (hsource : source.toList = front ++ rest)
    (hstart : ∀ s ∈ ts, byteLength front ≤ s.start) (hmunches : ∀ s ∈ ts, s.Munches source)
    (hapart : ts.Pairwise fun s t ↦ s.stop ≤ t.start)
    (hblank : ∀ before c back, rest = before ++ c :: back →
      (∀ s ∈ ts, byteLength (front ++ before) < s.start ∨ s.stop ≤ byteLength (front ++ before)) →
      isSpace c = true) : ∃ pos', Reads (byteLength front) rest ts pos' [] := by
  induction ts generalizing front rest with
  | nil =>
    have hrest : Blank rest := by
      intro c hc
      obtain ⟨before, back, hcut⟩ := List.append_of_mem hc
      exact hblank before c back hcut nofun
    have hread : Reads (byteLength front) (rest ++ []) [] _ [] := .gap hrest
    exact ⟨_, by rwa [List.append_nil] at hread⟩
  | cons s ts ih =>
    obtain ⟨hfirst, hapart⟩ := List.pairwise_cons.mp hapart
    have hs := hmunches s List.mem_cons_self
    obtain ⟨gap, text, behind, m, rfl, hgapstart, hstop, hm, hsize, htoken⟩ :=
      hs.exists_munch hsource (hstart s List.mem_cons_self)
    have hgap : Blank gap := by
      intro c hc
      obtain ⟨u, v, rfl⟩ := List.append_of_mem hc
      have hinside : byteLength (front ++ u) < s.start := by
        have := c.utf8Size_pos
        rw [hgapstart]
        simp only [byteLength_append, byteLength_cons]
        omega
      refine hblank u c (v ++ (text ++ behind)) (by simp) fun t ht ↦ .inl ?_
      rcases List.mem_cons.mp ht with rfl | ht
      · exact hinside
      · exact hinside.trans (hs.nonempty.trans_le (hfirst t ht))
    obtain ⟨pos', hread⟩ : ∃ pos', Reads (byteLength (front ++ gap ++ text)) behind ts pos' [] := by
      refine ih (by simp [hsource]) (fun t ht ↦ hstop ▸ hfirst t ht)
        (fun t ht ↦ hmunches t (List.mem_cons_of_mem s ht)) hapart fun u c back hu hout ↦ ?_
      refine hblank (gap ++ text ++ u) c back (by simp [hu]) fun t ht ↦ ?_
      rw [← List.append_assoc, ← List.append_assoc]
      rcases List.mem_cons.mp ht with rfl | ht
      · rw [byteLength_append, hstop]
        exact .inr (Nat.le_add_right _ _)
      · exact hout t ht
    rw [List.append_assoc, byteLength_append] at hread hstop
    rw [byteLength_append] at hgapstart
    have hspan : ⟨m.token, byteLength front + byteLength gap,
        byteLength front + byteLength (gap ++ text)⟩ = s := by
      rw [htoken, ← hgapstart, ← hstop]
    exact ⟨pos', hspan ▸ .token hgap hm hsize hread⟩

/-- The tokens that tile a source are those that are read. -/
theorem Tile.tokenize_eq (h : Tile source ts) : tokenize source = .ok ts := by
  have hsource : source.toList = [] ++ source.toList := rfl
  obtain ⟨pos', hread⟩ := exists_reads_of_munches hsource (fun s _ ↦ Nat.zero_le s.start)
    h.munches h.apart h.blank
  exact hread.lexFrom_eq

/-- Where reading a source stops: all in front of the place is read to tokens, and from the place on
no text is written as a token. -/
structure Stop (source : String) (e : LexError) (ts : List Spanned) (front back : List Char) :
    Prop where
  source_eq : source.toList = front ++ back
  position_eq : e.position = byteLength front
  found_eq : e.found = String.ofList (back.take 12)
  read : tokenize (String.ofList front) = .ok ts
  munches : ∀ s ∈ ts, s.Munches source
  head : ∃ c r, back = c :: r ∧ isSpace c = false
  stuck : ∀ text (token : Token), text <+: back → ¬token.Lexeme text

/-- A source has the tokens whose spans tile it: each is written as its token and is the longest
text from its start that is written as one, and it is that token alone; they lie one behind another,
with nothing but blanks outside of them; and whatever blanks are put between their texts, these have
the same tokens.  Where a source has no tokens, the reported place is the end of a part that has, and
the first character at which no token starts. -/
theorem tokenize_tiles (source : String) :
    (∀ ts, tokenize source = .ok ts ↔ Tile source ts) ∧
    ∀ e, tokenize source = .error e → ∃ ts front back, Stop source e ts front back := by
  refine ⟨fun ts ↦ ⟨fun h ↦ ?_, Tile.tokenize_eq⟩, fun e h ↦ ?_⟩
  all_goals rcases exists_reads 0 source.toList with
    ⟨ts', pos', hread, hok⟩ | ⟨ts', pos', c, r, hread, hc, hm, herr⟩
  · cases hok.symm.trans h
    exact hread.tile rfl
  · cases herr.symm.trans h
  · cases hok.symm.trans h
  · cases herr.symm.trans h
    obtain ⟨front, hsource, hfront⟩ := hread.cut
    obtain ⟨front', hfront', hpos⟩ := hfront.exists_front
    rw [List.append_nil] at hfront'
    subst hfront'
    exact ⟨ts', front, c :: r, hsource, by rw [hpos, Nat.zero_add], rfl,
      (tokenize_ofList front).trans hfront.lexFrom_eq, fun s hs ↦ hread.munches hs,
      ⟨c, r, rfl, hc⟩, fun text token hp ↦ not_lexeme_of_stuck hm hp⟩

/-- The signs of `a===b` are one operator, and a quote that nothing closes is where `x+ 'o` is read
no further. -/
theorem longest_operator_tiles :
    Tile "a===b" [⟨.identifier "a", 0, 1⟩, ⟨.operator .strictEqual, 1, 4⟩,
      ⟨.identifier "b", 4, 5⟩] ∧
    ∃ back, Stop "x+ 'o" ⟨"'o", 3⟩ [⟨.identifier "x", 0, 1⟩, ⟨.operator .plus, 1, 2⟩]
      ['x', '+', ' '] back := by
  constructor
  · exact ((tokenize_tiles "a===b").1 _).mp (by decide +kernel)
  · obtain ⟨ts, front, back, hstop⟩ := (tokenize_tiles "x+ 'o").2 ⟨"'o", 3⟩ (by decide +kernel)
    have hfront : tokenize (String.ofList ['x', '+', ' ']) =
      .ok [⟨.identifier "x", 0, 1⟩, ⟨.operator .plus, 1, 2⟩] := by decide +kernel
    have hsource : ['x', '+', ' '] ++ ['\'', 'o'] = front ++ back := hstop.source_eq
    obtain ⟨rfl, -⟩ := append_inj_of_byteLength hsource hstop.position_eq
    cases hstop.read.symm.trans hfront
    exact ⟨back, hstop⟩

end LivePage
