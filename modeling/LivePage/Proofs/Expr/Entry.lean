import LivePage.Proofs.Expr.Cut
import LivePage.Proofs.Expr.Viable

/-!
# Shorthand entries among tokens

An entry of an object may be a name alone, which is short for the name with a colon and itself
behind it.  Where such an entry stands is told by the brackets that are open in front of it and the
tokens on both sides of it, since a phrase closes all brackets that it opens.  So it can be written
in full wherever it stands in a source, and it is found again in one of the parts of a phrase.
-/

namespace LivePage

/-- The brackets that are open behind a token, the innermost first. -/
def Token.nest (stack : List Delimiter) : Token → List Delimiter
  | .delimiter .openParen => .openParen :: stack
  | .delimiter .openBracket => .openBracket :: stack
  | .delimiter .openBrace => .openBrace :: stack
  | .delimiter .closeParen | .delimiter .closeBracket | .delimiter .closeBrace => stack.tail
  | _ => stack

/-- A name between some tokens is an entry of an object by itself: the innermost bracket that is
open in front is a brace, the last token in front is this brace or a comma, and no colon follows.
Objects have all their shorthand entries at such places (`isShorthand_of_derives`). -/
structure IsShorthand (before after : List Token) : Prop where
  inside : (before.foldl Token.nest []).head? = some .openBrace
  leads : ∃ t, before.getLast? = some t ∧ t.precedesKey = true
  alone : after.head? ≠ some (.delimiter .colon)

/-- `Expands k stack lead ts us` says that `us` are the tokens `ts` with a colon and the name again
behind one shorthand entry `k`.  In front of `ts` the brackets of `stack` are open, and `lead` says
whether the last token there is one that can stand in front of a key. -/
inductive Expands (k : String) : List Delimiter → Bool → List Token → List Token → Prop where
  | here {stack : List Delimiter} {r : List Token} (hr : r.head? ≠ some (.delimiter .colon)) :
      Expands k (.openBrace :: stack) true (.identifier k :: r)
        (.identifier k :: .delimiter .colon :: .identifier k :: r)
  | there {stack : List Delimiter} {lead : Bool} {t : Token} {r r' : List Token}
      (h : Expands k (t.nest stack) t.precedesKey r r') : Expands k stack lead (t :: r) (t :: r')

/-- No key can be next. -/
def NoKeyNext (stack : List Delimiter) (lead : Bool) : Prop :=
  lead = true → stack.head? ≠ some .openBrace

variable {k : String} {n : Nat} {stack : List Delimiter} {lead : Bool} {t : Token}
  {ts us vs before after : List Token}

/-! ## The place of an entry -/

theorem expands_of_leads (hs : (before.foldl Token.nest stack).head? = some .openBrace)
    (hnil : before = [] → lead = true) (hlast : ∀ t ∈ before.getLast?, t.precedesKey = true)
    (ha : after.head? ≠ some (.delimiter .colon)) :
    Expands k stack lead (before ++ .identifier k :: after)
      (before ++ .identifier k :: .delimiter .colon :: .identifier k :: after) := by
  induction before generalizing stack lead with
  | nil =>
    obtain ⟨stack, rfl⟩ := List.head?_eq_some_iff.mp hs
    obtain rfl := hnil rfl
    exact .here ha
  | cons t before ih =>
    refine .there (ih hs ?_ fun u hu ↦ hlast u ?_)
    · rintro rfl
      exact hlast t rfl
    · rw [List.getLast?_cons]
      simp_all

theorem IsShorthand.expands (h : IsShorthand before after) (k : String) :
    Expands k [] false (before ++ .identifier k :: after)
      (before ++ .identifier k :: .delimiter .colon :: .identifier k :: after) := by
  obtain ⟨t, ht, hk⟩ := h.leads
  refine expands_of_leads h.inside ?_ (fun u hu ↦ ?_) h.alone
  · rintro rfl
    cases ht
  · obtain rfl := Option.some.inj (ht.symm.trans hu)
    exact hk

theorem Token.operator_ne_identifier {o : Operator} : Token.operator o ≠ .identifier k := nofun

theorem Token.delimiter_ne_identifier {d : Delimiter} : Token.delimiter d ≠ .identifier k := nofun

namespace Expands

open Token

theorem ne_nil (h : Expands k stack lead ts us) : ts ≠ [] := by
  cases h <;> nofun

/-- A token that is no shorthand entry stays. -/
theorem tail (h : Expands k stack lead (t :: ts) vs)
    (ht : t ≠ .identifier k ∨ NoKeyNext stack lead) :
    ∃ us, Expands k (t.nest stack) t.precedesKey ts us ∧ vs = t :: us := by
  cases h with
  | here =>
    rcases ht with ht | hn
    · exact absurd rfl ht
    · exact absurd rfl (hn rfl)
  | there h => exact ⟨_, h, rfl⟩

theorem append (h : Expands k stack lead (ts ++ us) vs) :
    (∃ ts', Expands k stack lead ts ts' ∧ vs = ts' ++ us) ∨
      ∃ lead' us', Expands k (ts.foldl Token.nest stack) lead' us us' ∧ vs = ts ++ us' := by
  induction ts generalizing stack lead vs with
  | nil => exact .inr ⟨lead, vs, h, rfl⟩
  | cons t ts ih =>
    cases h with
    | here hr =>
      refine .inl ⟨_, .here ?_, rfl⟩
      cases ts with
      | nil => nofun
      | cons => exact hr
    | there h =>
      rcases ih h with ⟨ts', hx, rfl⟩ | ⟨lead', us', hx, rfl⟩
      · exact .inl ⟨t :: ts', .there hx, rfl⟩
      · exact .inr ⟨lead', us', hx, rfl⟩

/-- The entry is on one side of a token that is another one. -/
theorem split (h : Expands k stack lead (ts ++ t :: us) vs) (ht : t ≠ .identifier k)
    (hts : ts.foldl Token.nest stack = stack) :
    (∃ ts', Expands k stack lead ts ts' ∧ vs = ts' ++ t :: us) ∨
      ∃ us', Expands k (t.nest stack) t.precedesKey us us' ∧ vs = ts ++ t :: us' := by
  rcases h.append with hx | ⟨_, us', hx, rfl⟩
  · exact .inl hx
  · obtain ⟨us', hx', rfl⟩ := hx.tail (.inl ht)
    rw [hts] at hx'
    exact .inr ⟨us', hx', rfl⟩

/-- The entry is in front of a last token that is another one. -/
theorem init (h : Expands k stack lead (ts ++ [t]) vs) (ht : t ≠ .identifier k) :
    ∃ ts', Expands k stack lead ts ts' ∧ vs = ts' ++ [t] := by
  rcases h.append with hx | ⟨_, us', hx, rfl⟩
  · exact hx
  · obtain ⟨_, hx', rfl⟩ := hx.tail (.inl ht)
    exact absurd rfl hx'.ne_nil

/-- The entry is on one side of the bracket of a link, which may be optional. -/
theorem split_opening {optional : Bool} {d : Delimiter}
    (h : Expands k stack lead (ts ++ (Expr.opening optional d ++ us)) vs)
    (hts : ts.foldl Token.nest stack = stack) :
    (∃ ts', Expands k stack lead ts ts' ∧ vs = ts' ++ (Expr.opening optional d ++ us)) ∨
      ∃ us', Expands k ((Token.delimiter d).nest stack) (Token.delimiter d).precedesKey us us' ∧
        vs = ts ++ (Expr.opening optional d ++ us') := by
  cases optional with
  | false => exact h.split delimiter_ne_identifier hts
  | true =>
    rcases h.split (t := .operator .optionalDot) operator_ne_identifier hts with h | ⟨us', hx, rfl⟩
    · exact .inl h
    · obtain ⟨us', hy, rfl⟩ := hx.tail (.inl delimiter_ne_identifier)
      exact .inr ⟨us', hy, rfl⟩

end Expands

/-! ## Brackets and nesting of derivations -/

namespace Derives

variable {p : Phrase}

/-- What is open in front of the tokens of a phrase is open behind them. -/
theorem foldl_nest (h : Derives n p ts) (stack : List Delimiter) :
    ts.foldl Token.nest stack = stack := by
  induction h generalizing stack with
  | plain _ ih | single _ ih | bare _ ih | start _ ih | lastItem _ ih | lastEntry _ ih =>
    exact ih stack
  | full hk _ ih =>
    cases hk <;> exact ih stack
  | shorthand hk => cases hk <;> rfl
  | _ => simp_all [Token.nest]

/-- What is derived is derived inside of one expression more. -/
theorem succ (h : Derives n p ts) : Derives (n + 1) p ts := by
  induction h with
  | plain _ ih => exact .plain ih
  | conditional _ _ _ iht ihc iha => exact .conditional iht ihc iha
  | single _ ih => exact .single ih
  | binary op _ _ ihl ihr => exact .binary op ihl ihr
  | logical op _ _ ihl ihr => exact .logical op ihl ihr
  | bare _ ih => exact .bare ih
  | unary op _ ih => exact .unary op ih
  | start _ ih => exact .start ih
  | member name _ ih => exact .member name ih
  | optionalMember name _ ih => exact .optionalMember name ih
  | index _ _ ih ihp => exact .index ih ihp
  | optionalIndex _ _ ih ihp => exact .optionalIndex ih ihp
  | call _ _ ih iha => exact .call ih iha
  | optionalCall _ _ ih iha => exact .optionalCall ih iha
  | number x => exact .number x
  | string s => exact .string s
  | yes => exact .yes
  | no => exact .no
  | null => exact .null
  | undefined => exact .undefined
  | name h => exact .name h
  | group _ ih => exact .group ih
  | array _ ih => exact .array ih
  | object _ ih => exact .object ih
  | noItems => exact .noItems
  | lastItem _ ih => exact .lastItem ih
  | moreItems _ _ ih ihs => exact .moreItems ih ihs
  | full hk _ ih => exact .full hk ih
  | shorthand hk => exact .shorthand hk
  | noEntries => exact .noEntries
  | lastEntry _ ih => exact .lastEntry ih
  | moreEntries _ _ ih ihs => exact .moreEntries ih ihs

end Derives

/-- Behind the brace of an object, and the comma behind some of its entries, a name is an entry by
itself if no colon follows, whatever is in front of the object. -/
theorem isShorthand_of_derives (outer : List Token)
    (h : ts = [] ∨ ∃ n es us, ts = us ++ [.delimiter .comma] ∧ Derives n (.entries es) us)
    (ha : after.head? ≠ some (.delimiter .colon)) :
    IsShorthand (outer ++ .delimiter .openBrace :: ts) after where
  inside := by
    rcases h with rfl | ⟨_, _, us, rfl, d⟩
    · simp [Token.nest]
    · simp [d.foldl_nest, Token.nest]
  leads := by
    rcases h with rfl | ⟨_, _, us, rfl, -⟩
    · exact ⟨_, List.getLast?_concat, rfl⟩
    · refine ⟨.delimiter .comma, ?_, rfl⟩
      rw [← List.cons_append, ← List.append_assoc]
      exact List.getLast?_concat
  alone := ha

/-! ## Sources with an entry written in full -/

/-- `source'` is `source` with `k: k` in place of one shorthand entry `k`, blanks apart. -/
def WritesOut (k source source' : String) : Prop :=
  ∃ before after, IsShorthand before after ∧ HasTokens source (before ++ .identifier k :: after) ∧
    HasTokens source' (before ++ .identifier k :: .delimiter .colon :: .identifier k :: after)

/-- Each shorthand entry of a source can be written in full, at the place where it stands. -/
theorem IsShorthand.exists_writesOut {source : String} (h : IsShorthand before after)
    (ht : HasTokens source (before ++ .identifier k :: after)) :
    ∃ front back, source = front ++ k ++ back ∧
      WritesOut k source (front ++ k ++ " : " ++ k ++ back) := by
  have hchars := ht
  rw [← String.ofList_toList (s := source)] at hchars
  obtain ⟨front, text, back, hsource, hspells, hu, hv⟩ := hchars.split
  obtain rfl := hspells.eq_toList
  have colon : HasTokens (String.ofList [':']) [.delimiter .colon] := by decide +kernel
  -- both parts keep the name, so that it is there on both sides of the colon
  have full := hu.append (colon.append hv)
  refine ⟨String.ofList front, String.ofList back, ?_, before, after, h, ht, ?_⟩
  · apply String.toList_inj.mp
    simp [hsource]
  · convert full using 1
    · apply String.toList_inj.mp
      simp
    · simp

end LivePage
