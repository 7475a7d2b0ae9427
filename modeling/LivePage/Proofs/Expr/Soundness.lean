import LivePage.Proofs.Expr.Grammar
import LivePage.Proofs.Outcome
import Mathlib.Tactic.SplitIfs

/-!
# What is read is derived

Whatever the reading functions take from a sequence of tokens is derived from the phrase that they
read, within the limits.  The functions call one another with less fuel, so all of them are shown
sound together, by induction on the fuel: one lemma for each function, from the soundness of all of
them with less fuel.
-/

namespace LivePage

variable {limits : Limits} {fuel depth inner : Nat} {ts us vs r : List Token} {p q s : Phrase}

/-- Inside of one more phrase, one level of nesting fewer is left. -/
theorem Limits.nesting_sub_depth (h : depth < limits.nesting) :
    limits.nesting - depth = limits.nesting - (depth + 1) + 1 := by
  omega

/-- Behind tokens that are derived from a phrase inside of `depth` others, `ts` goes on with `r`. -/
def Spells (limits : Limits) (depth : Nat) (p : Phrase) (ts r : List Token) : Prop :=
  ∃ us, ts = us ++ r ∧ Derives (limits.nesting - depth) p us ∧ p.height ≤ limits.height

namespace Spells

theorem height_le (h : Spells limits depth p ts r) : p.height ≤ limits.height := by
  obtain ⟨-, -, -, h⟩ := h
  exact h

/-- Reads a phrase as another one. -/
theorem map (h : Spells limits inner p ts r)
    (rule : ∀ us, Derives (limits.nesting - inner) p us → Derives (limits.nesting - depth) q us)
    (hh : q.height ≤ limits.height) : Spells limits depth q ts r := by
  obtain ⟨us, rfl, h, -⟩ := h
  exact ⟨us, rfl, rule us h, hh⟩

/-- Reads a phrase between some tokens. -/
theorem enclose (before behind : List Token) (h : Spells limits inner p ts (behind ++ r))
    (rule : ∀ us, Derives (limits.nesting - inner) p us →
      Derives (limits.nesting - depth) q (before ++ (us ++ behind)))
    (hh : q.height ≤ limits.height) : Spells limits depth q (before ++ ts) r := by
  obtain ⟨us, rfl, h, -⟩ := h
  exact ⟨before ++ (us ++ behind), by simp, rule us h, hh⟩

/-- Reads two phrases, with tokens between and behind them. -/
theorem append (between behind : List Token) (hp : Spells limits inner p ts (between ++ us))
    (hq : Spells limits inner q us (behind ++ r))
    (rule : ∀ ts us, Derives (limits.nesting - inner) p ts →
      Derives (limits.nesting - inner) q us →
      Derives (limits.nesting - depth) s (ts ++ (between ++ (us ++ behind))))
    (hh : s.height ≤ limits.height) : Spells limits depth s ts r := by
  obtain ⟨ts, rfl, hp, -⟩ := hp
  obtain ⟨us, rfl, hq, -⟩ := hq
  exact ⟨ts ++ (between ++ (us ++ behind)), by simp, rule ts us hp hq, hh⟩

/-- A chain goes on behind an operator of its level. -/
theorem join {level : Level} {o : Operator} {join : Expr → Expr → Expr} {left right : Expr}
    (ho : level.join? o = some join)
    (hl : Spells limits depth (.chain level left) ts (.operator o :: us))
    (hr : Spells limits depth (.operand right level) us r)
    (hh : (join left right).height ≤ limits.height) :
    Spells limits depth (.chain level (join left right)) ts r := by
  refine append [.operator o] [] hl hr (fun ts us dl dr ↦ ?_) hh
  rw [List.append_nil]
  exact dl.join ho dr

theorem conditional {test consequent alternate : Expr} (hd : depth < limits.nesting)
    (ht : Spells limits (depth + 1) (.chain .nullish test) ts (.operator .question :: us))
    (hc : Spells limits (depth + 1) (.expression consequent) us (.delimiter .colon :: vs))
    (ha : Spells limits (depth + 1) (.expression alternate) vs r)
    (hh : (Expr.conditional test consequent alternate).height ≤ limits.height) :
    Spells limits depth (.expression (.conditional test consequent alternate)) ts r := by
  obtain ⟨ts, rfl, dt, -⟩ := ht
  obtain ⟨us, rfl, dc, -⟩ := hc
  obtain ⟨vs, rfl, da, -⟩ := ha
  refine ⟨ts ++ .operator .question :: (us ++ .delimiter .colon :: vs), by simp, ?_, hh⟩
  exact Limits.nesting_sub_depth hd ▸ .conditional dt dc da

end Spells

/-! ## Single tokens -/

namespace Expr

@[simp] theorem take_eq_ok_iff {d : Delimiter} {u : Unit} :
    take d ts = .ok (u, r) ↔ ts = .delimiter d :: r := by
  constructor
  · intro h
    revert h
    fun_cases take d ts
    · rintro ⟨⟩
      rfl
    all_goals rintro ⟨⟩
  · rintro rfl
    simp [take]

@[simp] theorem propertyName_eq_ok_iff {name : String} :
    propertyName ts = .ok (name, r) ↔ ts = .identifier name :: r := by
  constructor
  · intro h
    revert h
    fun_cases propertyName ts <;> rintro ⟨⟩
    rfl
  · rintro rfl
    rfl

@[simp] theorem bounded_eq_ok_iff {e e' : Expr} :
    bounded limits e ts = .ok (e', r) ↔ e' = e ∧ r = ts ∧ e.height ≤ limits.height := by
  unfold bounded
  split
  · next h => exact ⟨by rintro ⟨⟩; exact ⟨rfl, rfl, h⟩, by rintro ⟨rfl, rfl, -⟩; rfl⟩
  · next h => exact ⟨nofun, fun ⟨_, _, h'⟩ ↦ absurd h' h⟩

theorem separated_eq_ok {α : Type} {closing : Delimiter} {x : α} {xs : List α}
    {more : List Token → Except Reject (List α × List Token)}
    (h : separated closing more x ts = .ok (xs, r)) :
    (∃ us ys, ts = .delimiter .comma :: us ∧ more us = .ok (ys, r) ∧ xs = x :: ys) ∨
      ts = .delimiter closing :: r ∧ xs = [x] := by
  unfold separated at h
  split at h
  · simp only [bind_eq_ok_iff, Prod.exists] at h
    obtain ⟨ys, _, hs, ⟨⟩⟩ := h
    exact .inl ⟨_, ys, rfl, hs, rfl⟩
  · simp only [bind_eq_ok_iff, Prod.exists, take_eq_ok_iff] at h
    obtain ⟨-, _, rfl, ⟨⟩⟩ := h
    exact .inr ⟨rfl, rfl⟩

/-! ## One step of every function -/

variable (limits) in
/-- What the reading functions take with some fuel is derived. -/
structure Sound (fuel : Nat) : Prop where
  expression {depth : Nat} {ts r : List Token} {e : Expr} :
    expression limits fuel depth ts = .ok (e, r) → Spells limits depth (.expression e) ts r
  chain {depth : Nat} {level : Level} {ts r : List Token} {e : Expr} :
    chain limits fuel depth level ts = .ok (e, r) → Spells limits depth (.chain level e) ts r
  operand {depth : Nat} {level : Level} {ts r : List Token} {e : Expr} :
    operand limits fuel depth level ts = .ok (e, r) → Spells limits depth (.operand e level) ts r
  chainRest {depth : Nat} {level : Level} {left e : Expr} {ts us r : List Token} :
    chainRest limits fuel depth level left us = .ok (e, r) →
      Spells limits depth (.chain level left) ts us → Spells limits depth (.chain level e) ts r
  prefixed {depth : Nat} {ts r : List Token} {e : Expr} :
    prefixed limits fuel depth ts = .ok (e, r) → Spells limits depth (.prefixed e) ts r
  linked {depth : Nat} {ts r : List Token} {e : Expr} :
    linked limits fuel depth ts = .ok (e, r) → Spells limits depth (.linked e) ts r
  links {depth : Nat} {target e : Expr} {ts us r : List Token} :
    links limits fuel depth target us = .ok (e, r) →
      Spells limits depth (.linked target) ts us → Spells limits depth (.linked e) ts r
  primary {depth : Nat} {ts r : List Token} {e : Expr} :
    primary limits fuel depth ts = .ok (e, r) → Spells limits depth (.primary e) ts r
  items {depth : Nat} {closing : Delimiter} {ts r : List Token} {es : List Expr} :
    items limits fuel depth closing ts = .ok (es, r) →
      Spells limits depth (.items es) ts (.delimiter closing :: r)
  entries {depth : Nat} {before : Token} {ts r : List Token} {ms : List (String × Expr)} :
    entries limits fuel depth before ts = .ok (ms, r) →
      Spells limits depth (.entries ms) ts (.delimiter .closeBrace :: r)

variable {e left target : Expr} {level : Level}

theorem sound_expression (ih : Sound limits fuel)
    (h : expression limits (fuel + 1) depth ts = .ok (e, r)) :
    Spells limits depth (.expression e) ts r := by
  simp only [expression] at h
  split at h
  · cases h
  · next hd =>
    have hd : depth < limits.nesting := by omega
    simp only [bind_eq_ok_iff, Prod.exists] at h
    obtain ⟨test, us, ht, h⟩ := h
    have ht := ih.chain ht
    split at h
    · simp only [bind_eq_ok_iff, Prod.exists, take_eq_ok_iff, bounded_eq_ok_iff] at h
      obtain ⟨consequent, _, hc, -, vs, rfl, alternate, _, ha, rfl, rfl, hh⟩ := h
      exact .conditional hd ht (ih.expression hc) (ih.expression ha) hh
    · cases h
      exact ht.map (fun _ d ↦ Limits.nesting_sub_depth hd ▸ .plain d) ht.height_le

theorem sound_chain (ih : Sound limits fuel)
    (h : chain limits (fuel + 1) depth level ts = .ok (e, r)) :
    Spells limits depth (.chain level e) ts r := by
  simp only [chain, bind_eq_ok_iff, Prod.exists] at h
  obtain ⟨left, us, hl, h⟩ := h
  have hl := ih.operand hl
  have hh : left.height ≤ limits.height := by simpa using hl.height_le
  exact ih.chainRest h (hl.map (fun _ ↦ .single) hh)

theorem sound_operand (ih : Sound limits fuel)
    (h : operand limits (fuel + 1) depth level ts = .ok (e, r)) :
    Spells limits depth (.operand e level) ts r := by
  rw [operand] at h
  cases level with
  | multiplicative => exact ih.prefixed h
  | nullish | or | and | equality | relational | additive => exact ih.chain h

theorem sound_chainRest (ih : Sound limits fuel)
    (h : chainRest limits (fuel + 1) depth level left us = .ok (e, r))
    (hl : Spells limits depth (.chain level left) ts us) :
    Spells limits depth (.chain level e) ts r := by
  unfold chainRest at h
  split at h
  · next o us =>
    split at h
    · next join ho =>
      simp only [bind_eq_ok_iff, Prod.exists, bounded_eq_ok_iff] at h
      obtain ⟨right, vs, hr, _, _, ⟨rfl, rfl, hh⟩, h⟩ := h
      exact ih.chainRest h (.join ho hl (ih.operand hr) hh)
    · cases h
      exact hl
  · cases h
    exact hl

theorem sound_prefixed (ih : Sound limits fuel)
    (h : prefixed limits (fuel + 1) depth ts = .ok (e, r)) :
    Spells limits depth (.prefixed e) ts r := by
  have bare {ts : List Token} (h : linked limits fuel depth ts = .ok (e, r)) :
      Spells limits depth (.prefixed e) ts r :=
    (ih.linked h).map (fun _ ↦ .bare) (ih.linked h).height_le
  unfold prefixed at h
  split at h
  · next o us =>
    split at h
    · next op ho =>
      split at h
      · cases h
      · next hd =>
        have hd : depth < limits.nesting := by omega
        simp only [bind_eq_ok_iff, Prod.exists, bounded_eq_ok_iff] at h
        obtain ⟨e, vs, he, rfl, rfl, hh⟩ := h
        rw [UnaryOp.operator_of_ofOperator? ho]
        refine .enclose [.operator op.operator] [] (ih.prefixed he) (fun us d ↦ ?_) hh
        rw [List.append_nil, Limits.nesting_sub_depth hd]
        exact .unary op d
    · exact bare h
  · exact bare h

theorem sound_linked (ih : Sound limits fuel)
    (h : linked limits (fuel + 1) depth ts = .ok (e, r)) :
    Spells limits depth (.linked e) ts r := by
  simp only [linked, bind_eq_ok_iff, Prod.exists] at h
  obtain ⟨e, us, he, h⟩ := h
  have he := ih.primary he
  exact ih.links h (he.map (fun _ ↦ .start) he.height_le)

theorem sound_links (ih : Sound limits fuel)
    (h : links limits (fuel + 1) depth target us = .ok (e, r))
    (ht : Spells limits depth (.linked target) ts us) : Spells limits depth (.linked e) ts r := by
  unfold links at h
  split at h
  · simp only [bind_eq_ok_iff, Prod.exists, propertyName_eq_ok_iff, bounded_eq_ok_iff] at h
    obtain ⟨name, _, rfl, _, _, ⟨rfl, rfl, hh⟩, h⟩ := h
    exact ih.links h (.enclose [] [.operator .dot, .identifier name] ht (fun _ ↦ .member name) hh)
  · simp only [bind_eq_ok_iff, Prod.exists, take_eq_ok_iff, bounded_eq_ok_iff] at h
    obtain ⟨position, _, hp, _, _, rfl, _, _, ⟨rfl, rfl, hh⟩, h⟩ := h
    exact ih.links h (.append [.operator .optionalDot, .delimiter .openBracket]
      [.delimiter .closeBracket] ht (ih.expression hp) (fun _ _ ↦ .optionalIndex) hh)
  · simp only [bind_eq_ok_iff, Prod.exists, bounded_eq_ok_iff] at h
    obtain ⟨arguments, _, ha, _, _, ⟨rfl, rfl, hh⟩, h⟩ := h
    exact ih.links h (.append [.operator .optionalDot, .delimiter .openParen]
      [.delimiter .closeParen] ht (ih.items ha) (fun _ _ ↦ .optionalCall) hh)
  · simp only [bind_eq_ok_iff, Prod.exists, propertyName_eq_ok_iff, bounded_eq_ok_iff] at h
    obtain ⟨name, _, rfl, _, _, ⟨rfl, rfl, hh⟩, h⟩ := h
    exact ih.links h
      (.enclose [] [.operator .optionalDot, .identifier name] ht (fun _ ↦ .optionalMember name) hh)
  · simp only [bind_eq_ok_iff, Prod.exists, take_eq_ok_iff, bounded_eq_ok_iff] at h
    obtain ⟨position, _, hp, _, _, rfl, _, _, ⟨rfl, rfl, hh⟩, h⟩ := h
    exact ih.links h (.append [.delimiter .openBracket] [.delimiter .closeBracket] ht
      (ih.expression hp) (fun _ _ ↦ .index) hh)
  · simp only [bind_eq_ok_iff, Prod.exists, bounded_eq_ok_iff] at h
    obtain ⟨arguments, _, ha, _, _, ⟨rfl, rfl, hh⟩, h⟩ := h
    exact ih.links h (.append [.delimiter .openParen] [.delimiter .closeParen] ht
      (ih.items ha) (fun _ _ ↦ .call) hh)
  · cases h
    exact ht

/-- A name alone is a literal or looked up. -/
theorem derives_ofName (n : Nat) (k : String) :
    Derives n (.primary (ofName k)) [.identifier k] := by
  unfold ofName
  split_ifs with ht hf hn
  · exact ht ▸ .yes
  · exact hf ▸ .no
  · rcases hn with rfl | rfl
    · exact .null
    · exact .undefined
  · exact .name (by simp_all)

theorem height_ofName (k : String) : (ofName k).height = 1 := by
  unfold ofName
  split_ifs <;> rfl

theorem sound_primary (hl : 0 < limits.height) (ih : Sound limits fuel)
    (h : primary limits (fuel + 1) depth ts = .ok (e, r)) :
    Spells limits depth (.primary e) ts r := by
  unfold primary at h
  split at h
  · cases h
  · cases h
  · next hf =>
    cases hf
    split at h
    · cases h
      exact ⟨_, rfl, .number _, hl⟩
    · cases h
      exact ⟨_, rfl, .string _, hl⟩
    · cases h
      exact ⟨_, rfl, derives_ofName _ _, Nat.le_trans (Nat.le_of_eq (height_ofName _)) hl⟩
    · simp only [bind_eq_ok_iff, Prod.exists, take_eq_ok_iff] at h
      obtain ⟨e, _, he, -, _, rfl, ⟨⟩⟩ := h
      have he := ih.expression he
      exact .enclose [.delimiter .openParen] [.delimiter .closeParen] he (fun _ ↦ .group)
        he.height_le
    · simp only [bind_eq_ok_iff, Prod.exists, bounded_eq_ok_iff] at h
      obtain ⟨es, _, hs, rfl, rfl, hh⟩ := h
      exact .enclose [.delimiter .openBracket] [.delimiter .closeBracket] (ih.items hs)
        (fun _ ↦ .array) hh
    · simp only [bind_eq_ok_iff, Prod.exists, bounded_eq_ok_iff] at h
      obtain ⟨ms, _, hs, rfl, rfl, hh⟩ := h
      exact .enclose [.delimiter .openBrace] [.delimiter .closeBrace] (ih.entries hs)
        (fun _ ↦ .object) hh
    · cases h

theorem sound_items {closing : Delimiter} {es : List Expr} (ih : Sound limits fuel)
    (h : items limits (fuel + 1) depth closing ts = .ok (es, r)) :
    Spells limits depth (.items es) ts (.delimiter closing :: r) := by
  rw [items] at h
  split at h
  · next us hc =>
    cases h
    exact ⟨[], take_eq_ok_iff.mp hc, .noItems, Nat.zero_le _⟩
  · simp only [bind_eq_ok_iff, Prod.exists] at h
    obtain ⟨e, us, he, h⟩ := h
    have he := ih.expression he
    rcases separated_eq_ok h with ⟨vs, es, rfl, hs, rfl⟩ | ⟨rfl, rfl⟩
    · have hs := ih.items hs
      refine .append [.delimiter .comma] [] he hs (fun _ us de ds ↦ ?_)
        (Nat.max_le.mpr ⟨he.height_le, hs.height_le⟩)
      rw [List.append_nil]
      exact .moreItems de ds
    · exact he.map (fun _ ↦ .lastItem) (Nat.max_le.mpr ⟨he.height_le, Nat.zero_le _⟩)

/-- An entry is its name and what is read behind it. -/
theorem sound_entry {t : Token} {k : String} (hl : 0 < limits.height) (ih : Sound limits fuel)
    (hk : t.Names k) (h : entryValue (expression limits fuel depth) k us = .ok (e, vs)) :
    Spells limits depth (.entry k e) (t :: us) vs := by
  unfold entryValue at h
  split at h
  · have he := ih.expression h
    refine .enclose [t, .delimiter .colon] [] he (fun _ d ↦ ?_) he.height_le
    rw [List.append_nil]
    exact .full hk d
  · cases h
    exact ⟨[t], rfl, .shorthand hk, hl⟩

theorem sound_entries {before : Token} {ms : List (String × Expr)} (hl : 0 < limits.height)
    (ih : Sound limits fuel)
    (h : entries limits (fuel + 1) depth before ts = .ok (ms, r)) :
    Spells limits depth (.entries ms) ts (.delimiter .closeBrace :: r) := by
  cases ts with
  | nil =>
    rw [entries] at h
    cases h
  | cons t us =>
    rw [entries] at h
    split at h
    · next ht =>
      cases h
      exact ⟨[], congrArg (· :: _) ht, .noEntries, Nat.zero_le _⟩
    split at h
    · cases h
    next k hk =>
    have hk := key?_eq_some_iff.mp hk
    simp only [bind_eq_ok_iff, Prod.exists] at h
    obtain ⟨e, vs, he, h⟩ := h
    have he := sound_entry hl ih hk he
    rcases separated_eq_ok h with ⟨vs, ms, rfl, hs, rfl⟩ | ⟨rfl, rfl⟩
    · have hs := ih.entries hs
      refine .append [.delimiter .comma] [] he hs (fun _ us de ds ↦ ?_)
        (Nat.max_le.mpr ⟨he.height_le, hs.height_le⟩)
      rw [List.append_nil]
      exact .moreEntries de ds
    · exact he.map (fun _ ↦ .lastEntry) (Nat.max_le.mpr ⟨he.height_le, Nat.zero_le _⟩)

/-! ## All functions together -/

/-- Every reading function is sound. -/
theorem sound (hl : 0 < limits.height) : ∀ fuel, Sound limits fuel
  | 0 => by
    constructor <;>
      simp [expression, chain, operand, chainRest, prefixed, linked, links, primary, items, entries,
        expected]
  | fuel + 1 =>
    have ih := sound hl fuel
    { expression := sound_expression ih
      chain := sound_chain ih
      operand := sound_operand ih
      chainRest := sound_chainRest ih
      prefixed := sound_prefixed ih
      linked := sound_linked ih
      links := sound_links ih
      primary := sound_primary hl ih
      items := sound_items ih
      entries := sound_entries hl ih }

/-- Tokens that are read to a tree are derived from it, within the limits. -/
theorem derives_of_ofTokens (hl : 0 < limits.height) (h : ofTokens limits ts = .ok e) :
    Derives limits.nesting (.expression e) ts ∧ e.height ≤ limits.height := by
  simp only [ofTokens, bind_eq_ok_iff, Prod.exists] at h
  obtain ⟨e, us, he, h⟩ := h
  split at h
  · cases h
    obtain ⟨vs, rfl, d, hh⟩ := (sound hl _).expression he
    rw [List.append_nil]
    exact ⟨d, hh⟩
  · cases h

end Expr

end LivePage
