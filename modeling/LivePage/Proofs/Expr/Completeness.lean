import LivePage.Proofs.Expr.Soundness

/-!
# What is derived is read

With enough fuel the reading functions take exactly the tokens of a derivation within the limits,
whatever stands behind them that could not go on with the phrase.  Operators and links associate to
the left, while the reading functions take the first operand and go on from there; so a chain is
not shown to be read to its end, but to lead to the state in which its rest is read.

Every function needs a fixed amount of fuel until it comes to a token, and every token allows for
as much as there is between two tokens.
-/

namespace LivePage

variable {limits : Limits} {fuel depth n : Nat} {ts us r : List Token}

/-! ## What may follow a phrase -/

/-- Tokens that go on with no link, and with no operator of a level from the `k`th on. -/
def Ends (k : Nat) : List Token → Prop
  | .operator o :: _ =>
    o ≠ .dot ∧ o ≠ .optionalDot ∧ ∀ level : Level, k ≤ level.rank → level.join? o = none
  | .delimiter d :: _ => d ≠ .openBracket ∧ d ≠ .openParen
  | _ => True

/-- Tokens that stand behind an expression: none, or a delimiter that starts nothing. -/
def Closed : List Token → Prop
  | [] => True
  | .delimiter d :: _ => d ≠ .openBracket ∧ d ≠ .openParen ∧ d ≠ .openBrace
  | _ => False

theorem closed_delimiter {d : Delimiter}
    (h : d ≠ .openBracket ∧ d ≠ .openParen ∧ d ≠ .openBrace) : Closed (.delimiter d :: r) := h

theorem Closed.ends (h : Closed r) (k : Nat) : Ends k r := by
  match r, h with
  | [], _ => trivial
  | .delimiter _ :: _, h => exact ⟨h.1, h.2.1⟩

theorem Ends.mono {j k : Nat} (h : Ends j r) (hk : j ≤ k) : Ends k r := by
  match r, h with
  | [], _ => trivial
  | .operator _ :: _, h => exact ⟨h.1, h.2.1, fun level hl ↦ h.2.2 level (Nat.le_trans hk hl)⟩
  | .delimiter _ :: _, h => exact h
  | .number _ :: _, _ | .string _ :: _, _ | .identifier _ :: _, _ => trivial

/-- An operator of a level ends what is tighter. -/
theorem ends_operator {level : Level} {o : Operator} {join : Expr → Expr → Expr}
    (h : level.join? o = some join) : Ends (level.rank + 1) (.operator o :: r) := by
  rcases Level.join?_eq_some h with ⟨op, -, rfl, rfl⟩ | ⟨op, -, rfl, rfl⟩ <;> cases op <;>
    refine ⟨nofun, nofun, fun level hl ↦ ?_⟩ <;> cases level <;>
    first | rfl | exact absurd hl (by decide)

theorem ends_question (k : Nat) : Ends k (.operator .question :: r) :=
  ⟨nofun, nofun, fun level _ ↦ by cases level <;> rfl⟩

/-! ## Fuel -/

/-- The fuel that it takes to read the first token of a phrase, at most; a list may have none, and
an entry is not read by a function of its own. -/
def Phrase.cost : Phrase → Nat
  | expression _ => 18
  | chain level _ => 17 - 2 * level.rank
  | prefixed _ => 3
  | linked _ => 2
  | primary _ => 1
  | items _ | entries _ => 25
  | entry _ _ => 0

theorem Phrase.cost_operand (e : Expr) (level : Level) :
    (operand e level).cost = 15 - 2 * level.rank := by
  cases level <;> rfl

/-- A derivation is within the limits, and there is enough fuel to read its tokens. -/
structure Fits (limits : Limits) (fuel depth n : Nat) (p : Phrase) (ts : List Token) : Prop where
  nesting : n + depth ≤ limits.nesting
  height : p.height ≤ limits.height
  fuel : 24 * ts.length + p.cost ≤ fuel + 24

namespace Expr

/-- The reading functions take the tokens of a phrase. -/
def Reads (limits : Limits) (n : Nat) (ts : List Token) : Phrase → Prop
  | .expression e => ∀ ⦃fuel depth r⦄, Fits limits fuel depth n (.expression e) ts → Closed r →
      expression limits fuel depth (ts ++ r) = .ok (e, r)
  | .chain level e => ∀ ⦃fuel depth r⦄, Fits limits fuel depth n (.chain level e) ts →
      Ends (level.rank + 1) r → ∃ f, fuel ≤ f + ts.length ∧
        chain limits fuel depth level (ts ++ r) = chainRest limits f depth level e r
  | .prefixed e => ∀ ⦃fuel depth r⦄, Fits limits fuel depth n (.prefixed e) ts → Ends 7 r →
      prefixed limits fuel depth (ts ++ r) = .ok (e, r)
  | .linked e => ∀ ⦃fuel depth r⦄, Fits limits fuel depth n (.linked e) ts →
      ∃ f, fuel ≤ f + ts.length ∧ linked limits fuel depth (ts ++ r) = links limits f depth e r
  | .primary e => ∀ ⦃fuel depth r⦄, Fits limits fuel depth n (.primary e) ts →
      primary limits fuel depth (ts ++ r) = .ok (e, r)
  | .items es => ∀ ⦃fuel depth closing r⦄, Fits limits fuel depth n (.items es) ts →
      closing = .closeParen ∨ closing = .closeBracket →
      items limits fuel depth closing (ts ++ .delimiter closing :: r) = .ok (es, r)
  | .entry k e => ∃ t us, ts = t :: us ∧ t.Names k ∧ ∀ ⦃fuel depth d r⦄,
      Fits limits fuel depth n (.entry k e) ts → d = .comma ∨ d = .closeBrace →
      entryValue (expression limits fuel depth) k (us ++ .delimiter d :: r) =
        .ok (e, .delimiter d :: r)
  | .entries ms => ∀ ⦃fuel depth before r⦄, Fits limits fuel depth n (.entries ms) ts →
      entries limits fuel depth before (ts ++ .delimiter .closeBrace :: r) = .ok (ms, r)

variable {e left right : Expr} {level : Level}

@[simp] theorem take_delimiter (d : Delimiter) (r : List Token) :
    take d (.delimiter d :: r) = .ok ((), r) := take_eq_ok_iff.mpr rfl

theorem bounded_of_le (h : e.height ≤ limits.height) (r : List Token) :
    bounded limits e r = .ok (e, r) := if_pos h

theorem chainRest_of_ends (h : Ends level.rank r) :
    chainRest limits (fuel + 1) depth level e r = .ok (e, r) := by
  unfold chainRest
  split
  · next o r => rw [h.2.2 level (Nat.le_refl _)]
  · rfl

theorem links_of_ends {k : Nat} (h : Ends k r) :
    links limits (fuel + 1) depth e r = .ok (e, r) := by
  unfold links
  split
  · exact absurd rfl h.1
  · exact absurd rfl h.2.1
  · exact absurd rfl h.2.1
  · exact absurd rfl h.2.1
  · exact absurd rfl h.1
  · exact absurd rfl h.2
  · rfl

/-! ## Chains -/

theorem reads_operand (h : Reads limits n ts (.operand e level)) (hp : 0 < ts.length)
    (hf : Fits limits fuel depth n (.operand e level) ts) (hr : Ends (level.rank + 1) r) :
    operand limits (fuel + 1) depth level (ts ++ r) = .ok (e, r) := by
  have hc := hf.fuel
  rw [Phrase.cost_operand] at hc
  have hk := level.rank_le
  rw [operand]
  cases level with
  | multiplicative => exact h hf hr
  | nullish | or | and | equality | relational | additive =>
    obtain ⟨f, hlen, hread⟩ := h hf (hr.mono (Nat.le_succ _))
    obtain ⟨f, rfl⟩ := Nat.exists_eq_succ_of_ne_zero (n := f) (by omega)
    exact hread.trans (chainRest_of_ends hr)

theorem reads_single (hp : 0 < ts.length) (h : Reads limits n ts (.operand e level)) :
    Reads limits n ts (.chain level e) := by
  intro fuel depth r hf hr
  have hc := hf.fuel
  have hk := level.rank_le
  simp only [Phrase.cost] at hc
  obtain ⟨f, rfl⟩ : ∃ f, fuel = f + 2 := ⟨fuel - 2, by omega⟩
  have hf : Fits limits f depth n (.operand e level) ts :=
    ⟨hf.nesting, by rw [Phrase.height_operand]; exact hf.height,
      by rw [Phrase.cost_operand]; omega⟩
  refine ⟨f + 1, by omega, ?_⟩
  rw [chain, reads_operand h hp hf hr]
  rfl

theorem height_join {o : Operator} {join : Expr → Expr → Expr} (h : level.join? o = some join) :
    (join left right).height = max left.height right.height + 1 := by
  rcases Level.join?_eq_some h with ⟨op, rfl, -⟩ | ⟨op, rfl, -⟩ <;> rfl

/-- The rest of a chain is read on from an operator of the level and its right operand. -/
theorem reads_join {o : Operator} {join : Expr → Expr → Expr} (ho : level.join? o = some join)
    (ht : 0 < ts.length) (hl : Reads limits n ts (.chain level left)) (hu : 0 < us.length)
    (hr : Reads limits n us (.operand right level)) :
    Reads limits n (ts ++ .operator o :: us) (.chain level (join left right)) := by
  intro fuel depth r hf he
  have hc := hf.fuel
  have hk := level.rank_le
  have hh := hf.height
  simp only [Phrase.height, height_join ho] at hh
  simp only [Phrase.cost, List.length_append, List.length_cons] at hc
  have fl : Fits limits fuel depth n (.chain level left) ts :=
    ⟨hf.nesting, (by omega : left.height ≤ limits.height),
      (by omega : 24 * ts.length + (17 - 2 * level.rank) ≤ fuel + 24)⟩
  obtain ⟨f, hlen, hread⟩ := hl fl (r := .operator o :: (us ++ r)) (ends_operator ho)
  obtain ⟨f, rfl⟩ : ∃ g, f = g + 2 := ⟨f - 2, by omega⟩
  have fr : Fits limits f depth n (.operand right level) us :=
    ⟨hf.nesting, by rw [Phrase.height_operand]; omega, by rw [Phrase.cost_operand]; omega⟩
  have hb := bounded_of_le hf.height r
  refine ⟨f + 1, by simp only [List.length_append, List.length_cons]; omega, ?_⟩
  rw [List.append_assoc, List.cons_append, hread, chainRest]
  simp only [ho, reads_operand hr hu fr he, ok_bind, hb]

/-! ## Expressions -/

/-- Behind a chain that is closed there is no second way to go on. -/
theorem reads_plain (hp : 0 < ts.length) (h : Reads limits n ts (.chain .nullish e)) :
    Reads limits (n + 1) ts (.expression e) := by
  intro fuel depth r hf hr
  have hc := hf.fuel
  have hn := hf.nesting
  simp only [Phrase.cost] at hc
  obtain ⟨fuel, rfl⟩ : ∃ f, fuel = f + 1 := ⟨fuel - 1, by omega⟩
  have fc : Fits limits fuel (depth + 1) n (.chain .nullish e) ts :=
    ⟨by omega, hf.height, (by omega : 24 * ts.length + 17 ≤ fuel + 24)⟩
  obtain ⟨f, hlen, hread⟩ := h fc (hr.ends _)
  obtain ⟨f, rfl⟩ : ∃ g, f = g + 1 := ⟨f - 1, by omega⟩
  rw [expression, if_neg (by omega), hread, chainRest_of_ends (hr.ends _), ok_bind]
  simp only
  split
  · cases hr
  · rfl

theorem reads_conditional {test consequent alternate : Expr} {vs : List Token} (hp : 0 < ts.length)
    (ht : Reads limits n ts (.chain .nullish test)) (hu : 0 < us.length)
    (hc : Reads limits n us (.expression consequent))
    (ha : Reads limits n vs (.expression alternate)) :
    Reads limits (n + 1) (ts ++ .operator .question :: (us ++ .delimiter .colon :: vs))
      (.expression (.conditional test consequent alternate)) := by
  intro fuel depth r hf hr
  have hl := hf.fuel
  have hn := hf.nesting
  have hh := hf.height
  simp only [Phrase.height, height] at hh
  simp only [Phrase.cost, List.length_append, List.length_cons] at hl
  obtain ⟨fuel, rfl⟩ : ∃ f, fuel = f + 1 := ⟨fuel - 1, by omega⟩
  have ft : Fits limits fuel (depth + 1) n (.chain .nullish test) ts :=
    ⟨by omega, (by omega : test.height ≤ limits.height),
      (by omega : 24 * ts.length + 17 ≤ fuel + 24)⟩
  have fc : Fits limits fuel (depth + 1) n (.expression consequent) us :=
    ⟨by omega, (by omega : consequent.height ≤ limits.height),
      (by omega : 24 * us.length + 18 ≤ fuel + 24)⟩
  have fa : Fits limits fuel (depth + 1) n (.expression alternate) vs :=
    ⟨by omega, (by omega : alternate.height ≤ limits.height),
      (by omega : 24 * vs.length + 18 ≤ fuel + 24)⟩
  obtain ⟨f, hlen, hread⟩ := ht ft (ends_question _)
  obtain ⟨f, rfl⟩ : ∃ g, f = g + 1 := ⟨f - 1, by omega⟩
  rw [List.append_assoc, List.cons_append, List.append_assoc, List.cons_append, expression,
    if_neg (by omega), hread, chainRest_of_ends (ends_question _), ok_bind]
  simp only [hc fc (closed_delimiter (d := .colon) (by decide)), ha fa hr, ok_bind, take_delimiter]
  exact bounded_of_le hf.height r

theorem reads_bare (hd : Derives n (.linked e) ts) (h : Reads limits n ts (.linked e)) :
    Reads limits n ts (.prefixed e) := by
  intro fuel depth r hf hr
  have hl := hf.fuel
  obtain ⟨t, us, rfl, ht⟩ := hd.exists_startsPrimary rfl
  simp only [Phrase.cost, List.length_cons] at hl
  obtain ⟨fuel, rfl⟩ : ∃ f, fuel = f + 1 := ⟨fuel - 1, by omega⟩
  have fl : Fits limits fuel depth n (.linked e) (t :: us) :=
    ⟨hf.nesting, hf.height, (by omega : 24 * (us.length + 1) + 2 ≤ fuel + 24)⟩
  obtain ⟨f, hlen, hread⟩ := h fl (r := r)
  obtain ⟨f, rfl⟩ : ∃ g, f = g + 1 := ⟨f - 1, by simp only [List.length_cons] at hlen; omega⟩
  have hread : linked limits fuel depth (t :: us ++ r) = .ok (e, r) :=
    hread.trans (links_of_ends hr)
  unfold prefixed
  split
  · next h =>
    cases h
    cases ht
  · exact hread

theorem reads_unary (op : UnaryOp) (hp : 0 < ts.length) (h : Reads limits n ts (.prefixed e)) :
    Reads limits (n + 1) (.operator op.operator :: ts) (.prefixed (.unary op e)) := by
  intro fuel depth r hf hr
  have hl := hf.fuel
  have hn := hf.nesting
  have hh := hf.height
  simp only [Phrase.height, height] at hh
  simp only [Phrase.cost, List.length_cons] at hl
  obtain ⟨fuel, rfl⟩ : ∃ f, fuel = f + 1 := ⟨fuel - 1, by omega⟩
  have fp : Fits limits fuel (depth + 1) n (.prefixed e) ts :=
    ⟨by omega, (by omega : e.height ≤ limits.height),
      (by omega : 24 * ts.length + 3 ≤ fuel + 24)⟩
  rw [List.cons_append, prefixed]
  simp only [UnaryOp.ofOperator?_operator, if_neg (show ¬depth ≥ limits.nesting by omega),
    h fp hr, ok_bind]
  exact bounded_of_le hf.height r

/-! ## Links -/

theorem reads_start (hp : 0 < ts.length) (h : Reads limits n ts (.primary e)) :
    Reads limits n ts (.linked e) := by
  intro fuel depth r hf
  have hl := hf.fuel
  simp only [Phrase.cost] at hl
  obtain ⟨fuel, rfl⟩ : ∃ f, fuel = f + 1 := ⟨fuel - 1, by omega⟩
  have fp : Fits limits fuel depth n (.primary e) ts :=
    ⟨hf.nesting, hf.height, (by omega : 24 * ts.length + 1 ≤ fuel + 24)⟩
  refine ⟨fuel, by omega, ?_⟩
  rw [linked, h fp, ok_bind]

/-- A link is read behind its target if `links` takes its tokens in one step. -/
theorem reads_link {target : Expr} (hp : 0 < ts.length) (h : Reads limits n ts (.linked target))
    (hh : target.height ≤ e.height) (hu : 0 < us.length)
    (step : ∀ ⦃fuel depth r⦄, n + depth ≤ limits.nesting → e.height ≤ limits.height →
      24 * us.length ≤ fuel →
      links limits (fuel + 1) depth target (us ++ r) = links limits fuel depth e r) :
    Reads limits n (ts ++ us) (.linked e) := by
  intro fuel depth r hf
  have hl := hf.fuel
  have he : e.height ≤ limits.height := hf.height
  simp only [Phrase.cost, List.length_append] at hl
  have ft : Fits limits fuel depth n (.linked target) ts :=
    ⟨hf.nesting, Nat.le_trans hh he, (by omega : 24 * ts.length + 2 ≤ fuel + 24)⟩
  obtain ⟨f, hlen, hread⟩ := h ft (r := us ++ r)
  obtain ⟨f, rfl⟩ : ∃ g, f = g + 1 := ⟨f - 1, by omega⟩
  refine ⟨f, by simp only [List.length_append]; omega, ?_⟩
  rw [List.append_assoc, hread]
  exact step hf.nesting he (by omega)

theorem reads_member (name : String) (optional : Bool) {o : Operator}
    (ho : o = if optional then .optionalDot else .dot) (hp : 0 < ts.length)
    (h : Reads limits n ts (.linked e)) :
    Reads limits n (ts ++ [.operator o, .identifier name]) (.linked (.member e name optional)) := by
  refine reads_link hp h (Nat.le_succ _) (Nat.zero_lt_succ _) fun fuel depth r _ hh _ ↦ ?_
  have hb := bounded_of_le hh r
  cases optional <;> subst ho <;> simp [links, propertyName, hb]

/-- The tokens in front of what a link has in brackets. -/
def opening (optional : Bool) (d : Delimiter) : List Token :=
  if optional then [.operator .optionalDot, .delimiter d] else [.delimiter d]

theorem reads_index {position : Expr} (optional : Bool) (hp : 0 < ts.length)
    (h : Reads limits n ts (.linked e)) (hi : Reads limits n us (.expression position)) :
    Reads limits n
      (ts ++ (opening optional .openBracket ++ (us ++ [.delimiter .closeBracket])))
      (.linked (.index e position optional)) := by
  have ht : e.height ≤ (Expr.index e position optional).height :=
    Nat.le_succ_of_le (Nat.le_max_left ..)
  have hlen :
      0 < (opening optional .openBracket ++ (us ++ [Token.delimiter .closeBracket])).length := by
    simp only [List.length_append, List.length_cons]
    omega
  refine reads_link hp h ht hlen fun fuel depth r hn hh hl ↦ ?_
  have hb := bounded_of_le hh r
  simp only [height] at hh
  simp only [List.length_append, List.length_cons, List.length_nil] at hl
  have fi : Fits limits fuel depth n (.expression position) us :=
    ⟨hn, (by omega : position.height ≤ limits.height),
      (by omega : 24 * us.length + 18 ≤ fuel + 24)⟩
  have hread := hi fi (closed_delimiter (d := .closeBracket) (by decide) (r := r))
  cases optional <;> simp [opening, links, hread, hb]

theorem reads_call {arguments : List Expr} (optional : Bool) (hp : 0 < ts.length)
    (h : Reads limits n ts (.linked e)) (ha : Reads limits n us (.items arguments)) :
    Reads limits n
      (ts ++ (opening optional .openParen ++ (us ++ [.delimiter .closeParen])))
      (.linked (.call e arguments optional)) := by
  have ht : e.height ≤ (Expr.call e arguments optional).height :=
    Nat.le_succ_of_le (Nat.le_max_left ..)
  have hu : 1 ≤ (opening optional .openParen).length := by cases optional <;> decide
  have hlen :
      0 < (opening optional .openParen ++ (us ++ [Token.delimiter .closeParen])).length := by
    simp only [List.length_append, List.length_cons]
    omega
  refine reads_link hp h ht hlen fun fuel depth r hn hh hl ↦ ?_
  have hb := bounded_of_le hh r
  simp only [height] at hh
  simp only [List.length_append, List.length_cons, List.length_nil] at hl
  have fa : Fits limits fuel depth n (.items arguments) us :=
    ⟨hn, (by omega : heightOfItems arguments ≤ limits.height),
      (by omega : 24 * us.length + 25 ≤ fuel + 24)⟩
  have hread := ha fa (.inl (rfl : Delimiter.closeParen = _)) (r := r)
  cases optional <;> simp [opening, links, hread, hb]

/-! ## Primary expressions -/

/-- A single token is read if `primary` takes it. -/
theorem reads_token {t : Token}
    (h : ∀ fuel depth r, primary limits (fuel + 1) depth (t :: r) = .ok (e, r)) :
    Reads limits n [t] (.primary e) := by
  intro fuel depth r hf
  have hl := hf.fuel
  simp only [Phrase.cost, List.length_singleton] at hl
  obtain ⟨fuel, rfl⟩ : ∃ f, fuel = f + 1 := ⟨fuel - 1, by omega⟩
  exact h fuel depth r

theorem reads_name {k : String} (he : ofName k = e) :
    Reads limits n [.identifier k] (.primary e) :=
  reads_token fun _ _ _ ↦ by rw [primary, he]

theorem reads_group (h : Reads limits n ts (.expression e)) :
    Reads limits n (.delimiter .openParen :: (ts ++ [.delimiter .closeParen])) (.primary e) := by
  intro fuel depth r hf
  have hl := hf.fuel
  simp only [Phrase.cost, List.length_cons, List.length_append, List.length_nil] at hl
  obtain ⟨fuel, rfl⟩ : ∃ f, fuel = f + 1 := ⟨fuel - 1, by omega⟩
  have fe : Fits limits fuel depth n (.expression e) ts :=
    ⟨hf.nesting, hf.height, (by omega : 24 * ts.length + 18 ≤ fuel + 24)⟩
  have hread := h fe (closed_delimiter (d := .closeParen) (by decide) (r := r))
  simp only [primary, List.cons_append, List.append_assoc, List.nil_append, hread, ok_bind,
    take_delimiter]
  rfl

theorem reads_array {es : List Expr} (h : Reads limits n ts (.items es)) :
    Reads limits n (.delimiter .openBracket :: (ts ++ [.delimiter .closeBracket]))
      (.primary (.array es)) := by
  intro fuel depth r hf
  have hl := hf.fuel
  simp only [Phrase.cost, List.length_cons, List.length_append, List.length_nil] at hl
  obtain ⟨fuel, rfl⟩ : ∃ f, fuel = f + 1 := ⟨fuel - 1, by omega⟩
  have fs : Fits limits fuel depth n (.items es) ts :=
    ⟨hf.nesting, Nat.le_of_succ_le hf.height, (by omega : 24 * ts.length + 25 ≤ fuel + 24)⟩
  have hread := h fs (.inr (rfl : Delimiter.closeBracket = _)) (r := r)
  simp [primary, hread, bounded_of_le hf.height]

theorem reads_object {ms : List (String × Expr)} (h : Reads limits n ts (.entries ms)) :
    Reads limits n (.delimiter .openBrace :: (ts ++ [.delimiter .closeBrace]))
      (.primary (.object ms)) := by
  intro fuel depth r hf
  have hl := hf.fuel
  simp only [Phrase.cost, List.length_cons, List.length_append, List.length_nil] at hl
  obtain ⟨fuel, rfl⟩ : ∃ f, fuel = f + 1 := ⟨fuel - 1, by omega⟩
  have fs : Fits limits fuel depth n (.entries ms) ts :=
    ⟨hf.nesting, Nat.le_of_succ_le hf.height, (by omega : 24 * ts.length + 25 ≤ fuel + 24)⟩
  have hread (before : Token) := @h fuel depth before r fs
  simp [primary, hread, bounded_of_le hf.height]

/-! ## Lists and objects -/

/-- A token that can start an expression closes no list. -/
theorem exists_take_eq_error {t : Token} {closing : Delimiter} (ht : t.starts = true)
    (hc : closing = .closeParen ∨ closing = .closeBracket) (r : List Token) :
    ∃ x, take closing (t :: r) = .error x := by
  cases t with
  | delimiter d =>
    have hd : d ≠ closing := by
      rcases hc with rfl | rfl <;> rintro rfl <;> cases ht
    exact ⟨_, by rw [take, if_neg hd]; rfl⟩
  | number | string | identifier | operator => exact ⟨_, rfl⟩

theorem reads_noItems : Reads limits n [] (.items []) := by
  intro fuel depth closing r hf hc
  have hl := hf.fuel
  simp only [Phrase.cost, List.length_nil] at hl
  obtain ⟨fuel, rfl⟩ : ∃ f, fuel = f + 1 := ⟨fuel - 1, by omega⟩
  simp [items]

/-- An item is read, and then what stands behind it. -/
theorem items_eq_separated {closing : Delimiter} {t : Token} (ht : t.starts = true)
    (hc : closing = .closeParen ∨ closing = .closeBracket)
    (h : expression limits fuel depth (t :: ts) = .ok (e, r)) :
    items limits (fuel + 1) depth closing (t :: ts) =
      separated closing (items limits fuel depth closing) e r := by
  obtain ⟨x, hx⟩ := exists_take_eq_error ht hc ts
  rw [items, hx]
  simp only [h, ok_bind]

theorem separated_comma {α : Type} {closing : Delimiter} {x : α} {xs : List α}
    {more : List Token → Except Reject (List α × List Token)} (h : more ts = .ok (xs, r)) :
    separated closing more x (.delimiter .comma :: ts) = .ok (x :: xs, r) := by
  rw [separated, h]
  rfl

theorem separated_closing {α : Type} {closing : Delimiter} (hc : closing ≠ .comma) (x : α)
    (more : List Token → Except Reject (List α × List Token)) :
    separated closing more x (.delimiter closing :: r) = .ok ([x], r) := by
  rw [separated]
  · rw [take_delimiter, ok_bind]
    rfl
  · rintro _ ⟨⟩
    exact hc rfl

theorem closed_closing {closing : Delimiter}
    (hc : closing = .closeParen ∨ closing = .closeBracket) :
    Closed (.delimiter closing :: r) ∧ closing ≠ .comma := by
  rcases hc with rfl | rfl <;> exact ⟨closed_delimiter (by decide), nofun⟩

theorem reads_lastItem (hd : Derives n (.expression e) ts)
    (h : Reads limits n ts (.expression e)) : Reads limits n ts (.items [e]) := by
  intro fuel depth closing r hf hc
  have hl := hf.fuel
  have hh := hf.height
  obtain ⟨t, us, rfl, ht⟩ := hd.exists_starts rfl
  simp only [Phrase.height, heightOfItems] at hh
  simp only [Phrase.cost, List.length_cons] at hl
  obtain ⟨fuel, rfl⟩ : ∃ f, fuel = f + 1 := ⟨fuel - 1, by omega⟩
  have fe : Fits limits fuel depth n (.expression e) (t :: us) :=
    ⟨hf.nesting, (by omega : e.height ≤ limits.height),
      (by omega : 24 * (us.length + 1) + 18 ≤ fuel + 24)⟩
  obtain ⟨hr, hne⟩ := closed_closing hc (r := r)
  exact (items_eq_separated ht hc (h fe hr)).trans (separated_closing hne e _)

theorem reads_moreItems {es : List Expr} (hd : Derives n (.expression e) ts)
    (h : Reads limits n ts (.expression e)) (hs : Reads limits n us (.items es)) :
    Reads limits n (ts ++ .delimiter .comma :: us) (.items (e :: es)) := by
  intro fuel depth closing r hf hc
  have hl := hf.fuel
  have hh := hf.height
  obtain ⟨t, vs, rfl, ht⟩ := hd.exists_starts rfl
  simp only [Phrase.height, heightOfItems] at hh
  simp only [Phrase.cost, List.length_cons, List.length_append] at hl
  obtain ⟨fuel, rfl⟩ : ∃ f, fuel = f + 1 := ⟨fuel - 1, by omega⟩
  have fe : Fits limits fuel depth n (.expression e) (t :: vs) :=
    ⟨hf.nesting, (by omega : e.height ≤ limits.height),
      (by omega : 24 * (vs.length + 1) + 18 ≤ fuel + 24)⟩
  have fs : Fits limits fuel depth n (.items es) us :=
    ⟨hf.nesting, (by omega : heightOfItems es ≤ limits.height),
      (by omega : 24 * us.length + 25 ≤ fuel + 24)⟩
  have hread := h fe (closed_delimiter (d := .comma) (by decide)
    (r := us ++ .delimiter closing :: r))
  rw [List.append_assoc, List.cons_append]
  exact (items_eq_separated ht hc hread).trans (separated_comma (hs fs hc))

theorem reads_full {t : Token} {k : String} (hk : t.Names k)
    (h : Reads limits n ts (.expression e)) :
    Reads limits n (t :: .delimiter .colon :: ts) (.entry k e) := by
  refine ⟨t, _, rfl, hk, fun fuel depth d r hf hd ↦ ?_⟩
  have hl := hf.fuel
  simp only [Phrase.cost, List.length_cons] at hl
  have fe : Fits limits fuel depth n (.expression e) ts :=
    ⟨hf.nesting, hf.height, (by omega : 24 * ts.length + 18 ≤ fuel + 24)⟩
  exact h fe (closed_delimiter (by rcases hd with rfl | rfl <;> decide))

theorem reads_shorthand {t : Token} {k : String} (hk : t.Names k) :
    Reads limits n [t] (.entry k (.identifier k)) := by
  refine ⟨t, [], rfl, hk, fun fuel depth d r _ hd ↦ ?_⟩
  rcases hd with rfl | rfl <;> rfl

theorem reads_noEntries : Reads limits n [] (.entries []) := by
  intro fuel depth before r hf
  have hl := hf.fuel
  simp only [Phrase.cost, List.length_nil] at hl
  obtain ⟨fuel, rfl⟩ : ∃ f, fuel = f + 1 := ⟨fuel - 1, by omega⟩
  rw [List.nil_append, entries, if_pos rfl]

/-- An entry is read, and then what stands behind it. -/
theorem entries_eq_separated {before t : Token} {k : String} (hk : t.Names k)
    (h : entryValue (expression limits fuel depth) k ts = .ok (e, r)) :
    entries limits (fuel + 1) depth before (t :: ts) =
      separated .closeBrace (entries limits fuel depth (.delimiter .comma)) (k, e) r := by
  rw [entries, if_neg (hk.ne_delimiter _), key?_eq_some_iff.mpr hk]
  simp only [h, ok_bind]

theorem reads_lastEntry {k : String} (h : Reads limits n ts (.entry k e)) :
    Reads limits n ts (.entries [(k, e)]) := by
  intro fuel depth before r hf
  have hl := hf.fuel
  have hh := hf.height
  obtain ⟨t, us, rfl, hk, h⟩ := h
  simp only [Phrase.height, heightOfEntries] at hh
  simp only [Phrase.cost, List.length_cons] at hl
  obtain ⟨fuel, rfl⟩ : ∃ f, fuel = f + 1 := ⟨fuel - 1, by omega⟩
  have fe : Fits limits fuel depth n (.entry k e) (t :: us) :=
    ⟨hf.nesting, (by omega : e.height ≤ limits.height),
      (by omega : 24 * (us.length + 1) + 0 ≤ fuel + 24)⟩
  exact (entries_eq_separated hk (h fe (.inr rfl))).trans (separated_closing (by decide) _ _)

theorem reads_moreEntries {k : String} {ms : List (String × Expr)}
    (h : Reads limits n ts (.entry k e)) (hs : Reads limits n us (.entries ms)) :
    Reads limits n (ts ++ .delimiter .comma :: us) (.entries ((k, e) :: ms)) := by
  intro fuel depth before r hf
  have hl := hf.fuel
  have hh := hf.height
  obtain ⟨t, vs, rfl, hk, h⟩ := h
  simp only [Phrase.height, heightOfEntries] at hh
  simp only [Phrase.cost, List.length_cons, List.length_append] at hl
  obtain ⟨fuel, rfl⟩ : ∃ f, fuel = f + 1 := ⟨fuel - 1, by omega⟩
  have fe : Fits limits fuel depth n (.entry k e) (t :: vs) :=
    ⟨hf.nesting, (by omega : e.height ≤ limits.height),
      (by omega : 24 * (vs.length + 1) + 0 ≤ fuel + 24)⟩
  have fs : Fits limits fuel depth n (.entries ms) us :=
    ⟨hf.nesting, (by omega : heightOfEntries ms ≤ limits.height),
      (by omega : 24 * us.length + 25 ≤ fuel + 24)⟩
  rw [List.append_assoc, List.cons_append]
  exact (entries_eq_separated hk (h fe (.inl rfl))).trans (separated_comma (hs fs))

/-! ## All phrases together -/

/-- What is derived is read. -/
theorem reads_of_derives {p : Phrase} (h : Derives n p ts) : Reads limits n ts p := by
  induction h with
  | plain h ih => exact reads_plain (h.length_pos rfl) ih
  | conditional ht hc _ iht ihc iha =>
    exact reads_conditional (ht.length_pos rfl) iht (hc.length_pos rfl) ihc iha
  | single h ih => exact reads_single (h.length_pos (by simp)) ih
  | binary op hl hr ihl ihr =>
    exact reads_join op.join?_operator (hl.length_pos rfl) ihl (hr.length_pos (by simp)) ihr
  | logical op hl hr ihl ihr =>
    exact reads_join op.join?_operator (hl.length_pos rfl) ihl (hr.length_pos (by simp)) ihr
  | bare h ih => exact reads_bare h ih
  | unary op h ih => exact reads_unary op (h.length_pos rfl) ih
  | start h ih => exact reads_start (h.length_pos rfl) ih
  | member name h ih => exact reads_member name false rfl (h.length_pos rfl) ih
  | optionalMember name h ih => exact reads_member name true rfl (h.length_pos rfl) ih
  | index h _ ih ihp => exact reads_index false (h.length_pos rfl) ih ihp
  | optionalIndex h _ ih ihp => exact reads_index true (h.length_pos rfl) ih ihp
  | call h _ ih iha => exact reads_call false (h.length_pos rfl) ih iha
  | optionalCall h _ ih iha => exact reads_call true (h.length_pos rfl) ih iha
  | number | string => exact reads_token fun _ _ _ ↦ by rw [primary]
  | yes | no | null | undefined => exact reads_name (by simp [ofName])
  | name h => exact reads_name (by simp_all [ofName])
  | group _ ih => exact reads_group ih
  | array _ ih => exact reads_array ih
  | object _ ih => exact reads_object ih
  | noItems => exact reads_noItems
  | lastItem h ih => exact reads_lastItem h ih
  | moreItems h _ ih ihs => exact reads_moreItems h ih ihs
  | full hk _ ih => exact reads_full hk ih
  | shorthand hk => exact reads_shorthand hk
  | noEntries => exact reads_noEntries
  | lastEntry _ ih => exact reads_lastEntry ih
  | moreEntries _ _ ih ihs => exact reads_moreEntries ih ihs

/-- Tokens that are derived from a tree within the limits are read to it. -/
theorem ofTokens_of_derives (h : Derives n (.expression e) ts) (hn : n ≤ limits.nesting)
    (hh : e.height ≤ limits.height) : ofTokens limits ts = .ok e := by
  have hf : Fits limits (enough ts.length) 0 n (.expression e) ts :=
    ⟨hn, hh, by simp only [enough, Phrase.cost]; omega⟩
  have hread := reads_of_derives h hf (r := []) trivial
  rw [List.append_nil] at hread
  rw [ofTokens, hread]
  rfl

end Expr

end LivePage
