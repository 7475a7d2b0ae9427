import LivePage.Proofs.Expr.Completeness

/-!
# Reading accepts the grammar

Within any limits the tokens that are read to a tree are those that the grammar derives from it, and
a sequence of tokens is derived from one tree only.  The second statement needs no argument of its
own: two trees of one sequence are both read from it, within limits that are wide enough for their
derivations.
-/

namespace LivePage

namespace Expr

variable {limits : Limits} {ts : List Token} {e e' : Expr} {n m : Nat}

/-- Reading within some limits accepts what is derived within them. -/
theorem ofTokens_eq_ok_iff (hl : 0 < limits.height) :
    ofTokens limits ts = .ok e ↔
      Derives limits.nesting (.expression e) ts ∧ e.height ≤ limits.height :=
  ⟨derives_of_ofTokens hl, fun ⟨h, hh⟩ ↦ ofTokens_of_derives h (Nat.le_refl _) hh⟩

/-- A sequence of tokens is derived from one tree at most. -/
theorem eq_of_derives (h : Derives n (.expression e) ts) (h' : Derives m (.expression e') ts) :
    e = e' := by
  let wide : Limits := ⟨max n m, max e.height e'.height⟩
  have hr : ofTokens wide ts = .ok e :=
    ofTokens_of_derives h (Nat.le_max_left ..) (Nat.le_max_left ..)
  have hr' : ofTokens wide ts = .ok e' :=
    ofTokens_of_derives h' (Nat.le_max_right ..) (Nat.le_max_right ..)
  exact Except.ok.inj (hr.symm.trans hr')

/-- There is no expression without tokens. -/
theorem ofTokens_nil_ne_ok (hl : 0 < limits.height) : ofTokens limits [] ≠ .ok e := by
  intro h
  exact absurd ((derives_of_ofTokens hl h).1.length_pos rfl) (Nat.lt_irrefl 0)

theorem parse_eq_ok_iff {source : String} :
    parse source = .ok e ↔
      ∃ ts, tokenize source = .ok ts ∧ ofTokens .standard (ts.map (·.token)) = .ok e := by
  unfold parse
  split
  · next h => simp [h]
  · next h =>
    have hn : ofTokens .standard [] ≠ .ok e := ofTokens_nil_ne_ok (by decide)
    simp [h, hn]
  · next ts _ h =>
    split
    · next h' => simp [h, h']
    · next h' => simp [h, h']

/-- Reading accepts exactly what the grammar derives with at most 64 expressions and prefix
operators around any point and from a tree that is at most 256 high, and gives that tree, the only
one from which the tokens are derived at all. -/
theorem reads_iff_derives :
    (∀ ts e, ofTokens .standard ts = .ok e ↔ Derives 64 (.expression e) ts ∧ e.height ≤ 256) ∧
    (∀ source e, parse source = .ok e ↔ ∃ ts, tokenize source = .ok ts ∧
      Derives 64 (.expression e) (ts.map (·.token)) ∧ e.height ≤ 256) ∧
    ∀ ts n m e e', Derives n (.expression e) ts → Derives m (.expression e') ts → e = e' := by
  have accepts (ts : List Token) (e : Expr) :
      ofTokens .standard ts = .ok e ↔ Derives 64 (.expression e) ts ∧ e.height ≤ 256 :=
    ofTokens_eq_ok_iff (by decide)
  refine ⟨accepts, fun source e ↦ ?_, fun ts n m e e' ↦ eq_of_derives⟩
  rw [parse_eq_ok_iff]
  simp only [accepts]

/-- The tokens of `-a.b ?? [c,]`: a prefix operator takes the links behind its operand with it, and
the comma behind the last item leaves nothing. -/
theorem reads_negated_member :
    ofTokens .standard [.operator .minus, .identifier "a", .operator .dot, .identifier "b",
        .operator .nullish, .delimiter .openBracket, .identifier "c", .delimiter .comma,
        .delimiter .closeBracket] =
      .ok (.logical .nullish (.unary .negate (.member (.identifier "a") "b" false))
        (.array [.identifier "c"])) := by
  have name {k : String} (hk : k ∉ ["true", "false", "null", "undefined"]) (n : Nat) :
      Derives n (.prefixed (.identifier k)) [.identifier k] := .bare (.start (.name hk))
  have left : Derives 63 (.prefixed (.unary .negate (.member (.identifier "a") "b" false)))
      [.operator .minus, .identifier "a", .operator .dot, .identifier "b"] :=
    .unary .negate (.bare (.member "b" (.start (.name (by decide)))))
  have item : Derives 63 (.expression (.identifier "c")) [.identifier "c"] :=
    .plain ((name (by decide) 62).chain .nullish)
  have right : Derives 63 (.prefixed (.array [.identifier "c"]))
      [.delimiter .openBracket, .identifier "c", .delimiter .comma, .delimiter .closeBracket] :=
    .bare (.start (.array (.moreItems item .noItems)))
  exact (reads_iff_derives.1 _ _).mpr
    ⟨.plain (.logical .nullish (left.chain .nullish) (right.chain .or)), by decide⟩

end Expr

end LivePage
