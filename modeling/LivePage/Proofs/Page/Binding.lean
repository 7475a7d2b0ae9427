import LivePage.Page.Binding
import LivePage.Proofs.Outcome

/-!
# Bindings that fail

What a binding gives is decided by its kind, its mode, its default and its transform together.  Here
each of the ways to fail is told on its own: a binding `Breaks` where it fails the whole, and
`Degrades` where something else is taken in place of what failed.
-/

namespace LivePage

/-- All kinds that are known need text as their source, but for literals. -/
def BindingKind.NeedsText : BindingKind → Prop
  | static | unknown _ => False
  | expression | datasource | state | var | context | computed => True

namespace Binding

variable {b : Binding} {c : Context} {clock : Int} {v : Value} {e : BindingError} {s : String}

/-- A binding fails where its source is no text but should be, and where its expression does. -/
inductive Fails (b : Binding) (c : Context) (clock : Int) : BindingError → Prop where
  | source (kind : b.kind.NeedsText) (other : ∀ s, b.source ≠ .str s) :
      Fails b c clock (.invalidSource b.target b.kind.tag b.source.kindName)
  | expression {s : String} {err : ExprError} (kind : b.kind = .expression ∨ b.kind = .computed)
      (source : b.source = .str s) (fails : Expr.run (c.env clock) s = .error err) :
      Fails b c clock (.expression b.target err)

/-- A binding that fails breaks the whole where it is strict and has no default. -/
structure Breaks (b : Binding) (c : Context) (clock : Int) (e : BindingError) : Prop where
  strict : b.mode = .strict
  bare : b.default? = none
  fails : b.Fails c clock e

/-- What a binding gives in place of what failed: its default or else null where it fails itself,
and the value that was found where only the transform of it fails. -/
inductive Degrades (b : Binding) (c : Context) (clock : Int) : Value → Prop where
  | default {e : BindingError} (fails : b.Fails c clock e) :
      Degrades b c clock (b.default?.getD .null)
  | untransformed {v : Value} {source : String} {err : ExprError} (found : b.raw c clock = .ok v)
      (kept : v = .null → b.default? = none) (transform : b.transform = some source)
      (fails : Expr.run ⟨c.scope.insert "value" v, clock⟩ source = .error err) :
      Degrades b c clock v

/-! ## Which bindings fail -/

theorem text_eq_ok_iff : b.text = .ok s ↔ b.source = .str s := by
  unfold text
  split
  · next t h => rw [h, Except.ok.injEq, Value.str.injEq]
  · next h => exact ⟨nofun, fun hs ↦ absurd hs (h s)⟩

theorem text_eq_error_iff : b.text = .error e ↔
    (∀ s, b.source ≠ .str s) ∧ e = .invalidSource b.target b.kind.tag b.source.kindName := by
  unfold text
  split
  · next s h => exact ⟨nofun, fun hs ↦ absurd h (hs.1 s)⟩
  · next h => rw [Except.error.injEq, eq_comm, and_iff_right h]

/-- Where only text is needed, what is made of it does not fail. -/
theorem map_text_eq_error_iff {f : String → Value} (hk : b.kind.NeedsText)
    (hp : b.kind ≠ .expression ∧ b.kind ≠ .computed) :
    b.text.map f = .error e ↔ b.Fails c clock e := by
  rw [← failure?_eq_some_iff, failure?_map, failure?_eq_some_iff, text_eq_error_iff]
  constructor
  · rintro ⟨other, rfl⟩
    exact .source hk other
  · rintro (⟨-, other⟩ | ⟨kind, -, -⟩)
    · exact ⟨other, rfl⟩
    · exact absurd kind (not_or.mpr hp)

/-- Where the text is an expression, it fails as well where the expression does. -/
theorem run_text_eq_error_iff (hk : b.kind = .expression ∨ b.kind = .computed) :
    (do
      let source ← b.text
      (Expr.run (c.env clock) source).mapError (.expression b.target)) = .error e ↔
      b.Fails c clock e := by
  have needs : b.kind.NeedsText := by
    rcases hk with hk | hk <;> rw [hk] <;> trivial
  cases ht : b.text with
  | error e' =>
    obtain ⟨other, rfl⟩ := text_eq_error_iff.mp ht
    constructor
    · intro h
      cases h
      exact .source needs other
    · rintro (_ | ⟨-, source, -⟩)
      · rfl
      · exact absurd source (other _)
  | ok s =>
    have source := text_eq_ok_iff.mp ht
    rw [ok_bind, ← failure?_eq_some_iff, failure?_mapError, Option.map_eq_some_iff]
    constructor
    · rintro ⟨err, fails, rfl⟩
      exact .expression hk source (failure?_eq_some_iff.mp fails)
    · rintro (⟨-, other⟩ | ⟨-, source', fails⟩)
      · exact absurd source (other s)
      · cases source.symm.trans source'
        exact ⟨_, failure?_eq_some_iff.mpr fails, rfl⟩

theorem not_fails (hk : ¬b.kind.NeedsText) : ¬b.Fails c clock e := by
  rintro (⟨kind, -⟩ | ⟨kind | kind, -, -⟩)
  · exact hk kind
  · exact hk (kind ▸ trivial)
  · exact hk (kind ▸ trivial)

theorem raw_eq_error_iff : b.raw c clock = .error e ↔ b.Fails c clock e := by
  unfold raw
  cases hk : b.kind with
  | static | unknown => exact ⟨nofun, fun h ↦ absurd h (not_fails (hk ▸ not_false))⟩
  | expression => exact run_text_eq_error_iff (.inl hk)
  | computed => exact run_text_eq_error_iff (.inr hk)
  | datasource | state | var | context =>
    exact map_text_eq_error_iff (hk ▸ trivial) (by rw [hk]; exact ⟨nofun, nofun⟩)

/-! ## What they give -/

theorem resolve_of_found (h : b.raw c clock = .ok v) :
    b.resolve c clock = .ok (b.finish c clock v) := by
  simp only [resolve, h]

/-- Where a binding fails, it has its default. -/
theorem resolve_of_default {d : Value} (h : b.Fails c clock e) (hd : b.default? = some d) :
    b.resolve c clock = .ok d := by
  simp only [resolve, raw_eq_error_iff.mpr h, hd]

theorem resolve_of_bare (h : b.Fails c clock e) (hd : b.default? = none) :
    b.resolve c clock = if b.mode = .strict then .error e else .ok .null := by
  simp only [resolve, raw_eq_error_iff.mpr h, hd]

/-- A binding fails to give a value just where it breaks the whole. -/
theorem resolve_eq_error_iff : b.resolve c clock = .error e ↔ b.Breaks c clock e := by
  constructor
  · intro h
    cases hr : b.raw c clock with
    | ok v =>
      rw [resolve_of_found hr] at h
      cases h
    | error err =>
      have fails := raw_eq_error_iff.mp hr
      cases hd : b.default? with
      | some d =>
        rw [resolve_of_default fails hd] at h
        cases h
      | none =>
        rw [resolve_of_bare fails hd] at h
        by_cases hm : b.mode = .strict
        · rw [if_pos hm] at h
          cases h
          exact ⟨hm, hd, fails⟩
        · rw [if_neg hm] at h
          cases h
  · rintro ⟨hm, hd, fails⟩
    rw [resolve_of_bare fails hd, if_pos hm]

/-- A value that was found stays as it is where no default takes its place and the transform of it
fails. -/
theorem finish_of_fails {source : String} {err : ExprError} (kept : v = .null → b.default? = none)
    (transform : b.transform = some source)
    (fails : Expr.run ⟨c.scope.insert "value" v, clock⟩ source = .error err) :
    b.finish c clock v = v := by
  unfold finish
  split
  · next d hd =>
    rw [kept rfl] at hd
    cases hd
  · rw [transform]
    simp only [applyTransform, fails]

/-- A binding that does not break the whole gives something in place of what failed. -/
theorem resolve_of_degrades (h : b.Degrades c clock v) (hb : ∀ e, ¬b.Breaks c clock e) :
    b.resolve c clock = .ok v := by
  cases h with
  | @default e fails =>
    cases hd : b.default? with
    | some d => exact resolve_of_default fails hd
    | none =>
      have hm : b.mode ≠ .strict := fun hm ↦ hb e ⟨hm, hd, fails⟩
      exact (resolve_of_bare fails hd).trans (if_neg hm)
  | untransformed found kept transform fails =>
    rw [resolve_of_found found, finish_of_fails kept transform fails]

end Binding

end LivePage
