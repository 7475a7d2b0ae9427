import LivePage.Proofs.Context.Document
import LivePage.Proofs.Expr.Chain
import LivePage.Proofs.Expr.Lexeme
import LivePage.Proofs.Fields
import LivePage.Proofs.Number.Whole
import LivePage.Proofs.Page.Binding
import LivePage.Proofs.Safety.Number

/-!
# Paths as chains of links

A path reads a value segment by segment from the root, and a chain of links behind a name reads it
link by link.  A key is read as a member and an index as a position, so wherever a path leads in a
part of a context, the chain behind the name of the part leads to the same value.
-/

namespace LivePage

/-- The literal that a numeral is read as. -/
def Expr.numeral (ds : List Char) : Expr :=
  .literal (.ofFloat ((Decimal.readMagnitude? ds).getD 0.0))

/-- The links that take the step of a segment: to a member that has the key as its name, or to the
position that a numeral spells.  They may be optional. -/
inductive Segment.IsLink : Segment → Expr.Link → Prop where
  | key {k : String} (hk : Token.IsName k) (optional : Bool) : IsLink (.key k) (.member k optional)
  | index {ds : List Char} (hne : ds ≠ []) (hd : ∀ c ∈ ds, c.isDigit = true)
      (hlt : Decimal.ofDigits ds < 2 ^ 53) (optional : Bool) :
      IsLink (.index (Decimal.ofDigits ds)) (.index (Expr.numeral ds) optional)

/-! ## Names and numerals -/

/-- No name is an index. -/
theorem readIndex?_of_isName {name : String} (h : Token.IsName name) :
    readIndex? name.toList = none := by
  obtain ⟨c, r, hname, hc, -⟩ := h
  have hdigit : c.isDigit = false := by
    by_contra hd
    rw [Token.not_isNameStart_of_isDigit (Bool.eq_true_of_not_eq_false hd)] at hc
    cases hc
  have hplus : c ≠ '+' := by
    rintro rfl
    cases hc
  rw [hname, readIndex?]
  · simp [hdigit]
  · exact fun _ h ↦ hplus (List.cons.inj h).1

/-- Digits below `2 ^ 53` are read as the integer that they spell. -/
theorem Expr.numeral_eq {ds : List Char} (hne : ds ≠ []) (hd : ∀ c ∈ ds, c.isDigit = true)
    (hlt : Decimal.ofDigits ds < 2 ^ 53) :
    numeral ds = .literal (.nat (Decimal.ofDigits ds)) := by
  have hdigits : Decimal.takeDigits ds = (ds, []) := by
    simpa using Decimal.takeDigits_append (r := []) hd nofun
  have hread : Decimal.readMagnitude? ds = some (Decimal.scientific (Decimal.ofDigits ds) 0) := by
    simp [Decimal.readMagnitude?, Decimal.takeDecimal?, hdigits, hne]
  rw [numeral, hread, Option.getD_some, Value.ofFloat_of_whole (Binary.whole?_scientific hlt) hlt]
  rfl

namespace Value

variable {v w : Value} {s : Segment} {l : Expr.Link} {env : Env}

/-- A link goes where its segment goes. -/
theorem follow_of_step? (hl : s.IsLink l) (h : v.step? s = some w) :
    l.follow env v = .ok (some w) := by
  cases hl with
  | @key k hk optional =>
    cases v with
    | obj m =>
      change Fields.get? k m = some w at h
      simp [Expr.Link.follow, property, isNull, h]
    | arr items =>
      rw [step?, readIndex?_of_isName hk] at h
      cases h
    | _ => cases h
  | @index ds hne hd hlt optional =>
    rw [Expr.numeral_eq hne hd hlt]
    cases v with
    | arr items =>
      change items[Decimal.ofDigits ds]? = some w at h
      simp [Expr.Link.follow, Expr.eval, Expr.reach, isNull, atIndex, nat, int, position?_int hlt,
        h]
    | _ => cases h

end Value

namespace Expr

variable {env : Env} {base : Expr} {root v : Value} {p : Path} {links : List Link}

/-- A chain of links leads from its base where the path of its segments leads. -/
theorem reach_through_of_get? (hbase : reach env base = .ok (some root))
    (hl : List.Forall₂ Segment.IsLink p links) (h : root.get? p = some v) :
    reach env (base.through links) = .ok (some v) := by
  -- the links are taken from the left, and each makes a new base
  induction hl generalizing base root with
  | nil =>
    cases h
    exact hbase
  | @cons s l p links hs _ ih =>
    rw [Value.get?_cons, Option.bind_eq_some_iff] at h
    obtain ⟨w, hw, h⟩ := h
    refine ih ?_ h
    rw [reach_onto_of_some hbase, Value.follow_of_step? hs hw]

end Expr

/-- A part of a context is seen under its name. -/
theorem Context.get?_scope (c : Context) (k : Namespace) :
    c.scope.get? k.name = some (c.snapshot k) := by
  rw [Context.scope, Fields.ofList, Fields.get?_overlay]
  cases k <;> rfl

/-- The kind of a binding that reads a part of the context at a path. -/
inductive BindingKind.Reads : BindingKind → Namespace → Prop where
  | datasource : Reads .datasource .data
  | state : Reads .state .state
  | var : Reads .var .vars

namespace Binding

variable {c : Context} {k : Namespace} {b : Binding} {clock : Int} {v : Value}

/-- What a binding to a path finds in its part of the context. -/
theorem raw_of_reads {path : String} (hk : b.kind.Reads k) (hs : b.source = .str path) :
    b.raw c clock = .ok ((c.snapshot k).lookup path) := by
  have ht : b.text = .ok path := by rw [text, hs]
  rw [Value.lookup, ← Context.resolve_eq_getD]
  cases hk' : b.kind <;> rw [hk'] at hk <;> cases hk
  all_goals rw [raw, hk', ht]; rfl

/-- What a binding to a text finds is what the text has as its value. -/
theorem raw_of_expression {source : String} (hk : b.kind = .expression)
    (hs : b.source = .str source) (h : Expr.run (c.env clock) source = .ok v) :
    b.raw c clock = .ok v := by
  have ht : b.text = .ok source := by rw [text, hs]
  rw [raw, hk]
  simp [ht, h, Except.mapError]

end Binding

/-- Wherever a path of names and indices leads in a part of a context, the links of its segments
behind the name of the part lead to the same value.  So every text that spells this chain has the
value, and a binding to the path resolves as the same binding to such a text does. -/
theorem chain_reads_path (c : Context) (k : Namespace) (clock : Int) {p : Path}
    {links : List Expr.Link} {v : Value} (hl : List.Forall₂ Segment.IsLink p links)
    (h : (c.snapshot k).get? p = some v) :
    let chain := Expr.through (.identifier k.name) links
    chain.eval (c.env clock) = .ok v ∧
    (∀ source, Expr.parse source = .ok chain → Expr.run (c.env clock) source = .ok v) ∧
    ∀ (b : Binding) (path source : String), b.kind.Reads k → b.source = .str path →
      Path.parse path = p → Expr.parse source = .ok chain →
      b.resolve c clock = .ok (b.finish c clock v) ∧
      { b with kind := .expression, source := .str source }.resolve c clock =
        .ok (b.finish c clock v) := by
  intro chain
  have hroot : Expr.reach (c.env clock) (.identifier k.name) = .ok (some (c.snapshot k)) := by
    rw [Expr.reach, Context.env, Context.get?_scope]
  have heval : chain.eval (c.env clock) = .ok v := by
    rw [Expr.eval, Expr.reach_through_of_get? hroot hl h]
    rfl
  have hrun (source : String) (hs : Expr.parse source = .ok chain) :
      Expr.run (c.env clock) source = .ok v := by
    rw [Expr.run, hs]
    simp [heval, Except.mapError]
  refine ⟨heval, hrun, fun b path source hk hpath hp hs ↦ ⟨?_, ?_⟩⟩
  · have hlookup : (c.snapshot k).lookup path = v := by
      rw [Value.lookup, Value.getD, hp, h, Option.getD_some]
    rw [Binding.resolve_of_found (Binding.raw_of_reads hk hpath), hlookup]
  · exact Binding.resolve_of_found (Binding.raw_of_expression rfl rfl (hrun source hs))

/-- A name of an item, as a path and as an expression. -/
theorem chain_reads_name_of_item :
    let c : Context := { state := [("items", .arr [.null, .obj [("name", .str "b")]])] }
    let b : Binding := { target := "label", kind := .state, source := .str "items[1].name" }
    Expr.run (c.env 0) "state.items[1].name" = .ok (.str "b") ∧
    b.resolve c 0 = .ok (.str "b") ∧
    { b with kind := .expression, source := .str "state.items[1].name" }.resolve c 0 =
      .ok (.str "b") := by
  intro c b
  let links : List Expr.Link :=
    [.member "items" false, .index (Expr.numeral ['1']) false, .member "name" false]
  have hone : Decimal.ofDigits ['1'] = 1 := by rw [Decimal.ofDigits_eq]; rfl
  have hindex : Segment.IsLink (.index 1) (.index (Expr.numeral ['1']) false) := by
    have hlt : Decimal.ofDigits ['1'] < 2 ^ 53 := by rw [hone]; norm_num
    have hi := Segment.IsLink.index (List.cons_ne_nil '1' []) (by simp) hlt false
    rwa [hone] at hi
  have hl : List.Forall₂ Segment.IsLink [.key "items", .index 1, .key "name"] links := by
    refine .cons (.key ?_ false) (.cons hindex (.cons (.key ?_ false) .nil))
    · exact ⟨'i', "tems".toList, rfl, rfl, List.all_eq_true.mp rfl⟩
    · exact ⟨'n', "ame".toList, rfl, rfl, List.all_eq_true.mp rfl⟩
  obtain ⟨-, hrun, hresolve⟩ := chain_reads_path c .state 0 (v := .str "b") hl rfl
  have ht : tokenize "state.items[1].name" = .ok [⟨.identifier "state", 0, 5⟩,
      ⟨.operator .dot, 5, 6⟩, ⟨.identifier "items", 6, 11⟩, ⟨.delimiter .openBracket, 11, 12⟩,
      ⟨.number ((Decimal.readMagnitude? ['1']).getD 0.0), 12, 13⟩,
      ⟨.delimiter .closeBracket, 13, 14⟩, ⟨.operator .dot, 14, 15⟩,
      ⟨.identifier "name", 15, 19⟩] := by
    decide +kernel
  have hs : Expr.parse "state.items[1].name" = .ok (.through (.identifier "state") links) := by
    rw [Expr.parse, ht]
    unfold links Expr.numeral
    generalize (Decimal.readMagnitude? ['1']).getD 0.0 = x
    with_unfolding_all rfl
  obtain ⟨hpath, htext⟩ := hresolve b "items[1].name" _ .state rfl (by decide) hs
  exact ⟨hrun _ hs, hpath, htext⟩

end LivePage
