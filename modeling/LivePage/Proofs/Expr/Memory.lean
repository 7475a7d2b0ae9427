import Mathlib.Data.List.Basic
import LivePage.Expr.Evaluator
import LivePage.Proofs.Outcome
import LivePage.Proofs.Replies

/-!
# What an evaluator remembers

An evaluator remembers what it has parsed.  Whatever was asked of it before, its answers are those
of one that remembers nothing.
-/

namespace LivePage

namespace Evaluator

/-- What can be asked of an evaluator. -/
inductive Call where
  | execute (env : Env) (source : String)
  | validate (source : String)
  | extract (source : String)
  | clear

inductive Answer where
  | value (result : Except ExprError Value)
  | validity (valid : Bool)
  | names (names : List String)
  | cleared

namespace Call

/-- The text that a call is about. -/
def source? : Call → Option String
  | execute _ source | validate source | extract source => some source
  | clear => none

/-- The answer to a call about a text, by what the text was parsed to. -/
def answer (parsed : Except ExprError Expr) : Call → Answer
  | execute env source =>
    .value (parsed.bind fun expr ↦ (expr.eval env).mapError (.evaluation source))
  | validate _ => .validity parsed.isOk
  | extract source => .names (Expr.variableNames source parsed)
  | clear => .cleared

end Call

def answer (e : Evaluator) : Call → Answer × Evaluator
  | .execute env source =>
    let (result, e) := e.execute env source
    (.value result, e)
  | .validate source =>
    let (valid, e) := e.validate source
    (.validity valid, e)
  | .extract source =>
    let (names, e) := e.extract source
    (.names names, e)
  | .clear => (.cleared, e.clear)

variable {e : Evaluator} {source : String} {c : Call}

theorem answer_of_source? (h : c.source? = some source) :
    e.answer c = (c.answer (e.parse source).1, (e.parse source).2) := by
  cases c with
  | execute | validate | extract =>
    cases h
    rfl
  | clear => cases h

/-- What is kept is what the texts are parsed to, each text once and not more than there is room
for. -/
structure Faithful (e : Evaluator) : Prop where
  parsed : ∀ x ∈ e.parsed, Expr.parse x.1 = .ok x.2
  nodup : (e.parsed.map Prod.fst).Nodup
  size_le : e.size ≤ e.capacity

namespace Faithful

theorem empty (capacity : Nat) : Faithful { capacity } where
  parsed := List.forall_mem_nil _
  nodup := .nil
  size_le := Nat.zero_le _

theorem parse_of_lookup (h : e.Faithful) {expr : Expr}
    (known : e.parsed.lookup source = some expr) : Expr.parse source = .ok expr := by
  obtain ⟨before, behind, he, -⟩ := List.lookup_eq_some_iff.mp known
  exact h.parsed (source, expr) (he ▸ List.mem_append_right _ (.head _))

theorem keep (h : e.Faithful) {expr : Expr} (parsed : Expr.parse source = .ok expr)
    (unknown : e.parsed.lookup source = none) : (e.keep source expr).Faithful := by
  unfold Evaluator.keep
  split
  · exact h
  · next room =>
    split
    · -- the evaluator is full: it forgets all but the new text
      exact ⟨List.forall_mem_singleton.mpr parsed, List.pairwise_singleton ..,
        Nat.one_le_iff_ne_zero.mpr room⟩
    · next full =>
      refine ⟨List.forall_mem_cons.mpr ⟨parsed, h.parsed⟩, ?_, ?_⟩
      · refine List.nodup_cons.mpr ⟨fun hm ↦ ?_, h.nodup⟩
        obtain ⟨x, hx, rfl⟩ := List.mem_map.mp hm
        simpa using List.lookup_eq_none_iff.mp unknown x hx
      · exact Nat.not_le.mp full

/-- A text is parsed as if nothing were remembered. -/
theorem parse (h : e.Faithful) (source : String) :
    (e.parse source).1 = (Expr.parse source).mapError (.syntactic source) ∧
      (e.parse source).2.Faithful := by
  unfold Evaluator.parse
  split
  · next expr known =>
    rw [h.parse_of_lookup known]
    exact ⟨rfl, h⟩
  · next unknown =>
    split
    · next expr parsed => exact ⟨parsed ▸ rfl, h.keep parsed unknown⟩
    · next error failed => exact ⟨failed ▸ rfl, h⟩

/-- What does not parse is not remembered. -/
theorem parse_of_error (h : e.Faithful) {error : SyntaxError}
    (failed : Expr.parse source = .error error) :
    e.parsed.lookup source = none ∧ (e.parse source).2 = e := by
  have unknown : e.parsed.lookup source = none := by
    refine Option.eq_none_iff_forall_ne_some.mpr fun expr known ↦ ?_
    cases failed.symm.trans (h.parse_of_lookup known)
  refine ⟨unknown, ?_⟩
  simp only [Evaluator.parse, unknown, failed]

theorem execute (h : e.Faithful) (env : Env) (source : String) :
    (e.execute env source).1 = Expr.run env source ∧ (e.execute env source).2.Faithful := by
  obtain ⟨parsed, kept⟩ := h.parse source
  refine ⟨?_, kept⟩
  simp only [Evaluator.execute, parsed, Expr.run]
  cases Expr.parse source with
  | ok expr => rfl
  | error error => rfl

theorem answer (h : e.Faithful) (c : Call) :
    (e.answer c).1 = (({ capacity := 0 } : Evaluator).answer c).1 ∧ (e.answer c).2.Faithful := by
  cases hc : c.source? with
  | none =>
    cases c with
    | clear => exact ⟨rfl, empty e.capacity⟩
    | execute | validate | extract => cases hc
  | some source =>
    obtain ⟨parsed, kept⟩ := h.parse source
    rw [answer_of_source? hc, answer_of_source? hc, parsed, ((empty 0).parse source).1]
    exact ⟨rfl, kept⟩

end Faithful

theorem capacity_parse (e : Evaluator) (source : String) :
    (e.parse source).2.capacity = e.capacity := by
  unfold parse keep
  repeat' split
  all_goals rfl

theorem capacity_answer (e : Evaluator) (c : Call) : (e.answer c).2.capacity = e.capacity := by
  cases c with
  | clear => rfl
  | execute env source | validate source | extract source => exact e.capacity_parse source

/-- Whatever is asked of an evaluator, it answers as one that remembers nothing. -/
theorem replies_answer (capacity : Nat) (calls : List Call) :
    (replies answer { capacity } calls).1 =
        calls.map (fun c ↦ (({ capacity := 0 } : Evaluator).answer c).1) ∧
      (replies answer { capacity } calls).2.Faithful ∧
      (replies answer { capacity } calls).2.capacity = capacity := by
  refine replies_eq_map (P := fun e : Evaluator ↦ e.Faithful ∧ e.capacity = capacity) ?_
    ⟨Faithful.empty capacity, rfl⟩ calls
  rintro e c ⟨h, rfl⟩
  obtain ⟨same, kept⟩ := h.answer c
  exact ⟨same, kept, e.capacity_answer c⟩

end Evaluator

end LivePage
