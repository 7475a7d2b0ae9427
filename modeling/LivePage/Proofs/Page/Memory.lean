import Mathlib
import LivePage.Page.Judge
import LivePage.Proofs.Expr.Memory

/-!
# What a judge remembers

A judge remembers expressions and patterns.  Whatever was asked of it before, its answers are those
of conditions by themselves.
-/

namespace LivePage

namespace Judge

/-- What can be asked of a judge, or of the evaluator that it shares with others. -/
inductive Call where
  | expression (call : Evaluator.Call)
  | test (c : Context) (clock : Int) (x : Condition)
  | holds (c : Context) (clock : Int) (x : Condition)
  | each (c : Context) (clock : Int) (xs : List Condition)

inductive Answer where
  | expression (answer : Evaluator.Answer)
  | outcome (result : Except ConditionError Bool)
  | verdict (holds : Bool)
  | verdicts (hold : List Bool)

def answer (j : Judge) : Call → Answer × Judge
  | .expression call =>
    let (a, e) := j.expressions.answer call
    (.expression a, { j with expressions := e })
  | .test c clock x =>
    let (result, j) := j.test c clock x
    (.outcome result, j)
  | .holds c clock x =>
    let (b, j) := j.holds c clock x
    (.verdict b, j)
  | .each c clock xs =>
    let (bs, j) := j.each c clock xs
    (.verdicts bs, j)

variable {j : Judge} {c : Context} {clock : Int}

/-- What is kept is what the texts are parsed to. -/
structure Faithful (j : Judge) : Prop where
  expressions : j.expressions.Faithful
  patterns : ∀ x ∈ j.patterns, Pattern.parse? x.1 = some x.2

namespace Faithful

theorem empty (capacity : Nat) : Faithful { expressions := { capacity } } :=
  ⟨.empty capacity, List.forall_mem_nil _⟩

theorem pattern (h : j.Faithful) (source : String) :
    (j.pattern source).1 = Pattern.parse? source ∧ (j.pattern source).2.Faithful := by
  unfold Judge.pattern
  split
  · next p known =>
    obtain ⟨before, behind, he, -⟩ := List.lookup_eq_some_iff.mp known
    have parsed := h.patterns (source, p) (he ▸ List.mem_append_right _ (.head _))
    exact ⟨parsed.symm, h⟩
  · split
    · next p parsed =>
      exact ⟨parsed.symm, h.expressions, List.forall_mem_cons.mpr ⟨parsed, h.patterns⟩⟩
    · next failed => exact ⟨failed.symm, h⟩

theorem compare (h : j.Faithful) (comparison : Comparison) (actual expected : Value) :
    (j.compare comparison actual expected).1 = comparison.holds actual expected ∧
      (j.compare comparison actual expected).2.Faithful := by
  cases comparison with
  | isMatch =>
    obtain ⟨parsed, kept⟩ := h.pattern expected.display
    simp only [Judge.compare, Comparison.holds, ← parsed]
    generalize j.pattern expected.display = read at kept
    obtain ⟨p | p, k⟩ := read
    · exact ⟨rfl, kept⟩
    · exact ⟨rfl, kept⟩
  | _ => exact ⟨rfl, h⟩

theorem raw (h : j.Faithful) (expression : String) :
    (j.test c clock (.raw expression)).1 = Condition.test c clock (.raw expression) ∧
      (j.test c clock (.raw expression)).2.Faithful := by
  obtain ⟨same, kept⟩ := h.expressions.execute (c.env clock) expression
  simp only [Judge.test, Condition.test, ← same]
  generalize j.expressions.execute (c.env clock) expression = executed at kept
  obtain ⟨error | v, e⟩ := executed
  · exact ⟨rfl, kept, h.patterns⟩
  · exact ⟨rfl, kept, h.patterns⟩

variable (c clock)

mutual

/-- A condition is evaluated as if nothing were remembered. -/
theorem test : (x : Condition) → {j : Judge} → j.Faithful →
    (j.test c clock x).1 = x.test c clock ∧ (j.test c clock x).2.Faithful
  | .simple field none value, _, h => ⟨rfl, h⟩
  | .simple field (some comparison) value, j, h => by
    unfold Judge.test Condition.test
    split
    · exact ⟨rfl, h⟩
    · exact h.compare ..
  | .complex .and conditions, j, h => by
    obtain ⟨same, kept⟩ := allHold conditions h
    exact ⟨congrArg Except.ok same, kept⟩
  | .complex .or conditions, j, h => by
    obtain ⟨same, kept⟩ := anyHolds conditions h
    exact ⟨congrArg (fun b ↦ Except.ok (conditions.isEmpty || b)) same, kept⟩
  | .raw expression, j, h => h.raw expression
  | .unknown, _, h => ⟨rfl, h⟩

theorem allHold : (xs : List Condition) → {j : Judge} → j.Faithful →
    (j.allHold c clock xs).1 = Condition.allHold c clock xs ∧
      (j.allHold c clock xs).2.Faithful
  | [], _, h => ⟨rfl, h⟩
  | x :: r, j, h => by
    obtain ⟨same, kept⟩ := test x h
    obtain ⟨rest, last⟩ := allHold r kept
    unfold Judge.allHold Condition.allHold
    simp only [← same]
    split
    · next holds => simp [holds, rest, last]
    · next fails => simp [fails, kept]

theorem anyHolds : (xs : List Condition) → {j : Judge} → j.Faithful →
    (j.anyHolds c clock xs).1 = Condition.anyHolds c clock xs ∧
      (j.anyHolds c clock xs).2.Faithful
  | [], _, h => ⟨rfl, h⟩
  | x :: r, j, h => by
    obtain ⟨same, kept⟩ := test x h
    obtain ⟨rest, last⟩ := anyHolds r kept
    unfold Judge.anyHolds Condition.anyHolds
    simp only [← same]
    split
    · next holds => simp [holds, kept]
    · next fails => simp [fails, rest, last]

end

theorem holds (h : j.Faithful) (x : Condition) :
    (j.holds c clock x).1 = x.holds c clock ∧ (j.holds c clock x).2.Faithful := by
  obtain ⟨same, kept⟩ := test c clock x h
  exact ⟨congrArg Condition.closed same, kept⟩

theorem each (h : j.Faithful) (xs : List Condition) :
    (j.each c clock xs).1 = xs.map (·.holds c clock) ∧ (j.each c clock xs).2.Faithful := by
  induction xs generalizing j with
  | nil => exact ⟨rfl, h⟩
  | cons x r ih =>
    obtain ⟨same, kept⟩ := h.holds c clock x
    obtain ⟨rest, last⟩ := ih kept
    exact ⟨congrArg₂ List.cons same rest, last⟩

/-- A judge answers a call as a new one does. -/
theorem answer (h : j.Faithful) (call : Call) :
    (j.answer call).1 = (({} : Judge).answer call).1 ∧ (j.answer call).2.Faithful := by
  have new : Faithful {} := empty 512
  cases call with
  | expression call =>
    obtain ⟨same, kept⟩ := h.expressions.answer call
    have fresh := (new.expressions.answer call).1
    exact ⟨congrArg Answer.expression (same.trans fresh.symm), kept, h.patterns⟩
  | test c clock x =>
    obtain ⟨same, kept⟩ := test c clock x h
    have fresh := (test c clock x new).1
    exact ⟨congrArg Answer.outcome (same.trans fresh.symm), kept⟩
  | holds c clock x =>
    obtain ⟨same, kept⟩ := h.holds c clock x
    exact ⟨congrArg Answer.verdict (same.trans (new.holds c clock x).1.symm), kept⟩
  | each c clock xs =>
    obtain ⟨same, kept⟩ := h.each c clock xs
    exact ⟨congrArg Answer.verdicts (same.trans (new.each c clock xs).1.symm), kept⟩

end Faithful

/-- Whatever is asked of an evaluator with room for any number of texts, one call after another,
each answer is that of a new one that keeps nothing.  It never keeps more than there is room for,
and only what the texts are parsed to.  Text that does not parse is not kept, and leaves alone what
is.  So it is with a judge and the evaluator that it shares with others: each answer is that of a
new judge.  What expressions see, the time among it, is a part of each call. -/
theorem answers_without_memory (capacity : Nat) :
    (∀ calls : List Evaluator.Call,
      (replies Evaluator.answer { capacity } calls).1 =
        calls.map fun c ↦ (({ capacity := 0 } : Evaluator).answer c).1) ∧
    (∀ calls : List Evaluator.Call,
      let e := (replies Evaluator.answer { capacity } calls).2
      e.size ≤ capacity ∧ (e.parsed.map Prod.fst).Nodup ∧
      (∀ x ∈ e.parsed, Expr.parse x.1 = .ok x.2) ∧
      ∀ c source error, Evaluator.Call.source? c = some source →
        Expr.parse source = .error error →
          e.parsed.lookup source = none ∧ (e.answer c).2 = e) ∧
    ∀ calls : List Call,
      (replies answer { expressions := { capacity } } calls).1 =
        calls.map fun c ↦ (({} : Judge).answer c).1 := by
  refine ⟨fun calls ↦ (Evaluator.replies_answer capacity calls).1, fun calls ↦ ?_, fun calls ↦ ?_⟩
  · obtain ⟨-, faithful, same⟩ := Evaluator.replies_answer capacity calls
    refine ⟨Nat.le_trans faithful.size_le (Nat.le_of_eq same), faithful.nodup, faithful.parsed, ?_⟩
    intro c source error hc failed
    obtain ⟨unknown, unchanged⟩ := faithful.parse_of_error failed
    rw [Evaluator.answer_of_source? hc]
    exact ⟨unknown, unchanged⟩
  · exact (replies_eq_map (fun j call h ↦ h.answer call) (Faithful.empty capacity) calls).1

/-- With room for one text, the second takes the place of the first, and an open parenthesis is not
kept. -/
theorem forgets_first_text :
    let e := (replies Evaluator.answer { capacity := 1 } [.extract "a", .validate "b"]).2
    e.size = 1 ∧ (e.parsed.map Prod.fst) = ["b"] ∧ e.parsed.lookup "(" = none ∧
      (e.answer (.validate "(")).2 = e := by
  intro e
  obtain ⟨-, kept, -⟩ := answers_without_memory 1
  obtain ⟨-, -, -, refused⟩ := kept [.extract "a", .validate "b"]
  have failed : Expr.parse "(" = .error ⟨.expected "an expression" none, 1⟩ := by cbv
  have keys : e.parsed.map Prod.fst = ["b"] := by
    subst e
    cbv
  have size : e.size = 1 := by
    rw [Evaluator.size, ← List.length_map Prod.fst, keys]
    rfl
  exact ⟨size, keys, refused (.validate "(") "(" _ rfl failed⟩

end Judge

end LivePage
