import LivePage.Expr.Eval
import LivePage.Proofs.Safety.Builtin
import LivePage.Proofs.Safety.Counter

/-!
# No expression can crash

From its text to its value an expression takes steps that can crash: tokens and numbers are cut out
of texts, nested parts are counted, arguments and items are taken by their places.  All these are in
what is called here; evaluation has none of its own and calls functions.

Whatever the text and the scope, every such step has what it needs, and what comes out is what the
running definitions come to: a value or an error.
-/

namespace LivePage

namespace Checked

/-- Steps of evaluation. -/
abbrev Evaluating := ExceptT EvalFault Checked

variable {α β : Type} (env : Env)

/-- What comes of steps that cannot crash. -/
def settled (r : Except EvalFault α) : Evaluating α := ExceptT.mk (pure r)

mutual

/-- Evaluates an expression; there is no value if an optional link met null. -/
def reach : Expr → Evaluating (Option Value)
  | .literal v => return some v
  | .identifier name =>
    match env.scope.get? name with
    | some v => return some v
    | none => throw (.undefinedVariable name)
  | .array items => do
    let vs ← evalItems items
    return some (.arr vs)
  | .object entries => do
    let members ← evalEntries entries
    return some (.object members)
  | .member target property optional =>
    match (Expr.group? env target).bind (Builtin.constant? · property) with
    | some v => return some v
    | none => do
      match ← reach target with
      | none => return none
      | some v =>
        if v.isNull then
          if optional then return none else throw (.nullAccess property)
        else return some (v.property property)
  | .index target position optional => do
    match ← reach target with
    | none => return none
    | some v =>
      let i := (← reach position).getD .null
      if v.isNull then
        if optional then return none else throw (.nullAccess i.display)
      else return some (v.atIndex i)
  | .call (.identifier name) arguments _ => do
    let args ← evalItems arguments
    return some (← ExceptT.mk (callGlobal name args))
  | .call (.member target property optionalMember) arguments optional =>
    match Expr.group? env target with
    | some group => do
      let args ← evalItems arguments
      return some (← ExceptT.mk (callGroup env.clock group property args))
    | none => do
      match ← reach target with
      | none => return none
      | some v =>
        if v.isNull then
          if optionalMember || optional then return none else throw (.nullAccess property)
        else
          let args ← evalItems arguments
          return some (← ExceptT.mk (callMethod v property args))
  | .call _ _ _ => throw (.unknownFunction "<computed callee>")
  | .unary op operand => do
    let v := (← reach operand).getD .null
    return some (Expr.applyUnary op v)
  | .binary op left right => do
    let a := (← reach left).getD .null
    let b := (← reach right).getD .null
    return some (← settled (Expr.applyBinary op a b))
  | .logical op left right => do
    let a := (← reach left).getD .null
    if Expr.decidedBy op a then return some a
    else
      let b := (← reach right).getD .null
      return some b
  | .conditional test consequent alternate => do
    let t := (← reach test).getD .null
    if t.truthy then
      let v := (← reach consequent).getD .null
      return some v
    else
      let v := (← reach alternate).getD .null
      return some v

def evalItems : List Expr → Evaluating (List Value)
  | [] => return []
  | e :: r => do
    let v := (← reach e).getD .null
    let vs ← evalItems r
    return v :: vs

def evalEntries : List (String × Expr) → Evaluating (List (String × Value))
  | [] => return []
  | (k, e) :: r => do
    let v := (← reach e).getD .null
    let vs ← evalEntries r
    return (k, v) :: vs

end

/-- The value that a text spells. -/
def run (source : String) : Checked (Except ExprError Value) := do
  match ← parse source with
  | (.error e, _) => return .error (.syntactic source e)
  | (.ok e, _) =>
    let value ← (reach env e).run
    return (value.map (·.getD .null)).mapError (.evaluation source)

theorem bind_settled {r : Except EvalFault α} {f : α → Evaluating β} {g : α → Except EvalFault β}
    (h : ∀ a, f a = settled (g a)) : settled r >>= f = settled (r >>= g) := by
  cases r with
  | error e => rfl
  | ok a => exact h a

theorem ite_settled (p : Prop) [Decidable p] (r r' : Except EvalFault α) :
    (if p then settled r else settled r') = settled (if p then r else r') :=
  (apply_ite settled p r r').symm

variable {env}

mutual

/-- Evaluation comes to what it comes to without checks. -/
theorem reach_eq : (e : Expr) → reach env e = settled (Expr.reach env e)
  | .literal _ => rfl
  | .identifier name => by
    rw [reach, Expr.reach]
    cases env.scope.get? name <;> rfl
  | .array items => by
    rw [reach, Expr.reach, evalItems_eq items]
    exact bind_settled fun _ ↦ rfl
  | .object entries => by
    rw [reach, Expr.reach, evalEntries_eq entries]
    exact bind_settled fun _ ↦ rfl
  | .member target property optional => by
    rw [reach, Expr.reach, reach_eq target]
    cases (Expr.group? env target).bind (Builtin.constant? · property) with
    | some v => rfl
    | none =>
      refine bind_settled fun v? ↦ ?_
      cases v? with
      | none => rfl
      | some v =>
        dsimp only
        rw [← ite_settled, ← ite_settled]
        rfl
  | .index target position optional => by
    rw [reach, Expr.reach, reach_eq target, reach_eq position]
    refine bind_settled fun v? ↦ ?_
    cases v? with
    | none => rfl
    | some v =>
      refine bind_settled fun i ↦ ?_
      rw [← ite_settled, ← ite_settled]
      rfl
  | .call (.identifier name) arguments optional => by
    rw [reach, Expr.reach, evalItems_eq arguments]
    refine bind_settled fun args ↦ ?_
    rw [callGlobal_eq]
    exact bind_settled fun _ ↦ rfl
  | .call (.member target property optionalMember) arguments optional => by
    rw [reach, Expr.reach, reach_eq target, evalItems_eq arguments]
    cases Expr.group? env target with
    | some group =>
      refine bind_settled fun args ↦ ?_
      rw [callGroup_eq]
      exact bind_settled fun _ ↦ rfl
    | none =>
      refine bind_settled fun v? ↦ ?_
      cases v? with
      | none => rfl
      | some v =>
        dsimp only
        split
        · rw [← ite_settled]
          rfl
        · refine bind_settled fun args ↦ ?_
          rw [callMethod_eq]
          exact bind_settled fun _ ↦ rfl
  | .call (.literal _) _ _ | .call (.array _) _ _ | .call (.object _) _ _
  | .call (.index _ _ _) _ _ | .call (.call _ _ _) _ _ | .call (.unary _ _) _ _
  | .call (.binary _ _ _) _ _ | .call (.logical _ _ _) _ _
  | .call (.conditional _ _ _) _ _ => rfl
  | .unary op operand => by
    rw [reach, Expr.reach, reach_eq operand]
    exact bind_settled fun _ ↦ rfl
  | .binary op left right => by
    rw [reach, Expr.reach, reach_eq left, reach_eq right]
    exact bind_settled fun _ ↦ bind_settled fun _ ↦ bind_settled fun _ ↦ rfl
  | .logical op left right => by
    rw [reach, Expr.reach, reach_eq left, reach_eq right]
    refine bind_settled fun a ↦ ?_
    dsimp only
    split
    · rfl
    · exact bind_settled fun _ ↦ rfl
  | .conditional test consequent alternate => by
    rw [reach, Expr.reach, reach_eq test, reach_eq consequent, reach_eq alternate]
    refine bind_settled fun t ↦ ?_
    dsimp only
    split
    · exact bind_settled fun _ ↦ rfl
    · exact bind_settled fun _ ↦ rfl

theorem evalItems_eq : (es : List Expr) → evalItems env es = settled (Expr.evalItems env es)
  | [] => rfl
  | e :: r => by
    rw [evalItems, Expr.evalItems, reach_eq e, evalItems_eq r]
    exact bind_settled fun _ ↦ bind_settled fun _ ↦ rfl

theorem evalEntries_eq : (es : List (String × Expr)) →
    evalEntries env es = settled (Expr.evalEntries env es)
  | [] => rfl
  | (k, e) :: r => by
    rw [evalEntries, Expr.evalEntries, reach_eq e, evalEntries_eq r]
    exact bind_settled fun _ ↦ bind_settled fun _ ↦ rfl

end

theorem run_eq (env : Env) (source : String) :
    run env source = .ok (Expr.run env source) := by
  obtain ⟨count, parsed, -⟩ := parse_eq source
  rw [run, parsed, Expr.run]
  cases Expr.parse source with
  | error e => rfl
  | ok e =>
    dsimp only [bind, Except.bind]
    rw [reach_eq e, Expr.eval]
    cases Expr.reach env e <;> rfl

/-- No expression can crash.  Whatever the text and the scope, tokens, the tree and the value are
found without a crash, each as the running definition finds it, and there is nothing on the counter
of nested expressions behind a tree.  No function can crash either, whatever its receiver and its
arguments are, and the bounds that it takes from them are in order and not beyond the end. -/
theorem never_crashes (env : Env) (source : String) :
    tokenize source = .ok (LivePage.tokenize source) ∧
      (∃ count, parse source = .ok (Expr.parse source, count) ∧
        ((Expr.parse source).isOk → count = 0)) ∧
      run env source = .ok (Expr.run env source) ∧
      (∀ (name : String) (args : List Value),
        callGlobal name args = .ok (Builtin.callGlobal name args) ∧
        (∀ group, callGroup env.clock group name args =
          .ok (Builtin.callGroup env.clock group name args)) ∧
        ∀ receiver, callMethod receiver name args = .ok (Builtin.callMethod receiver name args)) ∧
      ∀ (args : List Value) (length : Nat),
        Builtin.InBounds (Builtin.sliceBounds args length) length ∧
        Builtin.InBounds (Builtin.substringBounds args length) length :=
  ⟨tokenize_eq source, parse_eq source, run_eq env source,
    fun name args ↦ ⟨callGlobal_eq name args, fun group ↦ callGroup_eq env.clock group name args,
      fun receiver ↦ callMethod_eq receiver name args⟩,
    fun args length ↦ ⟨Builtin.inBounds_slice args length, Builtin.inBounds_substring args length⟩⟩

end Checked

end LivePage
