import LivePage.Expr.Eval
import Mathlib.Logic.Basic

/-!
# What an expression shows to its surroundings

An expression is evaluated where it stands, but not always by itself: a name may stand for a group
of functions in front of a member, and a name or a member may be called.  Expressions that agree in
what they come to, in the group that they name and in all calls of them are not told apart by
whatever stands around them: one lemma for each kind of expression says so of its parts.
-/

namespace LivePage.Expr

/-- What an expression comes to, the group of functions that it names, and what calls of it come
to. -/
def observed (env : Env) (e : Expr) :
    Except EvalFault (Option Value) × Option String ×
      (List Expr → Bool → Except EvalFault (Option Value)) :=
  (reach env e, group? env e, fun arguments optional ↦ reach env (.call e arguments optional))

/-- An expression that names no group and cannot be called. -/
def isComputed : Expr → Bool
  | identifier _ | member _ _ _ => false
  | _ => true

variable {env : Env} {e e' : Expr}

/-- Of a computed expression only its value is seen. -/
theorem observed_eq_of_isComputed (h : e.isComputed = true) :
    observed env e = (reach env e, none, fun _ _ ↦
      .error (.unknownFunction "<computed callee>")) := by
  cases e with
  | identifier | member => cases h
  | _ => rfl

theorem observed_congr (h : e.isComputed = true) (h' : e'.isComputed = true)
    (hr : reach env e' = reach env e) : observed env e' = observed env e := by
  rw [observed_eq_of_isComputed h, observed_eq_of_isComputed h', hr]

theorem reach_eq_of_observed (h : observed env e' = observed env e) :
    reach env e' = reach env e := congrArg Prod.fst h

theorem group?_eq_of_observed (h : observed env e' = observed env e) :
    group? env e' = group? env e := congrArg (·.2.1) h

theorem reach_call_eq_of_observed (h : observed env e' = observed env e) (arguments : List Expr)
    (optional : Bool) : reach env (.call e' arguments optional) =
      reach env (.call e arguments optional) :=
  congrFun₂ (congrArg (·.2.2) h) arguments optional

/-! ## Parts of lists and objects -/

theorem evalItems_congr_cons {es es' : List Expr} (he : reach env e' = reach env e)
    (hs : evalItems env es' = evalItems env es) :
    evalItems env (e' :: es') = evalItems env (e :: es) := by
  rw [evalItems, evalItems, he, hs]

theorem evalEntries_congr_cons {ms ms' : List (String × Expr)} (key : String)
    (he : reach env e' = reach env e) (hs : evalEntries env ms' = evalEntries env ms) :
    evalEntries env ((key, e') :: ms') = evalEntries env ((key, e) :: ms) := by
  rw [evalEntries, evalEntries, he, hs]

theorem observed_array {es es' : List Expr} (h : evalItems env es' = evalItems env es) :
    observed env (.array es') = observed env (.array es) :=
  observed_congr rfl rfl (by rw [reach, reach, h])

theorem observed_object {ms ms' : List (String × Expr)}
    (h : evalEntries env ms' = evalEntries env ms) :
    observed env (.object ms') = observed env (.object ms) :=
  observed_congr rfl rfl (by rw [reach, reach, h])

/-! ## Parts of links -/

theorem observed_member (h : observed env e' = observed env e) (property : String)
    (optional : Bool) :
    observed env (.member e' property optional) = observed env (.member e property optional) := by
  have hr := reach_eq_of_observed h
  have hg := group?_eq_of_observed h
  refine Prod.ext ?_ (Prod.ext rfl (funext₂ fun arguments optional ↦ ?_))
  · change reach env _ = reach env _
    rw [reach, reach, hr, hg]
  · change reach env _ = reach env _
    rw [reach, reach, hr, hg]

theorem observed_index {position position' : Expr} (h : reach env e' = reach env e)
    (hp : reach env position' = reach env position) (optional : Bool) :
    observed env (.index e' position' optional) = observed env (.index e position optional) :=
  observed_congr rfl rfl (by rw [reach, reach, h, hp])

/-- A call depends on what its arguments come to. -/
theorem reach_call_congr {arguments arguments' : List Expr}
    (h : evalItems env arguments' = evalItems env arguments) (e : Expr) (optional : Bool) :
    reach env (.call e arguments' optional) = reach env (.call e arguments optional) := by
  cases e with
  | identifier => rw [reach, reach, h]
  | member => rw [reach, reach, h]
  | _ => rfl

theorem observed_call {arguments arguments' : List Expr} (h : observed env e' = observed env e)
    (ha : evalItems env arguments' = evalItems env arguments) (optional : Bool) :
    observed env (.call e' arguments' optional) = observed env (.call e arguments optional) :=
  observed_congr rfl rfl
    ((reach_call_eq_of_observed h _ _).trans (reach_call_congr ha e optional))

/-! ## Operands -/

theorem observed_unary (op : UnaryOp) (h : reach env e' = reach env e) :
    observed env (.unary op e') = observed env (.unary op e) :=
  observed_congr rfl rfl (by rw [reach, reach, h])

section

variable {left left' right right' : Expr} (hl : reach env left' = reach env left)
  (hr : reach env right' = reach env right)

include hl hr

theorem observed_binary (op : BinaryOp) :
    observed env (.binary op left' right') = observed env (.binary op left right) :=
  observed_congr rfl rfl (by rw [reach, reach, hl, hr])

theorem observed_logical (op : LogicalOp) :
    observed env (.logical op left' right') = observed env (.logical op left right) :=
  observed_congr rfl rfl (by rw [reach, reach, hl, hr])

end

theorem observed_conditional {test test' consequent consequent' alternate alternate' : Expr}
    (ht : reach env test' = reach env test) (hc : reach env consequent' = reach env consequent)
    (ha : reach env alternate' = reach env alternate) :
    observed env (.conditional test' consequent' alternate') =
      observed env (.conditional test consequent alternate) :=
  observed_congr rfl rfl (by rw [reach, reach, ht, hc, ha])

end LivePage.Expr
