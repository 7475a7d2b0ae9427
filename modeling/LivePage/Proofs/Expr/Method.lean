import LivePage.Proofs.Expr.Chain
import LivePage.Proofs.Outcome

/-!
# Members and methods of values

A member is one of the value of its target, and a method is called on this value, with the values of
its arguments.
-/

namespace LivePage.Expr

variable {env : Env} {e target : Expr} {es arguments : List Expr} {v : Value} {vs args : List Value}

theorem eval_literal (env : Env) (v : Value) : (literal v).eval env = .ok v := by
  rw [eval, reach]
  rfl

theorem evalItems_nil : evalItems env [] = .ok [] := by rw [evalItems]

theorem evalItems_cons (h : e.eval env = .ok v) (hs : evalItems env es = .ok vs) :
    evalItems env (e :: es) = .ok (v :: vs) := by
  obtain ⟨v?, hreach, hv⟩ := bind_eq_ok_iff.mp h
  cases hv
  rw [evalItems, hreach, hs]
  rfl

/-- A chain that has a value other than null was followed to its end. -/
theorem reach_of_eval (h : e.eval env = .ok v) (hv : v ≠ .null) : reach env e = .ok (some v) := by
  obtain ⟨v?, hreach, h⟩ := bind_eq_ok_iff.mp h
  cases v? with
  | none =>
    cases h
    exact absurd rfl hv
  | some w =>
    cases h
    exact hreach

theorem not_isNull_of_ne (hv : v ≠ .null) : v.isNull = false := by
  rw [← Bool.not_eq_true, Value.isNull_iff]
  exact hv

theorem eval_member (h : target.eval env = .ok v) (hv : v ≠ .null) (name : String)
    (optional : Bool) : (member target name optional).eval env = .ok (v.property name) := by
  have hlink := reach_onto_of_some (l := .member name optional) (reach_of_eval h hv)
  rw [Link.onto, Link.follow, not_isNull_of_ne hv, if_neg Bool.false_ne_true] at hlink
  rw [eval, hlink]
  rfl

/-- What a method comes to, be its links optional or not. -/
theorem eval_method (h : target.eval env = .ok v) (hv : v ≠ .null)
    (hargs : evalItems env arguments = .ok args) (name : String) (optionalMember optional : Bool) :
    (call (member target name optionalMember) arguments optional).eval env =
      Builtin.callMethod v name args := by
  have hlink := reach_onto_of_some (l := .method name optionalMember arguments optional)
    (reach_of_eval h hv)
  rw [Link.onto, Link.follow, not_isNull_of_ne hv, if_neg Bool.false_ne_true, hargs,
    ok_bind] at hlink
  rw [eval, hlink]
  cases Builtin.callMethod v name args <;> rfl

end LivePage.Expr
