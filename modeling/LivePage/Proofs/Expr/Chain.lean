import Mathlib
import LivePage.Expr.Eval

/-!
# Chains of links

A chain of links is read from left to right.  An optional link that meets null ends the chain, which
is then null, and what is written behind it is not evaluated; a link that is not optional has no
value at null.  The position of an index is evaluated before its target is looked at, so a fault in
it comes through where the target is null, whether the link is optional or not.
-/

namespace LivePage.Expr

/-- A step of a chain from a value: to a member, to what is at a position, or to the result of a
method. -/
inductive Link where
  | member (property : String) (optional : Bool)
  | index (position : Expr) (optional : Bool)
  | method (property : String) (optionalMember : Bool) (arguments : List Expr) (optional : Bool)

namespace Link

def isOptional : Link → Bool
  | member _ optional | index _ optional => optional
  | method _ optionalMember _ optional => optionalMember || optional

/-- The expression that a link makes of its target. -/
def onto (target : Expr) : Link → Expr
  | member property optional => .member target property optional
  | index position optional => .index target position optional
  | method property optionalMember arguments optional =>
    .call (.member target property optionalMember) arguments optional

/-- What a link comes to from the value of its target; nothing where it ends the chain. -/
def follow (env : Env) (v : Value) : Link → Except EvalFault (Option Value)
  | member property optional =>
    if v.isNull then if optional then .ok none else .error (.nullAccess property)
    else .ok (some (v.property property))
  | index position optional => do
    let i ← eval env position
    if v.isNull then if optional then .ok none else .error (.nullAccess i.display)
    else .ok (some (v.atIndex i))
  | method property optionalMember arguments optional =>
    if v.isNull then
      if optionalMember || optional then .ok none else .error (.nullAccess property)
    else do
      let args ← evalItems env arguments
      return some (← Builtin.callMethod v property args)

end Link

/-- An expression with links behind it, one after another. -/
def through (base : Expr) (links : List Link) : Expr := links.foldl Link.onto base

variable {env : Env} {target base : Expr} {l : Link} {links : List Link} {v : Value}
  {fault : EvalFault}

/-- A name stands for a group of functions only where it has no value. -/
theorem group?_eq_none (h : ∀ fault, reach env target ≠ .error fault) :
    group? env target = none := by
  cases target with
  | identifier name =>
    rw [group?]
    split
    · next hg =>
      simp only [Bool.and_eq_true, Option.isNone_iff_eq_none] at hg
      exact absurd (by rw [reach, hg.2]) (h (.undefinedVariable name))
    · rfl
  | _ => rfl

/-- A link is followed from the value of its target, if there is one. -/
theorem reach_onto (h : group? env target = none) :
    reach env (l.onto target) = reach env target >>= fun
      | none => .ok none
      | some v => l.follow env v := by
  cases l with
  | member property optional =>
    rw [Link.onto, reach, h]
    rfl
  | index position optional =>
    rw [Link.onto, reach]
    simp only [Link.follow, eval]
    cases reach env target with
    | error fault => rfl
    | ok v? =>
      cases v? with
      | none => rfl
      | some v => cases reach env position <;> rfl
  | method property optionalMember arguments optional =>
    rw [Link.onto, reach, h]
    rfl

theorem reach_onto_of_some (h : reach env target = .ok (some v)) :
    reach env (l.onto target) = l.follow env v := by
  rw [reach_onto (group?_eq_none fun fault ↦ by simp [h]), h]
  rfl

/-- What ends a chain ends it whatever follows. -/
theorem reach_through_of_none (h : reach env base = .ok none) (links : List Link) :
    reach env (base.through links) = .ok none := by
  induction links generalizing base with
  | nil => exact h
  | cons l r ih =>
    change reach env ((l.onto base).through r) = _
    refine ih ?_
    rw [reach_onto (group?_eq_none fun fault ↦ by simp [h]), h]
    rfl

/-- A fault comes through whatever follows. -/
theorem reach_through_of_error (h : reach env (l.onto base) = .error fault) (links : List Link) :
    reach env ((l.onto base).through links) = .error fault := by
  induction links generalizing base l with
  | nil => exact h
  | cons l' r ih =>
    change reach env ((l'.onto (l.onto base)).through r) = _
    refine ih ?_
    have hg : group? env (l.onto base) = none := by cases l <;> rfl
    rw [reach_onto hg, h]
    rfl

theorem Link.follow_null_of_optional (ho : l.isOptional = true) (hl : ∀ e, l ≠ .index e true) :
    l.follow env .null = .ok none := by
  cases l with
  | member property optional => simp_all [Link.follow, Link.isOptional]
  | index position optional => exact absurd (by rw [show optional = true from ho]) (hl position)
  | method property optionalMember arguments optional =>
    simp_all [Link.follow, Link.isOptional]

/-- At null an index has the fault of its position, or else ends the chain or has a fault of its
own. -/
theorem Link.follow_null_index (position : Expr) (optional : Bool) :
    (Link.index position optional).follow env .null = eval env position >>= fun i ↦
      if optional then .ok none else .error (.nullAccess i.display) := rfl

theorem Link.follow_null_of_not_optional (ho : l.isOptional = false) :
    ∃ fault, l.follow env .null = .error fault := by
  cases l with
  | member property optional =>
    exact ⟨.nullAccess property, by simp_all [Link.follow, Link.isOptional]⟩
  | index position optional =>
    obtain rfl : optional = false := ho
    rw [follow_null_index]
    cases eval env position with
    | error fault => exact ⟨fault, rfl⟩
    | ok i => exact ⟨.nullAccess i.display, rfl⟩
  | method property optionalMember arguments optional =>
    exact ⟨.nullAccess property, by simp_all [Link.follow, Link.isOptional]⟩

section

variable {before : List Link} (h : reach env (base.through before) = .ok (some v))

include h

theorem through_append (after : List Link) :
    base.through (before ++ l :: after) = (l.onto (base.through before)).through after ∧
      reach env (l.onto (base.through before)) = l.follow env v :=
  ⟨List.foldl_append, reach_onto_of_some h⟩

/-- A link that ends its chain makes it null. -/
theorem eval_through_of_follow_none (hl : l.follow env v = .ok none) (after : List Link) :
    eval env (base.through (before ++ l :: after)) = .ok .null := by
  obtain ⟨he, hr⟩ := through_append (l := l) h after
  rw [he, eval, reach_through_of_none (hr.trans hl)]
  rfl

theorem eval_through_of_follow_error (hl : l.follow env v = .error fault) (after : List Link) :
    eval env (base.through (before ++ l :: after)) = .error fault := by
  obtain ⟨he, hr⟩ := through_append (l := l) h after
  rw [he, eval, reach_through_of_error (hr.trans hl)]
  rfl

end

/-- What becomes of a chain that meets null, whatever is written behind the link that meets it.  An
optional member or method makes it null, whatever the arguments of the method are; an optional index
makes it null where its position has a value, and else has the fault of the position; and a link
that is not optional has a fault. -/
theorem optional_link_ends_chain (env : Env) (base : Expr) (before after : List Link) (l : Link)
    (h : reach env (base.through before) = .ok (some .null)) :
    (l.isOptional = true → (∀ e, l ≠ .index e true) →
      eval env (base.through (before ++ l :: after)) = .ok .null) ∧
    (∀ e, l = .index e true →
      eval env (base.through (before ++ l :: after)) = (eval env e).map fun _ ↦ .null) ∧
    (l.isOptional = false →
      ∃ fault, eval env (base.through (before ++ l :: after)) = .error fault) := by
  refine ⟨fun ho hl ↦ ?_, ?_, fun ho ↦ ?_⟩
  · exact eval_through_of_follow_none h (Link.follow_null_of_optional ho hl) after
  · rintro e rfl
    cases he : eval env e with
    | error fault =>
      exact eval_through_of_follow_error h (by rw [Link.follow_null_index, he]; rfl) after
    | ok i => exact eval_through_of_follow_none h (by rw [Link.follow_null_index, he]; rfl) after
  · obtain ⟨fault, hl⟩ := Link.follow_null_of_not_optional ho
    exact ⟨fault, eval_through_of_follow_error h hl after⟩

/-- Behind a user that is null nothing is evaluated, be it a name without a value, a member of null
or a division by zero. -/
theorem null_user_ends_chain :
    let env : Env := ⟨[("user", .null)], 0⟩
    let missing := identifier "missing"
    let quotient := binary .divide (literal (.int 1)) (literal (.int 0))
    reach env (identifier "user") = .ok (some .null) ∧
    eval env (through (identifier "user") [.member "name" true, .index missing false]) =
      .ok .null ∧
    eval env (through (identifier "user") [.method "slice" true [quotient] false]) = .ok .null ∧
    eval env (through (identifier "user") [.index (literal (.int 0)) true, .member "id" false]) =
      .ok .null ∧
    ∃ fault, eval env (through (identifier "user") [.index (literal (.int 0)) false]) =
      .error fault := by
  intro env missing quotient
  have h : reach env (identifier "user") = .ok (some .null) := by rw [reach]; rfl
  have ends (after : List Link) (l : Link) :=
    optional_link_ends_chain env (identifier "user") [] after l h
  refine ⟨h, (ends _ _).1 rfl nofun, (ends _ _).1 rfl nofun, ?_, (ends _ _).2.2 rfl⟩
  refine ((ends _ _).2.1 _ rfl).trans ?_
  rw [eval, reach]
  rfl

/-- The position of an optional index is evaluated though its target is null. -/
theorem optional_index_faults_at_null :
    reach ⟨[], 0⟩ (literal .null) = .ok (some .null) ∧
    eval ⟨[], 0⟩ (through (literal .null) [.index (identifier "missing") true]) =
      .error (.undefinedVariable "missing") ∧
    run ⟨[], 0⟩ "null?.[missing]" =
      .error (.evaluation "null?.[missing]" (.undefinedVariable "missing")) := by
  refine ⟨by rw [reach], ?_, ?_⟩
  · cbv
  · cbv

end LivePage.Expr
