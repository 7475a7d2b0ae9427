import Mathlib
import LivePage.Expr.Evaluator
import LivePage.Proofs.Expr.Memory
import LivePage.Proofs.Outcome

/-!
# What an expression observes

An expression sees of its scope only the names that are written in it.  The names that are no
variables, since they are reserved or well known, are seen as not defined in every scope that has
none of them.
-/

namespace LivePage

namespace Scope

/-- Scopes have the same values under some names, or none. -/
def AgreeOn (names : List String) (s t : Scope) : Prop := ∀ x ∈ names, s.get? x = t.get? x

variable {xs ys : List String} {s t : Scope}

/-- No reserved word and no well-known global is bound. -/
def NoCommonName (s : Scope) : Prop := ∀ x, Expr.isCommonName x → s.get? x = none

theorem agreeOn_append : AgreeOn (xs ++ ys) s t ↔ AgreeOn xs s t ∧ AgreeOn ys s t :=
  List.forall_mem_append

end Scope

namespace Expr

open Scope (AgreeOn agreeOn_append)

variable {s t : Scope} {clock : Int}

theorem group?_congr (e : Expr) (h : AgreeOn e.names s t) :
    group? ⟨s, clock⟩ e = group? ⟨t, clock⟩ e := by
  cases e with
  | identifier name => simp only [group?, h name (.head _)]
  | _ => rfl

mutual

/-- What is reached depends on the names that are written. -/
theorem reach_congr : (e : Expr) → AgreeOn e.names s t →
    reach ⟨s, clock⟩ e = reach ⟨t, clock⟩ e
  | literal _, _ => rfl
  | identifier name, h => by
    rw [reach, reach, h name (.head _)]
  | array items, h => by
    rw [reach, reach, evalItems_congr items h]
  | object entries, h => by
    rw [reach, reach, evalEntries_congr entries h]
  | member target property optional, h => by
    rw [reach, reach, group?_congr target h, reach_congr target h]
  | index target position optional, h => by
    obtain ⟨ht, hp⟩ := agreeOn_append.mp h
    rw [reach, reach, reach_congr target ht, reach_congr position hp]
  | call (identifier name) arguments optional, h => by
    obtain ⟨-, ha⟩ := agreeOn_append.mp h
    rw [reach, reach, evalItems_congr arguments ha]
  | call (member target property optionalMember) arguments optional, h => by
    obtain ⟨ht, ha⟩ := agreeOn_append.mp h
    rw [reach, reach, group?_congr target ht, reach_congr target ht, evalItems_congr arguments ha]
  | call (literal _) _ _, _ | call (array _) _ _, _ | call (object _) _ _, _
  | call (index _ _ _) _ _, _ | call (call _ _ _) _ _, _ | call (unary _ _) _ _, _
  | call (binary _ _ _) _ _, _ | call (logical _ _ _) _ _, _
  | call (conditional _ _ _) _ _, _ => rfl
  | unary op operand, h => by
    rw [reach, reach, reach_congr operand h]
  | binary op left right, h => by
    obtain ⟨hl, hr⟩ := agreeOn_append.mp h
    rw [reach, reach, reach_congr left hl, reach_congr right hr]
  | logical op left right, h => by
    obtain ⟨hl, hr⟩ := agreeOn_append.mp h
    rw [reach, reach, reach_congr left hl, reach_congr right hr]
  | conditional test consequent alternate, h => by
    obtain ⟨h, ha⟩ := agreeOn_append.mp h
    obtain ⟨ht, hc⟩ := agreeOn_append.mp h
    rw [reach, reach, reach_congr test ht, reach_congr consequent hc, reach_congr alternate ha]

theorem evalItems_congr : (items : List Expr) → AgreeOn (namesOfItems items) s t →
    evalItems ⟨s, clock⟩ items = evalItems ⟨t, clock⟩ items
  | [], _ => rfl
  | e :: r, h => by
    obtain ⟨he, hr⟩ := agreeOn_append.mp h
    rw [evalItems, evalItems, reach_congr e he, evalItems_congr r hr]

theorem evalEntries_congr : (entries : List (String × Expr)) →
    AgreeOn (namesOfEntries entries) s t →
    evalEntries ⟨s, clock⟩ entries = evalEntries ⟨t, clock⟩ entries
  | [], _ => rfl
  | (k, e) :: r, h => by
    obtain ⟨he, hr⟩ := agreeOn_append.mp h
    rw [evalEntries, evalEntries, reach_congr e he, evalEntries_congr r hr]

end

theorem mem_variablesAmong {names : List String} {x : String} :
    x ∈ variablesAmong names ↔ x ∈ names ∧ isCommonName x = false := by
  simp only [variablesAmong, List.mem_eraseDups, List.mem_filter, Bool.not_eq_true']

/-- Scopes that agree on the variables of an expression, and have none of the common names, agree on
all that is written in it. -/
theorem agreeOn_names (e : Expr) (hs : s.NoCommonName) (ht : t.NoCommonName)
    (h : AgreeOn (variablesAmong e.names) s t) : AgreeOn e.names s t := by
  intro x hx
  cases common : isCommonName x with
  | true => rw [hs x common, ht x common]
  | false => exact h x (mem_variablesAmong.mpr ⟨hx, common⟩)

/-- The value depends on the variables. -/
theorem eval_congr (e : Expr) (hs : s.NoCommonName) (ht : t.NoCommonName)
    (h : AgreeOn (variablesAmong e.names) s t) : e.eval ⟨s, clock⟩ = e.eval ⟨t, clock⟩ := by
  rw [eval, eval, reach_congr e (agreeOn_names e hs ht h)]

end Expr

/-- Of names that are not defined, only some can be missed. -/
def Misses {α : Type} (P : String → Prop) (r : Except EvalFault α) : Prop :=
  ∀ x, r = .error (.undefinedVariable x) → P x

namespace Misses

variable {α β : Type} {P : String → Prop} {r : Except EvalFault α} {f : α → Except EvalFault β}

theorem ok (a : α) : Misses P (.ok a) := nofun

theorem bind (first : Misses P r) (rest : ∀ a, Misses P (f a)) : Misses P (r >>= f) := by
  cases r with
  | error e =>
    intro x h
    cases h
    exact first x rfl
  | ok a => exact rest a

theorem map {g : α → β} (h : Misses P r) : Misses P (r >>= fun a ↦ .ok (g a)) :=
  h.bind fun _ ↦ ok _

/-- Null is no name that is not defined, whether its link is optional or not. -/
theorem unlessNull {isNull optional : Bool} {property : String}
    {r : Except EvalFault (Option β)} (h : Misses P r) :
    Misses P (if isNull then if optional then .ok none else .error (.nullAccess property)
      else r) := by
  split
  · split
    · nofun
    · nofun
  · exact h

/-! ## Functions look up no names -/

theorem require (function : String) (args : List Value) (expected : Nat) :
    Misses P (Builtin.require function args expected) := by
  unfold Builtin.require
  split
  · nofun
  · nofun

theorem callGlobal (name : String) (args : List Value) :
    Misses P (Builtin.callGlobal name args) := by
  unfold Builtin.callGlobal
  split
  case h_4 | h_5 => exact (require _ _ _).map
  all_goals nofun

theorem callMath (name : String) (args : List Value) : Misses P (Builtin.callMath name args) := by
  unfold Builtin.callMath
  split
  case h_3 => exact (require _ _ _).map
  case h_4 =>
    split
    · exact (require _ _ _).map
    · nofun
  all_goals nofun

theorem objectMembers (qualified : String) (v : Value) :
    Misses P (Builtin.objectMembers qualified v) := by
  unfold Builtin.objectMembers
  split
  all_goals nofun

theorem callGroup (clock : Int) (group name : String) (args : List Value) :
    Misses P (Builtin.callGroup clock group name args) := by
  unfold Builtin.callGroup
  split
  case h_1 => exact callMath _ _
  case h_3 =>
    refine (require _ _ _).bind fun _ ↦ ?_
    split
    · next text _ =>
      cases Json.parse text with
      | ok v => exact ok v
      | error fault => nofun
    · nofun
  case h_5 | h_6 | h_7 => exact (objectMembers _ _).map
  all_goals nofun

theorem callText (s name : String) (args : List Value) :
    Misses P (Builtin.callText s name args) := by
  unfold Builtin.callText
  split
  case h_11 =>
    split
    · nofun
    · nofun
  case h_12 => exact (require _ _ _).map
  all_goals nofun

theorem callList (items : List Value) (name : String) (args : List Value) :
    Misses P (Builtin.callList items name args) := by
  unfold Builtin.callList
  split
  all_goals nofun

theorem callMethod (receiver : Value) (name : String) (args : List Value) :
    Misses P (Builtin.callMethod receiver name args) := by
  unfold Builtin.callMethod
  split
  · nofun
  · split
    · exact callText _ _ _
    · exact callList _ _ _
    · split
      · nofun
      · nofun
    · nofun

theorem applyBinary (op : BinaryOp) (a b : Value) : Misses P (Expr.applyBinary op a b) := by
  unfold Expr.applyBinary
  split
  case h_1 | h_4 | h_5 =>
    split
    · nofun
    · nofun
  all_goals nofun

end Misses

namespace Expr

variable {env : Env} {P : String → Prop}

mutual

/-- Only a name that is written and not defined can be missed. -/
theorem misses_reach : (e : Expr) → (∀ x ∈ e.names, env.scope.get? x = none → P x) →
    Misses P (reach env e)
  | literal v, _ => .ok _
  | identifier name, h => by
    rw [reach]
    split
    · nofun
    · next undefined =>
      intro x hx
      cases hx
      exact h name (.head _) undefined
  | array items, h => by
    rw [reach]
    exact (misses_evalItems items h).map
  | object entries, h => by
    rw [reach]
    exact (misses_evalEntries entries h).map
  | member target property optional, h => by
    rw [reach]
    split
    · nofun
    · refine (misses_reach target h).bind fun v? ↦ ?_
      split
      · nofun
      · exact .unlessNull (.ok _)
  | index target position optional, h => by
    obtain ⟨ht, hp⟩ := List.forall_mem_append.mp h
    rw [reach]
    refine (misses_reach target ht).bind fun v? ↦ ?_
    split
    · nofun
    · exact (misses_reach position hp).bind fun _ ↦ .unlessNull (.ok _)
  | call (identifier name) arguments optional, h => by
    obtain ⟨-, ha⟩ := List.forall_mem_append.mp h
    rw [reach]
    refine (misses_evalItems arguments ha).bind fun _ ↦ ?_
    exact (Misses.callGlobal _ _).map
  | call (member target property optionalMember) arguments optional, h => by
    obtain ⟨ht, ha⟩ := List.forall_mem_append.mp h
    rw [reach]
    split
    · refine (misses_evalItems arguments ha).bind fun _ ↦ ?_
      exact (Misses.callGroup _ _ _ _).map
    · refine (misses_reach target ht).bind fun v? ↦ ?_
      split
      · nofun
      · refine .unlessNull ((misses_evalItems arguments ha).bind fun _ ↦ ?_)
        exact (Misses.callMethod _ _ _).map
  | call (literal _) _ _, _ | call (array _) _ _, _ | call (object _) _ _, _
  | call (index _ _ _) _ _, _ | call (call _ _ _) _ _, _ | call (unary _ _) _ _, _
  | call (binary _ _ _) _ _, _ | call (logical _ _ _) _ _, _
  | call (conditional _ _ _) _ _, _ => nofun
  | unary op operand, h => by
    rw [reach]
    exact (misses_reach operand h).map
  | binary op left right, h => by
    obtain ⟨hl, hr⟩ := List.forall_mem_append.mp h
    rw [reach]
    refine (misses_reach left hl).bind fun _ ↦ (misses_reach right hr).bind fun _ ↦ ?_
    exact (Misses.applyBinary _ _ _).map
  | logical op left right, h => by
    obtain ⟨hl, hr⟩ := List.forall_mem_append.mp h
    rw [reach]
    refine (misses_reach left hl).bind fun _ ↦ ?_
    dsimp only
    split
    · nofun
    · exact (misses_reach right hr).map
  | conditional test consequent alternate, h => by
    obtain ⟨h, ha⟩ := List.forall_mem_append.mp h
    obtain ⟨ht, hc⟩ := List.forall_mem_append.mp h
    rw [reach]
    refine (misses_reach test ht).bind fun _ ↦ ?_
    dsimp only
    split
    · exact (misses_reach consequent hc).map
    · exact (misses_reach alternate ha).map

theorem misses_evalItems : (items : List Expr) →
    (∀ x ∈ namesOfItems items, env.scope.get? x = none → P x) → Misses P (evalItems env items)
  | [], _ => .ok _
  | e :: r, h => by
    obtain ⟨he, hr⟩ := List.forall_mem_append.mp h
    rw [evalItems]
    exact (misses_reach e he).bind fun _ ↦ (misses_evalItems r hr).map

theorem misses_evalEntries : (entries : List (String × Expr)) →
    (∀ x ∈ namesOfEntries entries, env.scope.get? x = none → P x) →
    Misses P (evalEntries env entries)
  | [], _ => .ok _
  | (k, e) :: r, h => by
    obtain ⟨he, hr⟩ := List.forall_mem_append.mp h
    rw [evalEntries]
    exact (misses_reach e he).bind fun _ ↦ (misses_evalEntries r hr).map

end

/-- Where every variable is bound, only a common name can be missed. -/
theorem misses_eval (e : Expr) (bound : ∀ x ∈ variablesAmong e.names, (env.scope.get? x).isSome) :
    Misses (isCommonName ·) (e.eval env) := by
  refine (misses_reach e fun x hx undefined ↦ ?_).map
  cases common : isCommonName x with
  | true => rfl
  | false =>
    have known := bound x (mem_variablesAmong.mpr ⟨hx, common⟩)
    rw [undefined] at known
    cases known

end Expr

namespace Evaluator

open Scope (AgreeOn)

variable {e : Evaluator} {source : String} {clock : Int}

theorem Faithful.extract (h : e.Faithful) (source : String) :
    (e.extract source).1 = Expr.variableNames source (Expr.parse source) := by
  obtain ⟨parsed, -⟩ := h.parse source
  simp only [Evaluator.extract, parsed]
  cases Expr.parse source with
  | ok expr => rfl
  | error error => rfl

/-- Whatever was asked of an evaluator before, the variables that it extracts from a text are all
that the text can observe.  Scopes that have none of the common names, and under the variables the
same values or none, yield the same value or the same fault.  If they have all of the variables, no
name is missed but a common one. -/
theorem observes_extracted (capacity : Nat) (calls : List Call) (source : String) (clock : Int) :
    let e := (replies answer { capacity } calls).2
    (∀ s t : Scope, s.NoCommonName → t.NoCommonName → AgreeOn (e.extract source).1 s t →
      (e.execute ⟨s, clock⟩ source).1 = (e.execute ⟨t, clock⟩ source).1) ∧
    ∀ s : Scope, (∀ x ∈ (e.extract source).1, (s.get? x).isSome) →
      ∀ text x, (e.execute ⟨s, clock⟩ source).1 = .error (.evaluation text (.undefinedVariable x)) →
        Expr.isCommonName x := by
  intro e
  have faithful : e.Faithful := (replies_answer capacity calls).2.1
  simp only [fun env ↦ (faithful.execute env source).1, faithful.extract, Expr.run]
  cases Expr.parse source with
  | error error =>
    refine ⟨fun _ _ _ _ _ ↦ rfl, fun _ _ _ _ missed ↦ ?_⟩
    cases missed
  | ok expr =>
    simp only [Expr.variableNames]
    refine ⟨fun s t hs ht agree ↦ ?_, fun s bound text x missed ↦ ?_⟩
    · rw [expr.eval_congr hs ht agree]
    · cases value : expr.eval ⟨s, clock⟩ with
      | ok v =>
        rw [value] at missed
        cases missed
      | error fault =>
        rw [value] at missed
        cases missed
        exact expr.misses_eval bound x value

/-- A price is reckoned without regard to a secret, and what is missed is `Number`. -/
theorem secret_unobserved :
    let e := (replies answer { capacity := 1 } [.validate "secret"]).2
    let s : Scope := [("price", .nat 3), ("secret", .nat 1)]
    let t : Scope := [("price", .nat 3), ("secret", .str "x")]
    let text := "Math.max(price, Number)"
    (e.extract text).1 = ["price"] ∧
      (e.execute ⟨s, 0⟩ text).1 = (e.execute ⟨t, 0⟩ text).1 ∧
      (e.execute ⟨s, 0⟩ text).1 = .error (.evaluation text (.undefinedVariable "Number")) ∧
      Expr.isCommonName "Number" := by
  intro e s t text
  obtain ⟨same, missed⟩ := observes_extracted 1 [.validate "secret"] text 0
  have extracted : (e.extract text).1 = ["price"] := by
    subst e text
    cbv
  have value : (e.execute ⟨s, 0⟩ text).1 =
      .error (.evaluation text (.undefinedVariable "Number")) := by
    subst e s text
    cbv
  have uncommon (v : Value) : Scope.NoCommonName [("price", .nat 3), ("secret", v)] := by
    intro x common
    have price : "price" ≠ x := by
      rintro rfl
      exact absurd common (by decide)
    have secret : "secret" ≠ x := by
      rintro rfl
      exact absurd common (by decide)
    simp only [Fields.get?, price, secret, if_false]
  refine ⟨extracted, same s t (uncommon _) (uncommon _) ?_, value, missed s ?_ text "Number" value⟩
  · intro x hx
    cases List.mem_singleton.mp (extracted ▸ hx)
    rfl
  · intro x hx
    cases List.mem_singleton.mp (extracted ▸ hx)
    rfl

end Evaluator

end LivePage
