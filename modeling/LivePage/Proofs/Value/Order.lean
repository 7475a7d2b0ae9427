import Mathlib
import LivePage.Page.Condition
import LivePage.Proofs.Outcome

/-!
# The order of values

Expressions order two texts by their characters, and all else as numbers.  Conditions order all
values as numbers, two texts as well: so both are alike but for texts, which a condition may find
in another order, or in none where they are no numbers.
-/

namespace LivePage

/-- An operator is applied to the values of both sides. -/
theorem Expr.eval_binary {env : Env} {l r : Expr} {a b : Value} (hl : l.eval env = .ok a)
    (hr : r.eval env = .ok b) (op : BinaryOp) :
    (Expr.binary op l r).eval env = applyBinary op a b := by
  obtain ⟨x, hx, hv⟩ := bind_eq_ok_iff.mp hl
  obtain ⟨y, hy, hw⟩ := bind_eq_ok_iff.mp hr
  cases hv
  cases hw
  simp only [eval, reach, hx, hy, ok_bind]
  cases applyBinary op (x.getD .null) (y.getD .null) <;> rfl

namespace Value

/-- Texts apart, values are in the order of the numbers that they are read as. -/
theorem order_eq_orderFloats {a b : Value} (h : ∀ s t, a = .str s → b ≠ .str t) :
    a.order b = orderFloats a.toNumber b.toNumber := by
  cases a with
  | str s =>
    cases b with
    | str t => exact absurd rfl (h s t rfl)
    | _ => rfl
  | _ => rfl

end Value

/-- The comparison of a condition and the operator of an expression that have one symbol, with the
orders for which they hold. -/
inductive AsksFor : Comparison → BinaryOp → List Ordering → Prop where
  | greater : AsksFor .greaterThan .greater [.gt]
  | less : AsksFor .lessThan .less [.lt]
  | greaterEqual : AsksFor .greaterThanOrEqual .greaterEqual [.gt, .eq]
  | lessEqual : AsksFor .lessThanOrEqual .lessEqual [.lt, .eq]

namespace AsksFor

variable {comparison : Comparison} {op : BinaryOp} {orders : List Ordering} {a b : Value}

theorem symbol (h : AsksFor comparison op orders) :
    comparison.symbol? = some op.operator.text := by
  cases h <;> rfl

/-- An operator holds of an order that it asks for. -/
theorem related_iff (h : AsksFor comparison op orders) {o : Option Ordering} :
    Expr.related op o = true ↔ ∃ x ∈ orders, o = some x := by
  cases h <;> simp [Expr.related]

theorem applyBinary_eq (h : AsksFor comparison op orders) :
    Expr.applyBinary op a b = .ok (.bool (Expr.related op (a.order b))) := by
  cases h <;> rfl

/-- A comparison holds of the order as numbers, whatever is compared. -/
theorem holds_eq (h : AsksFor comparison op orders) :
    comparison.holds a b =
      .ok (Expr.related op (Value.orderFloats a.toNumber b.toNumber)) := by
  cases h <;> rfl

end AsksFor

/-- How a condition and an expression with the same symbol order the value of a field and a literal.
They agree where one of the two is no text, on the order of both as numbers.  On two texts, the
condition holds where the numbers that they are read as are in an order that is asked for, and the
expression where their characters are. -/
theorem ordered_alike_except_texts (c : Context) (clock : Int) {comparison : Comparison}
    {op : BinaryOp} {orders : List Ordering} (h : AsksFor comparison op orders) {field : String}
    (hfield : field ≠ "") {a : Value} (ha : c.field field = a) (b : Value) {env : Env} {l r : Expr}
    (hl : l.eval env = .ok a) (hr : r.eval env = .ok b) :
    comparison.symbol? = some op.operator.text ∧
    ∃ held told, Condition.test c clock (.simple field (some comparison) b) = .ok held ∧
      (Expr.binary op l r).eval env = .ok (.bool told) ∧
      ((∀ s t, a = .str s → b ≠ .str t) → held = told ∧
        (told = true ↔ ∃ o ∈ orders, Value.orderFloats a.toNumber b.toNumber = some o)) ∧
      ∀ s t, a = .str s → b = .str t →
        (held = true ↔ ∃ o ∈ orders, Value.orderFloats (numberOfText s) (numberOfText t) = some o) ∧
        (told = true ↔ compare s t ∈ orders) := by
  refine ⟨h.symbol, Expr.related op (Value.orderFloats a.toNumber b.toNumber),
    Expr.related op (a.order b), ?_, (Expr.eval_binary hl hr op).trans h.applyBinary_eq,
    fun hab ↦ ?_, ?_⟩
  · rw [Condition.test, if_neg hfield, ha]
    exact h.holds_eq
  · rw [Value.order_eq_orderFloats hab]
    exact ⟨rfl, h.related_iff⟩
  · rintro s t rfl rfl
    refine ⟨h.related_iff, h.related_iff.trans ⟨?_, fun hm ↦ ⟨_, hm, rfl⟩⟩⟩
    rintro ⟨o, ho, he⟩
    exact Option.some.inj he ▸ ho

/-- A number and the text of another one are in the order of the numbers, in a condition and in an
expression. -/
theorem orders_number_and_text :
    let c : Context := { data := [("total", .int 10)] }
    let b := Value.str "9"
    Condition.test c 0 (.simple "data.total" (some .greaterThan) b) = .ok true ∧
    (Expr.binary .greater (.literal (.int 10)) (.literal b)).eval (c.env 0) = .ok (.bool true) := by
  intro c b
  have ha : c.field "data.total" = .int 10 := rfl
  have hl : (Expr.literal (.int 10)).eval (c.env 0) = .ok (.int 10) := rfl
  have hr : (Expr.literal b).eval (c.env 0) = .ok b := rfl
  obtain ⟨-, held, told, hheld, htold, alike, -⟩ :=
    ordered_alike_except_texts c 0 .greater (by decide) ha b hl hr
  obtain ⟨rfl, hiff⟩ := alike nofun
  have horder : Value.orderFloats (Value.int 10).toNumber b.toNumber = some .gt := by
    decide +kernel
  have : held = true := hiff.mpr ⟨.gt, List.mem_cons_self, horder⟩
  subst this
  exact ⟨hheld, htold⟩

/-- Of two texts, a condition may find the first one greater while it is less in an expression, and
find no order between texts that an expression orders. -/
theorem texts_ordered_apart :
    let c : Context := { data := [("x", .str "10"), ("y", .str "b")] }
    (Condition.test c 0 (.simple "data.x" (some .greaterThan) (.str "9")) = .ok true ∧
      Expr.run (c.env 0) "data.x > '9'" = .ok (.bool false)) ∧
    Condition.test c 0 (.simple "data.y" (some .greaterThan) (.str "a")) = .ok false ∧
    Expr.run (c.env 0) "data.y > 'a'" = .ok (.bool true) := by
  intro c
  have hx : c.field "data.x" = .str "10" := rfl
  have hy : c.field "data.y" = .str "b" := rfl
  have hnumbers :
      Value.orderFloats (Value.str "10").toNumber (Value.str "9").toNumber = some .gt := by
    decide +kernel
  have hnone : Value.orderFloats (Value.str "b").toNumber (Value.str "a").toNumber = none := by
    decide +kernel
  refine ⟨⟨?_, by cbv⟩, ?_, by cbv⟩
  · rw [Condition.test, if_neg (by decide), hx, AsksFor.greater.holds_eq, hnumbers]
    rfl
  · rw [Condition.test, if_neg (by decide), hy, AsksFor.greater.holds_eq, hnone]
    rfl

end LivePage
