import LivePage.Page.Condition

/-!
# Bindings

The value that a binding has in a context. A binding that fails has its default or null; only a
strict one without a default fails the whole.
-/

namespace LivePage

inductive BindingError where
  | expression (target : String) (error : ExprError)
  | invalidSource (target kind found : String)
deriving DecidableEq, Repr

namespace BindingError

/-- What failed, without the cause behind it. -/
def message : BindingError → String
  | expression target _ => s!"binding `{target}` failed"
  | invalidSource target kind found =>
    s!"binding `{target}` of kind `{kind}` needs a string source, got {found}"

/-- What failed, and the causes behind it. -/
def chain : BindingError → String
  | expression target e => message (expression target e) ++ ": " ++ e.chain
  | e => e.message

end BindingError

/-- The value at a path that starts with one of the read-only parts of a context. -/
def Context.surrounding (c : Context) (path : String) : Value :=
  let (root, rest) := splitRoot path
  match Namespace.ofName? root with
  | some .user => c.lookup .user rest
  | some .tenant => c.lookup .tenant rest
  | some .params => c.lookup .params rest
  | some .query => c.lookup .query rest
  | _ => .null

namespace Binding

/-- The source as text. -/
def text (b : Binding) : Except BindingError String :=
  match b.source with
  | .str s => .ok s
  | v => .error (.invalidSource b.target b.kind.tag v.kindName)

/-- The value of the source, before default and transform. -/
def raw (b : Binding) (c : Context) (clock : Int) : Except BindingError Value :=
  match b.kind with
  | .static => .ok b.source
  | .expression | .computed => do
    let source ← b.text
    (Expr.run (c.env clock) source).mapError (.expression b.target)
  | .datasource => b.text.map (c.lookup .data)
  | .state => b.text.map (c.lookup .state)
  | .var => b.text.map (c.lookup .vars)
  | .context => b.text.map c.surrounding
  | .unknown _ => .ok .null

/-- The value of a transform, in which `value` is what it is applied to. A transform that fails
changes nothing. -/
def applyTransform (c : Context) (clock : Int) (source : String) (v : Value) : Value :=
  match Expr.run ⟨c.scope.insert "value" v, clock⟩ source with
  | .ok w => w
  | .error _ => v

/-- A value that was found, after default and transform. The default takes the place of null and
is not transformed. -/
def finish (b : Binding) (c : Context) (clock : Int) (v : Value) : Value :=
  match v, b.default? with
  | .null, some d => d
  | v, _ =>
    match b.transform with
    | some source => applyTransform c clock source v
    | none => v

/-- The value of a binding. -/
def resolve (b : Binding) (c : Context) (clock : Int) : Except BindingError Value :=
  match b.raw c clock with
  | .ok v => .ok (b.finish c clock v)
  | .error e =>
    match b.default? with
    | some d => .ok d
    | none => if b.mode = .strict then .error e else .ok .null

/-- The values of some bindings, or the first failure. -/
def resolveAll (c : Context) (clock : Int) : List Binding → Except BindingError (List Value)
  | [] => .ok []
  | b :: r => do
    let v ← b.resolve c clock
    let vs ← resolveAll c clock r
    return v :: vs

end Binding

end LivePage
