import LivePage.Page.Binding
import LivePage.Render.Tree

/-!
# Rendering nodes

A node whose condition does not hold gives nothing. One that is repeated gives an element for
each item, with the item and its index among the variables, and its condition must hold there as
well. The first strict binding that fails ends the whole.
-/

namespace LivePage

/-- A strict binding that failed. -/
structure PropError where
  nodeId : String
  target : String
  error : BindingError
deriving DecidableEq, Repr

/-- What nodes are rendered with, apart from a context. -/
structure Renderer where
  components : Components := []
  clock : Int

namespace Loop

/-- The value that a loop goes through: a path in the data, the state or the variables, if it
names one of them first, and else in the data. -/
def sourceValue (l : Loop) (c : Context) : Value :=
  match l.source with
  | .items vs => .arr vs
  | .other v => v
  | .path text =>
    let (root, rest) := splitRoot text
    match Namespace.ofName? root with
    | some .data => c.lookup .data rest
    | some .state => c.lookup .state rest
    | some .vars => c.lookup .vars rest
    | _ => c.lookup .data text

/-- The items of a loop; what is no list has none. -/
def items (l : Loop) (c : Context) : List Value :=
  match l.sourceValue c with
  | .arr vs => vs
  | _ => []

/-- The context of an item. -/
def iteration (l : Loop) (c : Context) (index : Nat) (item : Value) : Context :=
  c.extend [(l.itemKey, item), (l.indexKey, .nat index)]

/-- The contexts of all items. -/
def iterations (l : Loop) (c : Context) : List Context :=
  (l.items c).zipIdx.map fun (item, i) => l.iteration c i item

end Loop

namespace Node

/-- The properties of a node, overlaid with the values of its bindings in their order. -/
def resolveProps (n : Node) (c : Context) (clock : Int) :
    List Binding → Fields Value → Except PropError (Fields Value)
  | [], props => .ok props
  | b :: r, props => do
    let v ← (b.resolve c clock).mapError (⟨n.id, b.target, ·⟩)
    n.resolveProps c clock r (props.insert b.target v)

/-- The elements for some contexts, without those where the condition does not hold. -/
def repeated (holds : Context → Bool) (element : Context → Except PropError Element) :
    List Context → Except PropError (List Element)
  | [] => .ok []
  | c :: r =>
    if holds c then do
      let x ← element c
      let xs ← repeated holds element r
      return x :: xs
    else repeated holds element r

mutual

/-- The elements of a node in a context. -/
def render (e : Renderer) : Node → Context → Except PropError (List Element)
  | n@{ children, slots, .. }, c =>
    let holds (c : Context) : Bool := Condition.holds? c e.clock n.condition
    let element (c : Context) : Except PropError Element := do
      let props ← n.resolveProps c e.clock n.bindings n.props
      let children ← renderList e children c
      let slots ← renderSlots e slots c
      return {
        id := n.id, type := n.type, props := props, style := n.style, layout := n.layout
        info := n.info, component := e.components.resolve? n.type
        children := children, slots := slots }
    if holds c then
      match n.loop with
      | none => (element c).map ([·])
      | some l => repeated holds element (l.iterations c)
    else .ok []

def renderList (e : Renderer) : List Node → Context → Except PropError (List Element)
  | [], _ => .ok []
  | n :: r, c => do
    let xs ← n.render e c
    let ys ← renderList e r c
    return xs ++ ys

def renderSlots (e : Renderer) : List (String × List Node) → Context →
    Except PropError (List (String × List Element))
  | [], _ => .ok []
  | (k, ns) :: r, c => do
    let xs ← renderList e ns c
    let slots ← renderSlots e r c
    return (k, xs) :: slots

end

end Node

end LivePage
