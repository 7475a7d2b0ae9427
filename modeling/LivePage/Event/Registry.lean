import LivePage.Page.Tree

/-!
# Registered handlers

Handlers are kept by the node that they belong to, and each has a number that is never used
again. The handlers of an event are those of all nodes in the order of their numbers.
-/

namespace LivePage

structure Registered where
  nodeId : String
  handler : Handler
  number : Nat
deriving Repr, Inhabited

structure Registry where
  nodes : Fields (List Registered) := []
  next : Nat := 0
deriving Repr, Inhabited

namespace Registry

/-- Everything that is registered, node by node. -/
def all (r : Registry) : List Registered := r.nodes.flatMap Prod.snd

def size (r : Registry) : Nat := r.all.length

def register (r : Registry) (nodeId : String) (h : Handler) : Registry where
  nodes := r.nodes.insert nodeId ((r.nodes.get? nodeId).getD [] ++ [⟨nodeId, h, r.next⟩])
  next := r.next + 1

def registerNode (r : Registry) (n : Node) : Registry := n.events.foldl (·.register n.id ·) r

/-- Registers the handlers of all nodes of a page. -/
def registerPage (r : Registry) (p : Page) : Registry := p.nodes.foldl registerNode r

/-- Whether a handler is meant by the name of an event, or by none for all events. -/
def concerns (event? : Option String) (x : Registered) : Bool :=
  event?.all (x.handler.event == ·)

/-- The handlers of a node, or those of them for one event. -/
def ofNode (r : Registry) (nodeId : String) (event? : Option String) : List Registered :=
  ((r.nodes.get? nodeId).getD []).filter (concerns event?)

/-- Removes the handlers of a node, or those of them for one event. A node without handlers
leaves nothing behind. -/
def unregister (r : Registry) (nodeId : String) (event? : Option String) : Registry :=
  { r with nodes := r.nodes.filterMap fun (k, xs) =>
      if k = nodeId then
        match xs.filter (!concerns event? ·) with
        | [] => none
        | kept => some (k, kept)
      else some (k, xs) }

/-- Numbers go on after all handlers are removed. -/
def clear (r : Registry) : Registry := { r with nodes := [] }

/-- The handlers of an event in the order of registration. -/
def handlersFor (r : Registry) (event : String) : List Registered :=
  (r.all.filter (·.handler.event == event)).mergeSort fun x y => x.number ≤ y.number

@[simp] theorem next_register (r : Registry) (nodeId : String) (h : Handler) :
    (r.register nodeId h).next = r.next + 1 := rfl
@[simp] theorem next_unregister (r : Registry) (nodeId : String) (event? : Option String) :
    (r.unregister nodeId event?).next = r.next := rfl
@[simp] theorem next_clear (r : Registry) : r.clear.next = r.next := rfl

end Registry

end LivePage
