import LivePage.Page.Encode

/-!
# Analysis of pages

What can be said of a page without any data: its components, bindings, handlers and size, and
which data it depends on.
-/

namespace LivePage

/-- A handler with the node that declares it. -/
structure HandlerEntry where
  nodeId : String
  event : String
  actions : List Action
deriving Repr, Inhabited

def HandlerEntry.toValue (e : HandlerEntry) : Value :=
  .obj [("nodeId", .str e.nodeId), ("event", .str e.event),
    ("actions", .arr (actionValues e.actions))]

structure Analysis where
  components : List String := []
  bindings : List Binding := []
  handlers : List HandlerEntry := []
  conditional : List String := []
  looping : List String := []
  maxDepth : Nat := 0
  totalNodes : Nat := 0
deriving Repr, Inhabited

namespace Node

def handlerEntries (n : Node) : List HandlerEntry :=
  n.events.map fun h => ⟨n.id, h.event, h.actions⟩

end Node

/-- What is said of some nodes, after one more node at its depth. -/
def Analysis.visit (a : Analysis) : Node × Nat → Analysis
  | (n, depth) =>
    { components := if n.type ∈ a.components then a.components else a.components ++ [n.type]
      bindings := a.bindings ++ n.bindings
      handlers := a.handlers ++ n.handlerEntries
      conditional := if n.condition.isSome then a.conditional ++ [n.id] else a.conditional
      looping := if n.loop.isSome then a.looping ++ [n.id] else a.looping
      maxDepth := max a.maxDepth depth
      totalNodes := a.totalNodes + 1 }

/-- What is said of all nodes of a page, one after another on a walk. -/
def Page.analysis (p : Page) : Analysis := p.walk.foldl Analysis.visit {}

namespace Binding

/-- The data that a binding depends on. -/
def dependency? (b : Binding) : Option String :=
  match b.kind, b.source with
  | .datasource, .str s => some s
  | .state, .str s => some ("state:" ++ s)
  | .var, .str s => some ("variable:" ++ s)
  | _, _ => none

end Binding

/-- Why a page is too large. -/
inductive LimitError where
  | maxDepth (depth limit : Nat)
  | maxNodes (nodes limit : Nat)
deriving DecidableEq, Repr

def LimitError.message : LimitError → String
  | maxDepth depth limit => s!"Schema depth {depth} exceeds the limit of {limit}"
  | maxNodes nodes limit => s!"Schema has {nodes} nodes, more than the limit of {limit}"

namespace Analysis

/-- The data that the bindings depend on. -/
def dependencies (a : Analysis) : List String := (a.bindings.filterMap (·.dependency?)).eraseDups

/-- Checks the depth first, and then the number of nodes. -/
def check (a : Analysis) (maxDepth maxNodes : Nat) : Except LimitError Unit :=
  if a.maxDepth > maxDepth then .error (.maxDepth a.maxDepth maxDepth)
  else if a.totalNodes > maxNodes then .error (.maxNodes a.totalNodes maxNodes)
  else .ok ()

def toValue (a : Analysis) : Value :=
  .obj [("componentDependencies", .arr (a.components.map .str)),
    ("dataBindings", .arr (a.bindings.map Binding.toValue)),
    ("eventHandlers", .arr (a.handlers.map HandlerEntry.toValue)),
    ("conditionalNodes", .arr (a.conditional.map .str)),
    ("loopNodes", .arr (a.looping.map .str)),
    ("maxDepth", .nat a.maxDepth), ("totalNodes", .nat a.totalNodes)]

end Analysis

end LivePage
