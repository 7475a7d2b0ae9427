import LivePage.Page.Tag
import LivePage.Value.Basic

/-!
# Pages

A page is a tree of nodes. A node says which component it shows, how its properties are computed,
when it is there, how often it is repeated and what happens on its events.
-/

namespace LivePage

inductive Condition where
  | simple (field : String) (comparison : Option Comparison) (value : Value)
  | complex (logic : Logic) (conditions : List Condition)
  | raw (expression : String)
  | unknown
deriving Repr, Inhabited

/-- How a property of a node is computed. The source is a literal, the text of an expression or
a path, as the kind says. -/
structure Binding where
  target : String
  kind : BindingKind
  source : Value := .null
  transform : Option String := none
  default? : Option Value := none
  mode : BindingMode := .oneWay
deriving Repr, Inhabited

/-- What a node is repeated for; other sources have no items. -/
inductive LoopSource where
  | path (text : String)
  | items (values : List Value)
  | other (value : Value)
deriving Repr, Inhabited

structure Loop where
  source : LoopSource
  itemKey : String := "item"
  indexKey : String := "index"
deriving Repr, Inhabited

/-- A step of an event handler, and what follows its failure and its success. -/
structure Action where
  kind : ActionKind
  config : Fields Value := []
  condition : Option Condition := none
  onError : Option (List Action) := none
  onSuccess : Option (List Action) := none
deriving Repr, Inhabited

/-- What is done on an event, at most once in each throttle window, and only after events have
stopped for a debounce window; both are in milliseconds. -/
structure Handler where
  event : String
  actions : List Action := []
  condition : Option Condition := none
  debounce : Option Nat := none
  throttle : Option Nat := none
deriving Repr, Inhabited

/-- An element of a page. Children come before slots, and slots in the order of their names. -/
structure Node where
  id : String := ""
  type : String := ""
  props : Fields Value := []
  style : Option Value := none
  layout : Option Value := none
  bindings : List Binding := []
  events : List Handler := []
  condition : Option Condition := none
  loop : Option Loop := none
  children : List Node := []
  slots : List (String × List Node) := []
  info : Option Value := none
deriving Repr, Inhabited

structure Page where
  id : String := ""
  version : String := ""
  name : Option String := none
  root : Option Node := none
  info : Fields Value := []
deriving Repr, Inhabited

namespace Node

theorem sizeOf_children_lt (n : Node) : sizeOf n.children < sizeOf n := by
  cases n
  simp only [mk.sizeOf_spec]
  omega

theorem sizeOf_slots_lt (n : Node) : sizeOf n.slots < sizeOf n := by
  cases n
  simp only [mk.sizeOf_spec]
  omega

/-- What holds of a node as soon as it holds of all right below it holds of every node. -/
@[elab_as_elim]
theorem induction {motive : Node → Prop}
    (step : ∀ n : Node, (∀ m ∈ n.children, motive m) → (∀ s ∈ n.slots, ∀ m ∈ s.2, motive m) →
      motive n) (n : Node) : motive n :=
  step n (fun m _ => induction step m) (fun _ _ m _ => induction step m)
termination_by sizeOf n
decreasing_by
  · next hm => exact Nat.lt_trans (List.sizeOf_lt_of_mem hm) n.sizeOf_children_lt
  · next s hs hm =>
    have hlt : sizeOf s.2 < sizeOf s := by
      cases s
      simp only [Prod.mk.sizeOf_spec]
      omega
    exact Nat.lt_trans (List.sizeOf_lt_of_mem hm)
      (Nat.lt_trans hlt (Nat.lt_trans (List.sizeOf_lt_of_mem hs) n.sizeOf_slots_lt))

mutual

/-- Every node of a tree with its depth, parents first. -/
def walk (depth : Nat) : Node → List (Node × Nat)
  | n@{ children, slots, .. } =>
    (n, depth) :: (walkList (depth + 1) children ++ walkSlots (depth + 1) slots)

def walkList (depth : Nat) : List Node → List (Node × Nat)
  | [] => []
  | n :: r => n.walk depth ++ walkList depth r

def walkSlots (depth : Nat) : List (String × List Node) → List (Node × Nat)
  | [] => []
  | (_, ns) :: r => walkList depth ns ++ walkSlots depth r

end

mutual

/-- The first node of an id. -/
def find? (id : String) : Node → Option Node
  | n@{ children, slots, .. } =>
    if n.id = id then some n else (findList? id children).or (findSlots? id slots)

def findList? (id : String) : List Node → Option Node
  | [] => none
  | n :: r => (n.find? id).or (findList? id r)

def findSlots? (id : String) : List (String × List Node) → Option Node
  | [] => none
  | (_, ns) :: r => (findList? id ns).or (findSlots? id r)

end

mutual

/-- Looks for the first node of an id. Its id and those on the way down to it are left on the trail;
where it is not found, the trail is as before. -/
def search (id : String) : Node → List String → Bool × List String
  | n@{ children, slots, .. }, trail =>
    let trail := trail ++ [n.id]
    if n.id = id then (true, trail)
    else
      let (found, trail) := searchList id children trail
      if found then (true, trail)
      else
        let (found, trail) := searchSlots id slots trail
        if found then (true, trail) else (false, trail.dropLast)

def searchList (id : String) : List Node → List String → Bool × List String
  | [], trail => (false, trail)
  | n :: r, trail =>
    let (found, trail) := n.search id trail
    if found then (true, trail) else searchList id r trail

def searchSlots (id : String) : List (String × List Node) → List String → Bool × List String
  | [], trail => (false, trail)
  | (_, ns) :: r, trail =>
    let (found, trail) := searchList id ns trail
    if found then (true, trail) else searchSlots id r trail

end

end Node

namespace Page

/-- Every node with its depth, parents first, children before slots. -/
def walk (p : Page) : List (Node × Nat) := (p.root.map (·.walk 0)).getD []

def nodes (p : Page) : List Node := p.walk.map Prod.fst

def find? (p : Page) (id : String) : Option Node := p.root.bind (·.find? id)

/-- The ids from the root down to the first node of an id. -/
def trail? (p : Page) (id : String) : Option (List String) :=
  p.root.bind fun root =>
    let (found, trail) := root.search id []
    if found then some trail else none

end Page

end LivePage
