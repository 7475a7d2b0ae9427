import LivePage.Render.Component
import LivePage.Value.Coerce

/-!
# Rendered pages
-/

namespace LivePage

open Fields (optional)

/-- An element with all its properties. -/
structure Element where
  id : String
  type : String
  props : Fields Value
  style : Option Value
  layout : Option Value
  info : Option Value
  /-- Without a component an element is a placeholder. -/
  component : Option Component
  children : List Element
  slots : List (String × List Element)
deriving Repr, Inhabited

namespace Element

mutual

/-- The first element of an id, parents before children and children before slots. -/
def find? (id : String) : Element → Option Element
  | x@{ children, slots, .. } =>
    if x.id = id then some x else (findList? id children).or (findSlots? id slots)

def findList? (id : String) : List Element → Option Element
  | [] => none
  | x :: r => (x.find? id).or (findList? id r)

def findSlots? (id : String) : List (String × List Element) → Option Element
  | [] => none
  | (_, xs) :: r => (findList? id xs).or (findSlots? id r)

end

mutual

def toValue : Element → Value
  | { id, type, props, style, layout, info, component, children, slots } =>
    .obj ([("id", .str id), ("type", .str type), ("props", .obj props)] ++
      optional "style" style ++ optional "layout" layout ++ optional "meta" info ++
      optional "component" (component.map Component.toValue) ++
      (if component.isNone then [("placeholder", .bool true)] else []) ++
      [("children", .arr (values children))] ++
      Value.objectMember "slots" (slotValues slots))

def values : List Element → List Value
  | [] => []
  | x :: r => x.toValue :: values r

def slotValues : List (String × List Element) → List (String × Value)
  | [] => []
  | (k, xs) :: r => (k, .arr (values xs)) :: slotValues r

end

end Element

/-- How large a page is. Rendering takes no time here. -/
structure Performance where
  components : Nat
  bindings : Nat
  handlers : Nat
deriving DecidableEq, Repr, Inhabited

def Performance.toValue (p : Performance) : Value :=
  .obj [("renderTimeMs", .ofFloat 0.0), ("componentCount", .nat p.components),
    ("dataBindingCount", .nat p.bindings), ("eventHandlerCount", .nat p.handlers)]

/-- What a page is rendered to: one element, none where the condition of its root does not hold,
or any number where the root is repeated. -/
structure Rendering where
  content : List Element := []
  components : List String := []
  dependencies : List String := []
  performance : Option Performance := none
deriving Repr, Inhabited

namespace Rendering

def root? (r : Rendering) : Option Element := r.content.head?

def find? (r : Rendering) (id : String) : Option Element := Element.findList? id r.content

def toValue (r : Rendering) : Value :=
  .obj ([("content", .arr (Element.values r.content)),
    ("componentDependencies", .arr (r.components.map .str)),
    ("dataDependencies", .arr (r.dependencies.map .str))] ++
    optional "performance" (r.performance.map Performance.toValue))

end Rendering

end LivePage
