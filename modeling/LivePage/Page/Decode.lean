import LivePage.Json.Decode
import LivePage.Page.Tree

/-!
# Pages from documents
-/

namespace LivePage

open Json (Tree DecodeError Decode.closed Decode.string Decode.value Decode.option Decode.list
  Decode.fields Decode.nat Decode.record Decode.members Decode.positions Decode.complete)

namespace Condition

/-- The tag of a condition. Inside of another condition it may also be the place of the tag in the
list of all tags. -/
def tag (nested : Bool) : Tree → Except DecodeError String
  | .str s => .ok s
  | .num (.int n) =>
    if nested && 0 ≤ n then .ok (["simple", "complex", "raw"].getD n.toNat "unknown")
    else .error .shape
  | t => .error t.reject

/-- The tag among the members of a condition. All of them must be readable, whatever the tag
makes of them. -/
def tagOf (nested : Bool) : List (Except Json.Fault String × Tree) → Option String →
    Except DecodeError (Option String)
  | [], found => .ok found
  | (.error f, _) :: _, _ => .error (.text f)
  | (.ok k, t) :: r, found =>
    if k = "type" then
      if found.isSome then .error .shape
      else do
        let s ← tag nested t
        tagOf nested r (some s)
    else do
      discard (Decode.value t)
      tagOf nested r found

/-- Members other than the tag. -/
def untagged (ms : List (Except Json.Fault String × Tree)) :
    List (Except Json.Fault String × Tree) :=
  ms.filter fun (k, _) => match k with
    | .ok k => k != "type"
    | .error _ => true

/-- How several conditions are joined; an object without members counts as nothing there. -/
def logic (t : Tree) : Except DecodeError Logic :=
  Json.Decode.word Logic.ofTag? .shape (fun
    | .null => true
    | .obj [] _ => true
    | _ => false) t

def simpleSpec : Json.Decode.Spec Condition where
  names := ["field", "operator", "value"]
  write k t
    | .simple field comparison value =>
      match k with
      | "field" => (Decode.string t).map (.simple · comparison value)
      | "operator" => (Decode.option Decode.string t).map fun s =>
          .simple field (s.map Comparison.ofTag) value
      | _ => (Decode.value t).map (.simple field comparison ·)
    | c => .ok c

def rawSpec : Json.Decode.Spec Condition where
  names := ["expression"]
  write _ t _ := (Decode.string t).map .raw
  required := ["expression"]

/-- What a condition that does not hold others is made of. -/
def leafSpec? : String → Option (Json.Decode.Spec Condition × Condition)
  | "simple" => some (simpleSpec, .simple "" none .null)
  | "raw" => some (rawSpec, .raw "")
  | _ => none

mutual

/-- A condition is an object with its tag in the member `type`, or a list with its tag as the
first item. -/
def decode (nested : Bool) : Tree → Except DecodeError Condition
  | .obj ms broken => do
    let found ← tagOf nested ms none
    Decode.closed broken
    match found with
    | none => throw .shape
    | some "complex" =>
      let (join, conditions) ← decodeMembers ms [] .and []
      return .complex join conditions
    | some s =>
      match leafSpec? s with
      | some (spec, init) =>
        Decode.members spec (untagged ms) [] init >>= Decode.complete spec.required
      | none => return .unknown
  | .arr [] broken => do
    Decode.closed broken
    throw .shape
  | .arr (t :: items) broken => do
    let s ← tag nested t
    discard (items.mapM Decode.value)
    Decode.closed broken
    if s = "complex" then
      let (join, conditions) ← decodePositions items
      return .complex join conditions
    else match leafSpec? s with
      | some (spec, init) =>
        Decode.positions spec .shape spec.names items [] init >>= Decode.complete spec.required
      | none => if items.isEmpty then return .unknown else throw .shape
  | t => .error t.reject

/-- Reads the members of a condition that holds others. -/
def decodeMembers : List (Except Json.Fault String × Tree) → (seen : List String) → Logic →
    List Condition → Except DecodeError (Logic × List Condition)
  | [], _, join, conditions => .ok (join, conditions)
  | (.error f, _) :: _, _, _, _ => .error (.text f)
  | (.ok k, t) :: r, seen, join, conditions =>
    if seen.contains k && (k == "logic" || k == "conditions") then .error .shape
    else match k with
      | "logic" => do
        let join ← logic t
        decodeMembers r (k :: seen) join conditions
      | "conditions" => do
        let conditions ← decodeList t
        decodeMembers r (k :: seen) join conditions
      | _ => decodeMembers r seen join conditions

def decodePositions : List Tree → Except DecodeError (Logic × List Condition)
  | [] => .ok (.and, [])
  | [t] => (logic t).map (·, [])
  | [t, u] => do
    let join ← logic t
    let conditions ← decodeList u
    return (join, conditions)
  | _ :: _ :: _ :: _ => .error .shape

def decodeList : Tree → Except DecodeError (List Condition)
  | .arr items _ => decodeItems items
  | t => .error t.reject

def decodeItems : List Tree → Except DecodeError (List Condition)
  | [] => .ok []
  | t :: r => do
    let c ← decode true t
    let cs ← decodeItems r
    return c :: cs

end

/-- A condition that stands alone. -/
def ofTree (t : Tree) : Except DecodeError Condition := decode false t

end Condition

namespace Binding

def spec (surplus : DecodeError) : Json.Decode.Spec Binding where
  names := ["target", "type", "source", "transform", "defaultValue", "mode"]
  write k t b :=
    match k with
    | "target" => (Decode.string t).map fun s => { b with target := s }
    | "type" => (Decode.string t).map fun s => { b with kind := .ofTag s }
    | "source" => (Decode.value t).map fun v => { b with source := v }
    | "transform" => (Decode.option Decode.string t).map fun s => { b with transform := s }
    | "defaultValue" => (Decode.option Decode.value t).map fun v => { b with default? := v }
    | _ =>
      (Json.Decode.word BindingMode.ofTag? surplus Json.Decode.isNull t).map fun m =>
        { b with mode := m }
  required := ["target", "type"]

def ofTree (surplus : DecodeError) : Tree → Except DecodeError Binding :=
  Decode.record (spec surplus) surplus ⟨"", .static, .null, none, none, .oneWay⟩

end Binding

namespace LoopSource

def ofValue : Value → LoopSource
  | .str s => .path s
  | .arr vs => .items vs
  | v => .other v

end LoopSource

namespace Loop

def spec : Json.Decode.Spec Loop where
  names := ["dataSource", "itemKey", "indexKey"]
  write k t l :=
    match k with
    | "dataSource" => (Decode.value t).map fun v => { l with source := .ofValue v }
    | "itemKey" => (Decode.string t).map fun s => { l with itemKey := s }
    | _ => (Decode.string t).map fun s => { l with indexKey := s }
  required := ["dataSource"]

def ofTree (surplus : DecodeError) : Tree → Except DecodeError Loop :=
  Decode.record spec surplus ⟨.items [], "item", "index"⟩

end Loop

namespace Action

def fieldNames : List String := ["type", "config", "condition", "onError", "onSuccess"]

mutual

def ofTree (surplus : DecodeError) : Tree → Except DecodeError Action
  | .obj ms broken => do
    let read ← ofMembers surplus ms [] { kind := .unknown "" }
    Decode.closed broken
    Decode.complete ["type"] read
  | .arr items broken => do
    let read ← ofPositions surplus fieldNames items [] { kind := .unknown "" }
    Decode.closed broken
    Decode.complete ["type"] read
  | t => .error t.reject

def ofMembers (surplus : DecodeError) : List (Except Json.Fault String × Tree) →
    (seen : List String) → Action → Except DecodeError (Action × List String)
  | [], seen, a => .ok (a, seen)
  | (.error f, _) :: _, _, _ => .error (.text f)
  | (.ok k, t) :: r, seen, a =>
    if fieldNames.contains k then
      if seen.contains k then .error .shape
      else do
        let a ← setField surplus k a t
        ofMembers surplus r (k :: seen) a
    else do
      Json.Decode.skip t
      ofMembers surplus r seen a

def ofPositions (surplus : DecodeError) : List String → List Tree → (seen : List String) →
    Action → Except DecodeError (Action × List String)
  | _, [], seen, a => .ok (a, seen)
  | [], _ :: _, _, _ => .error surplus
  | k :: ks, t :: r, seen, a => do
    let a ← setField surplus k a t
    ofPositions surplus ks r (k :: seen) a

def setField (surplus : DecodeError) (k : String) (a : Action) (t : Tree) :
    Except DecodeError Action :=
  match k with
  | "type" => (Decode.string t).map fun s => { a with kind := .ofTag s }
  | "config" => (Decode.fields Decode.value t).map fun m => { a with config := m }
  | "condition" => (Decode.option Condition.ofTree t).map fun c => { a with condition := c }
  | "onError" => (ofList? surplus t).map fun actions => { a with onError := actions }
  | _ => (ofList? surplus t).map fun actions => { a with onSuccess := actions }

/-- A list of actions, or null where there is none. -/
def ofList? (surplus : DecodeError) : Tree → Except DecodeError (Option (List Action))
  | .null => .ok none
  | .arr items broken => do
    let actions ← ofItems surplus items
    Decode.closed broken
    return some actions
  | t => .error t.reject

def ofItems (surplus : DecodeError) : List Tree → Except DecodeError (List Action)
  | [] => .ok []
  | t :: r => do
    let a ← ofTree surplus t
    let actions ← ofItems surplus r
    return a :: actions

end

end Action

namespace Handler

def spec (surplus : DecodeError) : Json.Decode.Spec Handler where
  names := ["event", "actions", "condition", "debounce", "throttle"]
  write k t h :=
    match k with
    | "event" => (Decode.string t).map fun s => { h with event := s }
    | "actions" =>
      (Decode.list (Action.ofTree surplus) t).map fun actions => { h with actions := actions }
    | "condition" => (Decode.option Condition.ofTree t).map fun c => { h with condition := c }
    | "debounce" => (Decode.option Decode.nat t).map fun n => { h with debounce := n }
    | _ => (Decode.option Decode.nat t).map fun n => { h with throttle := n }
  required := ["event"]

def ofTree (surplus : DecodeError) : Tree → Except DecodeError Handler :=
  Decode.record (spec surplus) surplus { event := "" }

end Handler

namespace Node

def fieldNames : List String :=
  ["id", "type", "props", "style", "layout", "bindings", "events", "condition", "loop", "children",
    "slots", "meta"]

mutual

def ofTree (surplus : DecodeError) : Tree → Except DecodeError Node
  | .obj ms broken => do
    let n ← ofMembers surplus ms [] {}
    Decode.closed broken
    return n
  | .arr items broken => do
    let n ← ofPositions surplus fieldNames items {}
    Decode.closed broken
    return n
  | t => .error t.reject

def ofMembers (surplus : DecodeError) : List (Except Json.Fault String × Tree) →
    (seen : List String) → Node → Except DecodeError Node
  | [], _, n => .ok n
  | (.error f, _) :: _, _, _ => .error (.text f)
  | (.ok k, t) :: r, seen, n =>
    if fieldNames.contains k then
      if seen.contains k then .error .shape
      else do
        let n ← setField surplus k n t
        ofMembers surplus r (k :: seen) n
    else do
      Json.Decode.skip t
      ofMembers surplus r seen n

def ofPositions (surplus : DecodeError) : List String → List Tree → Node → Except DecodeError Node
  | _, [], n => .ok n
  | [], _ :: _, _ => .error surplus
  | k :: ks, t :: r, n => do
    let n ← setField surplus k n t
    ofPositions surplus ks r n

def setField (surplus : DecodeError) (k : String) (n : Node) (t : Tree) :
    Except DecodeError Node :=
  match k with
  | "id" => (Decode.string t).map fun s => { n with id := s }
  | "type" => (Decode.string t).map fun s => { n with type := s }
  | "props" => (Decode.fields Decode.value t).map fun m => { n with props := m }
  | "style" => (Decode.option Decode.value t).map fun v => { n with style := v }
  | "layout" => (Decode.option Decode.value t).map fun v => { n with layout := v }
  | "bindings" => (Decode.list (Binding.ofTree surplus) t).map fun bs => { n with bindings := bs }
  | "events" => (Decode.list (Handler.ofTree surplus) t).map fun hs => { n with events := hs }
  | "condition" => (Decode.option Condition.ofTree t).map fun c => { n with condition := c }
  | "loop" => (Decode.option (Loop.ofTree surplus) t).map fun l => { n with loop := l }
  | "children" => (ofList surplus t).map fun ns => { n with children := ns }
  | "slots" => (ofSlots surplus t).map fun slots => { n with slots := slots }
  | _ => (Decode.option Decode.value t).map fun v => { n with info := v }

def ofList (surplus : DecodeError) : Tree → Except DecodeError (List Node)
  | .arr items broken => do
    let ns ← ofItems surplus items
    Decode.closed broken
    return ns
  | t => .error t.reject

def ofItems (surplus : DecodeError) : List Tree → Except DecodeError (List Node)
  | [] => .ok []
  | t :: r => do
    let n ← ofTree surplus t
    let ns ← ofItems surplus r
    return n :: ns

def ofSlots (surplus : DecodeError) : Tree → Except DecodeError (Fields (List Node))
  | .obj ms broken => do
    let slots ← ofSlotMembers surplus ms
    Decode.closed broken
    return Fields.ofList slots
  | t => .error t.reject

def ofSlotMembers (surplus : DecodeError) : List (Except Json.Fault String × Tree) →
    Except DecodeError (List (String × List Node))
  | [] => .ok []
  | (.error f, _) :: _ => .error (.text f)
  | (.ok k, t) :: r => do
    let ns ← ofList surplus t
    let slots ← ofSlotMembers surplus r
    return (k, ns) :: slots

end

end Node

namespace Page

def spec (surplus : DecodeError) : Json.Decode.Spec Page where
  names := ["id", "version", "name", "root", "meta"]
  write k t p :=
    match k with
    | "id" => (Decode.string t).map fun s => { p with id := s }
    | "version" => (Decode.string t).map fun s => { p with version := s }
    | "name" => (Decode.option Decode.string t).map fun s => { p with name := s }
    | "root" => (Decode.option (Node.ofTree surplus) t).map fun n => { p with root := n }
    | _ => (Decode.fields Decode.value t).map fun m => { p with info := m }

def ofTree (surplus : DecodeError) : Tree → Except DecodeError Page :=
  Decode.record (spec surplus) surplus {}

/-- The page of a document. -/
def ofValue (v : Value) : Except DecodeError Page := ofTree .shape (.ofValue v)

/-- The page of a text. -/
def ofText (text : String) : Except DecodeError Page :=
  (Json.read text.toList).decode (ofTree Json.surplusInText)

end Page

end LivePage
