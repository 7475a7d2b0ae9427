import LivePage.Page.Tree

/-!
# Pages as documents

Members are written in a fixed order; those that say nothing are left out.
-/

namespace LivePage

open Fields (optional)

mutual

def Condition.toValue : Condition → Value
  | .simple field comparison value =>
    .obj ([("type", .str "simple"), ("field", .str field)] ++
      optional "operator" (comparison.map fun c => .str c.tag) ++ [("value", value)])
  | .complex logic conditions =>
    .obj [("type", .str "complex"), ("logic", .str logic.tag),
      ("conditions", .arr (conditionValues conditions))]
  | .raw expression => .obj [("type", .str "raw"), ("expression", .str expression)]
  | .unknown => .obj [("type", .str "unknown")]

def conditionValues : List Condition → List Value
  | [] => []
  | c :: r => c.toValue :: conditionValues r

end

def Binding.toValue (b : Binding) : Value :=
  .obj ([("target", .str b.target), ("type", .str b.kind.tag), ("source", b.source)] ++
    optional "transform" (b.transform.map .str) ++ optional "defaultValue" b.default? ++
    [("mode", .str b.mode.tag)])

def LoopSource.toValue : LoopSource → Value
  | .path text => .str text
  | .items values => .arr values
  | .other value => value

def Loop.toValue (l : Loop) : Value :=
  .obj [("dataSource", l.source.toValue), ("itemKey", .str l.itemKey),
    ("indexKey", .str l.indexKey)]

mutual

def Action.toValue : Action → Value
  | { kind, config, condition, onError, onSuccess } =>
    .obj ([("type", .str kind.tag), ("config", .obj config)] ++
      optional "condition" (condition.map Condition.toValue) ++
      optional "onError" (actionsValue? onError) ++ optional "onSuccess" (actionsValue? onSuccess))

def actionsValue? : Option (List Action) → Option Value
  | none => none
  | some actions => some (.arr (actionValues actions))

def actionValues : List Action → List Value
  | [] => []
  | a :: r => a.toValue :: actionValues r

end

def Handler.toValue (h : Handler) : Value :=
  .obj ([("event", .str h.event), ("actions", .arr (actionValues h.actions))] ++
    optional "condition" (h.condition.map Condition.toValue) ++
    optional "debounce" (h.debounce.map Value.nat) ++
    optional "throttle" (h.throttle.map Value.nat))

mutual

def Node.toValue : Node → Value
  | { id, type, props, style, layout, bindings, events, condition, loop, children, slots, info } =>
    .obj ([("id", .str id), ("type", .str type), ("props", .obj props)] ++
      optional "style" style ++ optional "layout" layout ++
      Value.listMember "bindings" (bindings.map Binding.toValue) ++
      Value.listMember "events" (events.map Handler.toValue) ++
      optional "condition" (condition.map Condition.toValue) ++
      optional "loop" (loop.map Loop.toValue) ++
      Value.listMember "children" (nodeValues children) ++
      Value.objectMember "slots" (slotValues slots) ++
      optional "meta" info)

def nodeValues : List Node → List Value
  | [] => []
  | n :: r => n.toValue :: nodeValues r

def slotValues : List (String × List Node) → List (String × Value)
  | [] => []
  | (k, ns) :: r => (k, .arr (nodeValues ns)) :: slotValues r

end

def Page.toValue (p : Page) : Value :=
  .obj ([("id", .str p.id), ("version", .str p.version)] ++ optional "name" (p.name.map .str) ++
    optional "root" (p.root.map Node.toValue) ++
    Value.objectMember "meta" p.info)

end LivePage
