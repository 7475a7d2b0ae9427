import LivePage.Proofs.Page.Condition

/-!
# Pages that are read again

Each part of a page that was read is read again from what is written for it: bindings, loops,
actions with what follows them, handlers, nodes with all below them, and so the page.
-/

namespace LivePage

open Json (Tree DecodeError Decode.string Decode.value Decode.option Decode.list Decode.fields
  Decode.nat Decode.word Decode.isNull Decode.record Decode.members Decode.positions
  Decode.record_invariant Decode.record_ofValue Decode.list_ofValue Decode.nat_ofValue
  Decode.fields_ofValue Decode.fields_value)
open Json.Decode (Yields Spec)

variable {surplus surplus' : DecodeError}

namespace Binding

/-- What is known of the parts of a binding that was read. -/
structure Parts (b : Binding) : Prop where
  kind : BindingKind.ofTag b.kind.tag = b.kind
  source : Yields Decode.value b.source
  default? : Yields (Decode.option Decode.value) b.default?

theorem parts_of_ofTree {t : Tree} {b : Binding} (h : ofTree surplus t = .ok b) : b.Parts := by
  refine Decode.record_invariant (P := Parts) (fun k t b b' hb hw ↦ ?_)
    ⟨by decide, ⟨.null, rfl⟩, .none⟩ h
  simp only [spec] at hw
  split at hw
  case h_2 =>
    obtain ⟨s, -, rfl⟩ := map_eq_ok_iff.mp hw
    exact { hb with kind := BindingKind.ofTag_tag_ofTag s }
  case h_3 =>
    obtain ⟨v, hv, rfl⟩ := map_eq_ok_iff.mp hw
    exact { hb with source := ⟨t, hv⟩ }
  case h_5 =>
    obtain ⟨v, hv, rfl⟩ := map_eq_ok_iff.mp hw
    exact { hb with default? := ⟨t, hv⟩ }
  all_goals
    obtain ⟨a, -, rfl⟩ := map_eq_ok_iff.mp hw
    exact ⟨hb.kind, hb.source, hb.default?⟩

/-- A binding that was read is read again from what is written for it. -/
theorem ofTree_toValue {b : Binding} (h : Yields (ofTree surplus') b) :
    ofTree surplus (.ofValue b.toValue) = .ok b := by
  obtain ⟨t, h⟩ := h
  obtain ⟨kind_again, source_read, default_read⟩ := parts_of_ofTree h
  obtain ⟨target, kind, source, transform, default?, mode⟩ := b
  refine Decode.record_ofValue ?_ (by simp [spec]) (by simp [spec, Fields.keys])
  simp only [List.append_assoc, List.cons_append, List.nil_append]
  refine .member Decode.string (fun target ↦ ({ target, kind := .static } : Binding)) rfl rfl ?_
  refine .member (fun t ↦ (Decode.string t).map .ofTag) (fun kind ↦ ({ target, kind } : Binding))
    (congrArg Except.ok kind_again) rfl ?_
  refine .member Decode.value (fun source ↦ ({ target, kind, source } : Binding)) source_read.value
    rfl ?_
  refine .optional Decode.string (fun transform ↦ ({ target, kind, source, transform } : Binding))
    (fun _ _ ↦ ⟨by simp, rfl⟩) (fun _ ↦ rfl) ?_
  refine .optionalValue (fun default? ↦ ({ target, kind, source, transform, default? } : Binding))
    default_read (fun _ ↦ rfl) ?_
  refine .member (Decode.word BindingMode.ofTag? surplus Decode.isNull)
    (fun mode ↦ ({ target, kind, source, transform, default?, mode } : Binding)) ?_ rfl .nil
  cases mode <;> rfl

end Binding

theorem LoopSource.toValue_ofValue (v : Value) : (ofValue v).toValue = v := by
  cases v <;> rfl

namespace Loop

/-- The source of a loop that was read is that of a value. -/
def Parts (l : Loop) : Prop :=
  ∃ v, Yields Decode.value v ∧ LoopSource.ofValue v = l.source

theorem parts_of_ofTree {t : Tree} {l : Loop} (h : ofTree surplus t = .ok l) : l.Parts := by
  refine Decode.record_invariant (P := Parts) (fun k t l l' hl hw ↦ ?_)
    ⟨.arr [], ⟨.arr [] none, rfl⟩, rfl⟩ h
  simp only [spec] at hw
  split at hw
  case h_1 =>
    obtain ⟨v, hv, rfl⟩ := map_eq_ok_iff.mp hw
    exact ⟨v, ⟨t, hv⟩, rfl⟩
  all_goals
    obtain ⟨s, -, rfl⟩ := map_eq_ok_iff.mp hw
    exact hl

/-- A loop that was read is read again from what is written for it. -/
theorem ofTree_toValue {l : Loop} (h : Yields (ofTree surplus') l) :
    ofTree surplus (.ofValue l.toValue) = .ok l := by
  obtain ⟨t, h⟩ := h
  obtain ⟨v, read, same⟩ := parts_of_ofTree h
  have source_again : (Decode.value (.ofValue l.source.toValue)).map .ofValue = .ok l.source := by
    rw [← same, LoopSource.toValue_ofValue, read.value]
    rfl
  obtain ⟨source, itemKey, indexKey⟩ := l
  refine Decode.record_ofValue ?_ (by decide) (by simp [spec, Fields.keys])
  refine .member (fun t ↦ (Decode.value t).map .ofValue) (fun source ↦ ({ source } : Loop))
    source_again ?_ ?_
  · change (Decode.value _).map _ = _
    cases Decode.value (.ofValue source.toValue) <;> rfl
  refine .member Decode.string (fun itemKey ↦ ({ source, itemKey } : Loop)) rfl rfl ?_
  exact .member Decode.string (fun indexKey ↦ ({ source, itemKey, indexKey } : Loop)) rfl rfl .nil

end Loop

namespace Action

/-- The fields of an action, as those of any record. -/
def spec (surplus : DecodeError) : Spec Action where
  names := fieldNames
  write k t a :=
    match k with
    | "type" => (Decode.string t).map fun s ↦ { a with kind := .ofTag s }
    | "config" => (Decode.fields Decode.value t).map fun m ↦ { a with config := m }
    | "condition" => (Decode.option Condition.ofTree t).map fun c ↦ { a with condition := c }
    | "onError" =>
      (Decode.option (Decode.list (ofTree surplus)) t).map fun as ↦ { a with onError := as }
    | _ => (Decode.option (Decode.list (ofTree surplus)) t).map fun as ↦ { a with onSuccess := as }
  required := ["type"]

theorem ofItems_eq_mapM (ts : List Tree) : ofItems surplus ts = ts.mapM (ofTree surplus) := by
  induction ts with
  | nil => rw [ofItems, List.mapM_nil]; rfl
  | cons t r ih => rw [ofItems, ih, List.mapM_cons]

theorem ofList?_eq_option (t : Tree) :
    ofList? surplus t = Decode.option (Decode.list (ofTree surplus)) t := by
  cases t with
  | arr ts broken =>
    rw [ofList?, ofItems_eq_mapM, Decode.option, Decode.list]
    · cases ts.mapM (ofTree surplus) with
      | error e => rfl
      | ok as => cases broken <;> rfl
    · simp
  | null => rw [ofList?, Decode.option]
  | _ => simp only [ofList?, Decode.option, Decode.list, Except.map]

theorem setField_eq_write (k : String) (a : Action) (t : Tree) :
    setField surplus k a t = (spec surplus).write k t a := by
  have fields := setField.eq_def surplus k a t
  rw [ofList?_eq_option] at fields
  exact fields

theorem ofMembers_eq_members (ms : List (Except Json.Fault String × Tree)) (seen : List String)
    (a : Action) :
    ofMembers surplus ms seen a = Decode.members (spec surplus) ms seen a := by
  induction ms generalizing seen a with
  | nil => rw [ofMembers, Decode.members]
  | cons m r ih =>
    obtain ⟨k | k, t⟩ := m
    · rw [ofMembers, Decode.members]
    · simp only [ofMembers, Decode.members, ih, setField_eq_write]
      rfl

theorem ofPositions_eq_positions (names : List String) (ts : List Tree) (seen : List String)
    (a : Action) :
    ofPositions surplus names ts seen a =
      Decode.positions (spec surplus) surplus names ts seen a := by
  induction ts generalizing names seen a with
  | nil => rw [ofPositions, Decode.positions]
  | cons t r ih =>
    cases names with
    | nil => rw [ofPositions, Decode.positions]
    | cons k ks =>
      simp only [ofPositions, Decode.positions, ih, setField_eq_write]

/-- An action is read as a record. -/
theorem ofTree_eq_record (t : Tree) : ofTree surplus t =
    Decode.record (spec surplus) surplus { kind := .unknown "" } t := by
  cases t with
  | obj ms broken =>
    rw [ofTree, Decode.record, ofMembers_eq_members]
    rfl
  | arr items broken =>
    rw [ofTree, Decode.record, ofPositions_eq_positions]
    rfl
  | _ => simp only [ofTree, Decode.record]

/-- What is known of the parts of an action that was read. -/
structure Parts (surplus : DecodeError) (a : Action) : Prop where
  kind : ActionKind.ofTag a.kind.tag = a.kind
  config : Yields (Decode.fields Decode.value) a.config
  condition : Yields (Decode.option Condition.ofTree) a.condition
  onError : Yields (Decode.option (Decode.list (ofTree surplus))) a.onError
  onSuccess : Yields (Decode.option (Decode.list (ofTree surplus))) a.onSuccess

theorem parts_of_ofTree {t : Tree} {a : Action} (h : ofTree surplus t = .ok a) :
    a.Parts surplus := by
  rw [ofTree_eq_record] at h
  refine Decode.record_invariant (P := Parts surplus) (fun k t a a' ha hw ↦ ?_)
    ⟨by decide, .empty, .none, .none, .none⟩ h
  simp only [spec] at hw
  split at hw
  · obtain ⟨s, -, rfl⟩ := map_eq_ok_iff.mp hw
    exact { ha with kind := ActionKind.ofTag_tag_ofTag s }
  · obtain ⟨m, hm, rfl⟩ := map_eq_ok_iff.mp hw
    exact { ha with config := ⟨t, hm⟩ }
  · obtain ⟨c, hc, rfl⟩ := map_eq_ok_iff.mp hw
    exact { ha with condition := ⟨t, hc⟩ }
  · obtain ⟨as, has, rfl⟩ := map_eq_ok_iff.mp hw
    exact { ha with onError := ⟨t, has⟩ }
  · obtain ⟨as, has, rfl⟩ := map_eq_ok_iff.mp hw
    exact { ha with onSuccess := ⟨t, has⟩ }

theorem actionValues_eq_map (as : List Action) : actionValues as = as.map toValue := by
  induction as with
  | nil => rfl
  | cons a r ih => rw [actionValues, ih, List.map_cons]

theorem actionsValue?_eq_map (as? : Option (List Action)) :
    actionsValue? as? = as?.map fun as ↦ .arr (as.map toValue) := by
  cases as? with
  | none => rfl
  | some as => rw [actionsValue?, actionValues_eq_map, Option.map_some]

theorem ofTree_of_parts {a : Action} (h : a.Parts surplus')
    (onError : ∀ as, a.onError = some as →
      ∀ b ∈ as, ofTree surplus (.ofValue b.toValue) = .ok b)
    (onSuccess : ∀ as, a.onSuccess = some as →
      ∀ b ∈ as, ofTree surplus (.ofValue b.toValue) = .ok b) :
    ofTree surplus (.ofValue a.toValue) = .ok a := by
  have follows {as? : Option (List Action)}
      (h : ∀ as, as? = some as → ∀ b ∈ as, ofTree surplus (.ofValue b.toValue) = .ok b) :
      ∀ as, as? = some as → Value.arr (as.map toValue) ≠ .null ∧
        Decode.list (ofTree surplus) (.ofValue (.arr (as.map toValue))) = .ok as :=
    fun as has ↦ ⟨by simp, Decode.list_ofValue (h as has)⟩
  obtain ⟨kind, config, condition, failed, succeeded⟩ := a
  rw [ofTree_eq_record, toValue, actionsValue?_eq_map, actionsValue?_eq_map]
  refine Decode.record_ofValue (.of_append_nil ?_) (by simp [spec, fieldNames])
    (by simp [spec, Fields.keys])
  simp only [List.append_assoc, List.cons_append, List.nil_append]
  refine .member (fun t ↦ (Decode.string t).map .ofTag) (fun kind ↦ ({ kind } : Action))
    (congrArg Except.ok h.kind) rfl ?_
  refine .member (Decode.fields Decode.value) (fun config ↦ ({ kind, config } : Action))
    (Decode.fields_value h.config) rfl ?_
  refine .optional Condition.ofTree (fun condition ↦ ({ kind, config, condition } : Action))
    (h.condition.option_again fun c ↦ Condition.again_of_yields)
    (fun _ ↦ rfl) ?_
  refine .optional (Decode.list (ofTree surplus))
    (fun onError ↦ ({ kind, config, condition, onError } : Action)) (follows onError)
    (fun _ ↦ rfl) ?_
  exact .optional (Decode.list (ofTree surplus))
    (fun onSuccess ↦ ({ kind, config, condition, onError := failed, onSuccess } : Action))
    (follows onSuccess) (fun _ ↦ rfl) .nil

theorem sizeOf_lt_of_mem {as : List Action} {b : Action} (hb : b ∈ as) :
    sizeOf b < sizeOf (some as) := by
  have := List.sizeOf_lt_of_mem hb
  simp only [Option.some.sizeOf_spec]
  omega

/-- An action that was read is read again from what is written for it. -/
theorem ofTree_toValue (a : Action) (h : Yields (ofTree surplus') a) :
    ofTree surplus (.ofValue a.toValue) = .ok a := by
  obtain ⟨t, h⟩ := h
  have parts := parts_of_ofTree h
  refine ofTree_of_parts parts (fun as has b hb ↦ ?_) (fun as has b hb ↦ ?_)
  · have read := parts.onError
    rw [has] at read
    exact ofTree_toValue b (read.of_option.of_list b hb)
  · have read := parts.onSuccess
    rw [has] at read
    exact ofTree_toValue b (read.of_option.of_list b hb)
termination_by sizeOf a
decreasing_by
  all_goals
    have := sizeOf_lt_of_mem hb
    rw [← has] at this
    cases a
    simp only [mk.sizeOf_spec] at this ⊢
    omega

end Action

namespace Handler

/-- What is known of the parts of a handler that was read. -/
structure Parts (surplus : DecodeError) (h : Handler) : Prop where
  actions : Yields (Decode.list (Action.ofTree surplus)) h.actions
  condition : Yields (Decode.option Condition.ofTree) h.condition

theorem parts_of_ofTree {t : Tree} {x : Handler} (h : ofTree surplus t = .ok x) :
    x.Parts surplus := by
  refine Decode.record_invariant (P := Parts surplus) (fun k t x x' hx hw ↦ ?_) ⟨.nil, .none⟩ h
  simp only [spec] at hw
  split at hw
  case h_2 =>
    obtain ⟨as, has, rfl⟩ := map_eq_ok_iff.mp hw
    exact { hx with actions := ⟨t, has⟩ }
  case h_3 =>
    obtain ⟨c, hc, rfl⟩ := map_eq_ok_iff.mp hw
    exact { hx with condition := ⟨t, hc⟩ }
  all_goals
    obtain ⟨a, -, rfl⟩ := map_eq_ok_iff.mp hw
    exact ⟨hx.actions, hx.condition⟩

/-- A handler that was read is read again from what is written for it. -/
theorem ofTree_toValue {x : Handler} (h : Yields (ofTree surplus') x) :
    ofTree surplus (.ofValue x.toValue) = .ok x := by
  obtain ⟨t, h⟩ := h
  obtain ⟨actions_read, condition_read⟩ := parts_of_ofTree h
  obtain ⟨event, actions, condition, debounce, throttle⟩ := x
  rw [toValue, Action.actionValues_eq_map]
  refine Decode.record_ofValue (.of_append_nil ?_) (by simp [spec]) (by simp [spec, Fields.keys])
  simp only [List.append_assoc, List.cons_append, List.nil_append]
  refine .member Decode.string (fun event ↦ ({ event } : Handler)) rfl rfl ?_
  have actions_again : Decode.list (Action.ofTree surplus)
      (.ofValue (.arr (actions.map Action.toValue))) = .ok actions :=
    Decode.list_ofValue fun a ha ↦ a.ofTree_toValue (actions_read.of_list a ha)
  refine .member (Decode.list (Action.ofTree surplus))
    (fun actions ↦ ({ event, actions } : Handler)) actions_again rfl ?_
  refine .optional Condition.ofTree (fun condition ↦ ({ event, actions, condition } : Handler))
    (condition_read.option_again fun c ↦ Condition.again_of_yields) (fun _ ↦ rfl) ?_
  have number_again (n : Nat) : Value.nat n ≠ .null ∧ Decode.nat (.ofValue (.nat n)) = .ok n :=
    ⟨by simp [Value.nat, Value.int], Decode.nat_ofValue n⟩
  refine .optional Decode.nat (fun debounce ↦ ({ event, actions, condition, debounce } : Handler))
    (fun n _ ↦ number_again n) (fun _ ↦ rfl) ?_
  exact .optional Decode.nat
    (fun throttle ↦ ({ event, actions, condition, debounce, throttle } : Handler))
    (fun n _ ↦ number_again n) (fun _ ↦ rfl) .nil

end Handler

namespace Node

/-- The fields of a node, as those of any record. -/
def spec (surplus : DecodeError) : Spec Node where
  names := fieldNames
  write k t n :=
    match k with
    | "id" => (Decode.string t).map fun s ↦ { n with id := s }
    | "type" => (Decode.string t).map fun s ↦ { n with type := s }
    | "props" => (Decode.fields Decode.value t).map fun m ↦ { n with props := m }
    | "style" => (Decode.option Decode.value t).map fun v ↦ { n with style := v }
    | "layout" => (Decode.option Decode.value t).map fun v ↦ { n with layout := v }
    | "bindings" => (Decode.list (Binding.ofTree surplus) t).map fun bs ↦ { n with bindings := bs }
    | "events" => (Decode.list (Handler.ofTree surplus) t).map fun hs ↦ { n with events := hs }
    | "condition" => (Decode.option Condition.ofTree t).map fun c ↦ { n with condition := c }
    | "loop" => (Decode.option (Loop.ofTree surplus) t).map fun l ↦ { n with loop := l }
    | "children" => (Decode.list (ofTree surplus) t).map fun ns ↦ { n with children := ns }
    | "slots" => (Decode.fields (Decode.list (ofTree surplus)) t).map fun m ↦ { n with slots := m }
    | _ => (Decode.option Decode.value t).map fun v ↦ { n with info := v }

theorem ofItems_eq_mapM (ts : List Tree) : ofItems surplus ts = ts.mapM (ofTree surplus) := by
  induction ts with
  | nil => rw [ofItems, List.mapM_nil]; rfl
  | cons t r ih => rw [ofItems, ih, List.mapM_cons]

theorem ofList_eq_list (t : Tree) : ofList surplus t = Decode.list (ofTree surplus) t := by
  cases t with
  | arr ts broken => rw [ofList, ofItems_eq_mapM, Decode.list]
  | _ => simp only [ofList, Decode.list]

theorem ofSlotMembers_eq_mapM (ms : List (Except Json.Fault String × Tree)) :
    ofSlotMembers surplus ms =
      ms.mapM fun m ↦ do return (← Json.Decode.key m.1, ← Decode.list (ofTree surplus) m.2) := by
  induction ms with
  | nil => rw [ofSlotMembers, List.mapM_nil]; rfl
  | cons m r ih =>
    obtain ⟨k | k, t⟩ := m
    · rw [ofSlotMembers, List.mapM_cons]
      rfl
    · rw [ofSlotMembers, ih, List.mapM_cons, ofList_eq_list]
      cases Decode.list (ofTree surplus) t <;> rfl

theorem ofSlots_eq_fields (t : Tree) :
    ofSlots surplus t = Decode.fields (Decode.list (ofTree surplus)) t := by
  cases t with
  | obj ms broken =>
    rw [ofSlots, ofSlotMembers_eq_mapM, Decode.fields]
  | _ => simp only [ofSlots, Decode.fields]

theorem setField_eq_write (k : String) (n : Node) (t : Tree) :
    setField surplus k n t = (spec surplus).write k t n := by
  have fields := setField.eq_def surplus k n t
  rw [ofList_eq_list, ofSlots_eq_fields] at fields
  exact fields

theorem ofMembers_eq_members (ms : List (Except Json.Fault String × Tree)) (seen : List String)
    (n : Node) :
    ofMembers surplus ms seen n = (Decode.members (spec surplus) ms seen n).map Prod.fst := by
  induction ms generalizing seen n with
  | nil => rw [ofMembers, Decode.members]; rfl
  | cons m r ih =>
    obtain ⟨k | k, t⟩ := m
    · rw [ofMembers, Decode.members]
      rfl
    · rw [ofMembers, Decode.members, setField_eq_write]
      change (if (spec surplus).names.contains k then _ else _) = _
      split
      · split
        · rfl
        · cases (spec surplus).write k t n with
          | error e => rfl
          | ok n => exact ih (k :: seen) n
      · cases Json.Decode.skip t with
        | error e => rfl
        | ok _ => exact ih seen n

theorem ofPositions_eq_positions (names : List String) (ts : List Tree) (seen : List String)
    (n : Node) :
    ofPositions surplus names ts n =
      (Decode.positions (spec surplus) surplus names ts seen n).map Prod.fst := by
  induction ts generalizing names seen n with
  | nil => rw [ofPositions, Decode.positions]; rfl
  | cons t r ih =>
    cases names with
    | nil => rw [ofPositions, Decode.positions]; rfl
    | cons k ks =>
      rw [ofPositions, Decode.positions, setField_eq_write]
      cases (spec surplus).write k t n with
      | error e => rfl
      | ok n => exact ih ks (k :: seen) n

/-- A node is read as a record. -/
theorem ofTree_eq_record (t : Tree) :
    ofTree surplus t = Decode.record (spec surplus) surplus {} t := by
  cases t with
  | obj ms broken =>
    rw [ofTree, Decode.record, ofMembers_eq_members]
    cases Decode.members (spec surplus) ms [] {} with
    | error e => rfl
    | ok read => rfl
  | arr items broken =>
    have names : (spec surplus).names = fieldNames := rfl
    rw [ofTree, Decode.record, names, ofPositions_eq_positions fieldNames items []]
    cases Decode.positions (spec surplus) surplus fieldNames items [] {} with
    | error e => rfl
    | ok read => rfl
  | _ => simp only [ofTree, Decode.record]

/-- What is known of the parts of a node that was read. -/
structure Parts (surplus : DecodeError) (n : Node) : Prop where
  props : Yields (Decode.fields Decode.value) n.props
  style : Yields (Decode.option Decode.value) n.style
  layout : Yields (Decode.option Decode.value) n.layout
  bindings : Yields (Decode.list (Binding.ofTree surplus)) n.bindings
  events : Yields (Decode.list (Handler.ofTree surplus)) n.events
  condition : Yields (Decode.option Condition.ofTree) n.condition
  loop : Yields (Decode.option (Loop.ofTree surplus)) n.loop
  children : Yields (Decode.list (ofTree surplus)) n.children
  slots : Yields (Decode.fields (Decode.list (ofTree surplus))) n.slots
  info : Yields (Decode.option Decode.value) n.info

theorem parts_of_ofTree {t : Tree} {n : Node} (h : ofTree surplus t = .ok n) :
    n.Parts surplus := by
  rw [ofTree_eq_record] at h
  refine Decode.record_invariant (P := Parts surplus) (fun k t n n' hn hw ↦ ?_)
    ⟨.empty, .none, .none, .nil, .nil, .none, .none, .nil, .empty, .none⟩ h
  simp only [spec] at hw
  split at hw
  all_goals
    obtain ⟨a, ha, rfl⟩ := map_eq_ok_iff.mp hw
  · exact { hn with }
  · exact { hn with }
  · exact { hn with props := ⟨t, ha⟩ }
  · exact { hn with style := ⟨t, ha⟩ }
  · exact { hn with layout := ⟨t, ha⟩ }
  · exact { hn with bindings := ⟨t, ha⟩ }
  · exact { hn with events := ⟨t, ha⟩ }
  · exact { hn with condition := ⟨t, ha⟩ }
  · exact { hn with loop := ⟨t, ha⟩ }
  · exact { hn with children := ⟨t, ha⟩ }
  · exact { hn with slots := ⟨t, ha⟩ }
  · exact { hn with info := ⟨t, ha⟩ }

theorem nodeValues_eq_map (ns : List Node) : nodeValues ns = ns.map toValue := by
  induction ns with
  | nil => rfl
  | cons n r ih => rw [nodeValues, ih, List.map_cons]

theorem slotValues_eq_map (ss : List (String × List Node)) :
    slotValues ss = ss.map fun s ↦ (s.1, .arr (s.2.map toValue)) := by
  induction ss with
  | nil => rfl
  | cons s r ih =>
    obtain ⟨k, ns⟩ := s
    rw [slotValues, ih, nodeValues_eq_map, List.map_cons]

theorem ofTree_of_parts {n : Node} (h : n.Parts surplus')
    (children : ∀ m ∈ n.children, ofTree surplus (.ofValue m.toValue) = .ok m)
    (slots : ∀ s ∈ n.slots, ∀ m ∈ s.2, ofTree surplus (.ofValue m.toValue) = .ok m) :
    ofTree surplus (.ofValue n.toValue) = .ok n := by
  obtain ⟨id, type, props, style, layout, bindings, events, condition, loop, nodes, named,
    info⟩ := n
  rw [ofTree_eq_record, toValue, nodeValues_eq_map, slotValues_eq_map]
  refine Decode.record_ofValue (.of_append_nil ?_) (by simp [spec, fieldNames])
    (List.forall_mem_nil _)
  simp only [List.append_assoc, List.cons_append, List.nil_append]
  refine .member Decode.string (fun id ↦ ({ id } : Node)) rfl rfl ?_
  refine .member Decode.string (fun type ↦ ({ id, type } : Node)) rfl rfl ?_
  refine .member (Decode.fields Decode.value) (fun props ↦ ({ id, type, props } : Node))
    (Decode.fields_value h.props) rfl ?_
  refine .optionalValue (fun style ↦ ({ id, type, props, style } : Node)) h.style (fun _ ↦ rfl) ?_
  refine .optionalValue (fun layout ↦ ({ id, type, props, style, layout } : Node)) h.layout
    (fun _ ↦ rfl) ?_
  refine .listMember (Binding.ofTree surplus)
    (fun bindings ↦ ({ id, type, props, style, layout, bindings } : Node))
    (fun b hb ↦ Binding.ofTree_toValue (h.bindings.of_list b hb)) (fun _ ↦ rfl) ?_
  refine .listMember (Handler.ofTree surplus)
    (fun events ↦ ({ id, type, props, style, layout, bindings, events } : Node))
    (fun x hx ↦ Handler.ofTree_toValue (h.events.of_list x hx)) (fun _ ↦ rfl) ?_
  refine .optional Condition.ofTree (fun condition ↦
      ({ id, type, props, style, layout, bindings, events, condition } : Node))
    (h.condition.option_again fun c ↦ Condition.again_of_yields) (fun _ ↦ rfl) ?_
  refine .optional (Loop.ofTree surplus) (fun loop ↦
      ({ id, type, props, style, layout, bindings, events, condition, loop } : Node))
    (h.loop.option_again fun l hl ↦ ⟨by simp [Loop.toValue], Loop.ofTree_toValue hl⟩) (fun _ ↦ rfl) ?_
  refine .listMember (ofTree surplus) (fun children ↦
      ({ id, type, props, style, layout, bindings, events, condition, loop, children } : Node))
    children (fun _ ↦ rfl) ?_
  refine .objectMember (Decode.list (ofTree surplus)) (fun ns ↦ .arr (ns.map toValue))
    (fun slots ↦
      ({ id, type, props, style, layout, bindings, events, condition, loop, children := nodes,
         slots } : Node))
    h.slots.of_fields.1 (fun s hs ↦ Decode.list_ofValue (slots s hs)) (fun _ ↦ rfl) ?_
  exact .optionalValue (fun info ↦
      ({ id, type, props, style, layout, bindings, events, condition, loop, children := nodes,
         slots := named, info } : Node)) h.info (fun _ ↦ rfl) .nil

/-- A node that was read is read again from what is written for it, with all below it. -/
theorem ofTree_toValue (n : Node) :
    Yields (ofTree surplus') n → ofTree surplus (.ofValue n.toValue) = .ok n := by
  induction n using Node.induction with
  | step n children slots =>
    rintro ⟨t, h⟩
    have parts := parts_of_ofTree h
    refine ofTree_of_parts parts (fun m hm ↦ children m hm (parts.children.of_list m hm)) ?_
    intro s hs m hm
    exact slots s hs m hm ((parts.slots.of_fields.2 s hs).of_list m hm)

theorem toValue_ne_null (n : Node) : n.toValue ≠ .null := by
  cases n
  simp [toValue]

end Node

namespace Page

/-- What is known of the parts of a page that was read. -/
structure Parts (surplus : DecodeError) (p : Page) : Prop where
  root : Yields (Decode.option (Node.ofTree surplus)) p.root
  info : Yields (Decode.fields Decode.value) p.info

theorem parts_of_ofTree {t : Tree} {p : Page} (h : ofTree surplus t = .ok p) :
    p.Parts surplus := by
  refine Decode.record_invariant (P := Parts surplus) (fun k t p p' hp hw ↦ ?_) ⟨.none, .empty⟩ h
  simp only [spec] at hw
  split at hw
  case h_4 =>
    obtain ⟨n, hn, rfl⟩ := map_eq_ok_iff.mp hw
    exact { hp with root := ⟨t, hn⟩ }
  case h_5 =>
    obtain ⟨m, hm, rfl⟩ := map_eq_ok_iff.mp hw
    exact { hp with info := ⟨t, hm⟩ }
  all_goals
    obtain ⟨s, -, rfl⟩ := map_eq_ok_iff.mp hw
    exact ⟨hp.root, hp.info⟩

/-- A page that was read is read again from what is written for it. -/
theorem ofTree_toValue {p : Page} (h : Yields (ofTree surplus') p) :
    ofTree surplus (.ofValue p.toValue) = .ok p := by
  obtain ⟨t, h⟩ := h
  obtain ⟨root_read, info_read⟩ := parts_of_ofTree h
  obtain ⟨key, version, name, root, info⟩ := p
  refine Decode.record_ofValue (.of_append_nil ?_) (by simp [spec]) (List.forall_mem_nil _)
  simp only [List.append_assoc, List.cons_append, List.nil_append]
  refine .member Decode.string (fun key ↦ ({ id := key } : Page)) rfl rfl ?_
  refine .member Decode.string (fun version ↦ ({ id := key, version } : Page)) rfl rfl ?_
  refine .optional Decode.string (fun name ↦ ({ id := key, version, name } : Page))
    (fun _ _ ↦ ⟨by simp, rfl⟩) (fun _ ↦ rfl) ?_
  refine .optional (Node.ofTree surplus) (fun root ↦ ({ id := key, version, name, root } : Page))
    (root_read.option_again fun n hn ↦ ⟨n.toValue_ne_null, n.ofTree_toValue hn⟩) (fun _ ↦ rfl) ?_
  exact .objectValue (fun info ↦ ({ id := key, version, name, root, info } : Page)) info_read
    (fun _ ↦ rfl) .nil

end Page

end LivePage
