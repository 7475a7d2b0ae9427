import LivePage.Proofs.Json.Nesting
import LivePage.Proofs.Page.Reload

/-!
# Pages that are nested too deep

All of what is written for a page is read, at every place of it.  So a page whose document is nested
deeper than the reader of texts goes is not read from its text.
-/

namespace LivePage

open Json (Tree DecodeError maxDepth withinMembers inDepth of_inDepth depth_of_value)
open Json.Decode (ReadsAll)

variable {surplus : DecodeError}

namespace Condition

variable {nested : Bool} {depth : Nat} {ms : List (String × Value)}

theorem depth_of_tag {v : Value} {s : String} (bound : depth ≤ maxDepth)
    (read : tag nested (.within depth v) = .ok s) : depth + v.depth ≤ maxDepth := by
  cases v with
  | arr | obj =>
    rw [Tree.within, inDepth] at read
    split at read <;> cases read
  | _ => exact bound

/-- The members of a condition are read even where its tag makes nothing of them. -/
theorem depth_of_tagOf {found found' : Option String} (bound : depth ≤ maxDepth)
    (read : tagOf nested (withinMembers depth ms) found = .ok found') :
    ∀ m ∈ ms, depth + m.2.depth ≤ maxDepth := by
  induction ms generalizing found with
  | nil => exact List.forall_mem_nil _
  | cons m r ih =>
    obtain ⟨k, v⟩ := m
    rw [withinMembers, tagOf] at read
    split at read
    · split at read
      · cases read
      · obtain ⟨s, first, others⟩ := bind_eq_ok_iff.mp read
        exact List.forall_mem_cons.mpr ⟨depth_of_tag bound first, ih others⟩
    · obtain ⟨_, first, others⟩ := bind_eq_ok_iff.mp read
      obtain ⟨w, first, -⟩ := map_eq_ok_iff.mp first
      have first := depth_of_value v bound (Json.Decode.value_eq_ok_iff.mp first)
      exact List.forall_mem_cons.mpr ⟨first, ih others⟩

theorem exists_toValue_eq_obj (c : Condition) : ∃ ms, c.toValue = .obj ms := by
  cases c <;> exact ⟨_, rfl⟩

theorem readsAll (c : Condition) : ReadsAll (decode nested) c.toValue := by
  intro depth c' _ read
  obtain ⟨ms, object⟩ := c.exists_toValue_eq_obj
  rw [object, Tree.within] at read
  obtain ⟨below, read⟩ := of_inDepth (f := decode nested) (fun _ h ↦ by simp [decode] at h) read
  rw [decode] at read
  obtain ⟨_, read, -⟩ := bind_eq_ok_iff.mp read
  have fits := Value.depthOfMembers_le below (depth_of_tagOf below read)
  rw [object, Value.depth]
  omega

end Condition

namespace Binding

theorem readsAll (b : Binding) : ReadsAll (ofTree surplus) b.toValue := by
  refine .record (.of_append_nil ?_)
  simp only [List.append_assoc, List.cons_append, List.nil_append]
  refine .member (fun _ ↦ .flat rfl) ?_
  refine .member (fun _ ↦ .flat rfl) ?_
  refine .member (fun _ ↦ (ReadsAll.value _).map _) ?_
  refine .optional (fun _ _ _ ↦ .flat rfl) ?_
  refine .optionalValue (fun v _ ↦ (ReadsAll.value v).option.map _) ?_
  exact .member (fun _ ↦ .flat rfl) .nil

end Binding

theorem Loop.readsAll (l : Loop) : ReadsAll (ofTree surplus) l.toValue := by
  refine .record (.member (fun _ ↦ (ReadsAll.value _).map _) ?_)
  refine .member (fun _ ↦ .flat rfl) ?_
  exact .member (fun _ ↦ .flat rfl) .nil

namespace Action

theorem ofTree_eq : ofTree surplus =
    Json.Decode.record (spec surplus) surplus { kind := .unknown "" } :=
  funext ofTree_eq_record

theorem readsAll (a : Action) : ReadsAll (ofTree surplus) a.toValue := by
  rw [ofTree_eq]
  obtain ⟨kind, config, condition, failed, succeeded⟩ := a
  rw [toValue, actionsValue?_eq_map, actionsValue?_eq_map]
  refine .record (.of_append_nil ?_)
  simp only [List.append_assoc, List.cons_append, List.nil_append]
  refine .member (fun _ ↦ .flat rfl) ?_
  refine .member (fun _ ↦ (ReadsAll.fields fun m _ ↦ .value m.2).map _) ?_
  refine .optional (fun c _ _ ↦ c.readsAll.option.map _) ?_
  refine .optional (fun as has _ ↦ ReadsAll.map (.option (.list ?_)) _) ?_
  · rintro _ hv
    obtain ⟨b, hb, rfl⟩ := List.mem_map.mp hv
    exact readsAll b
  refine .optional (fun as has _ ↦ ReadsAll.map (.option (.list ?_)) _) .nil
  · rintro _ hv
    obtain ⟨b, hb, rfl⟩ := List.mem_map.mp hv
    exact readsAll b
termination_by sizeOf a
decreasing_by
  all_goals
    have := sizeOf_lt_of_mem hb
    rw [← has] at this
    simp only [mk.sizeOf_spec] at this ⊢
    omega

end Action

theorem Handler.readsAll (x : Handler) : ReadsAll (ofTree surplus) x.toValue := by
  obtain ⟨event, actions, condition, debounce, throttle⟩ := x
  rw [toValue, Action.actionValues_eq_map]
  refine .record (.of_append_nil ?_)
  simp only [List.append_assoc, List.cons_append, List.nil_append]
  refine .member (fun _ ↦ .flat rfl) ?_
  refine .member (fun _ ↦ ReadsAll.map (.list (List.forall_mem_map.mpr fun a _ ↦ a.readsAll)) _) ?_
  refine .optional (fun c _ _ ↦ c.readsAll.option.map _) ?_
  refine .optional (fun _ _ _ ↦ .flat rfl) ?_
  exact .optional (fun _ _ _ ↦ .flat rfl) .nil

namespace Node

theorem ofTree_eq : ofTree surplus = Json.Decode.record (spec surplus) surplus {} :=
  funext ofTree_eq_record

theorem readsAll (n : Node) : ReadsAll (ofTree surplus) n.toValue := by
  induction n using Node.induction with
  | step n below slotted =>
    obtain ⟨id, type, props, style, layout, bindings, events, condition, loop, nodes, named,
      info⟩ := n
    rw [toValue, nodeValues_eq_map, slotValues_eq_map]
    have lists {ns : List Node} (h : ∀ n ∈ ns, ReadsAll (ofTree surplus) n.toValue) :
        ReadsAll (Json.Decode.list (ofTree surplus)) (.arr (ns.map toValue)) :=
      .list (List.forall_mem_map.mpr h)
    rw [ofTree_eq]
    refine .record (.of_append_nil ?_)
    simp only [List.append_assoc, List.cons_append, List.nil_append]
    refine .member (fun _ ↦ .flat rfl) ?_
    refine .member (fun _ ↦ .flat rfl) ?_
    refine .member (fun _ ↦ (ReadsAll.fields fun m _ ↦ .value m.2).map _) ?_
    refine .optionalValue (fun v _ ↦ (ReadsAll.value v).option.map _) ?_
    refine .optionalValue (fun v _ ↦ (ReadsAll.value v).option.map _) ?_
    refine .listMember (fun _ ↦ ReadsAll.map
      (.list (List.forall_mem_map.mpr fun b _ ↦ b.readsAll)) _) ?_
    refine .listMember (fun _ ↦ ReadsAll.map
      (.list (List.forall_mem_map.mpr fun x _ ↦ x.readsAll)) _) ?_
    refine .optional (fun c _ _ ↦ c.readsAll.option.map _) ?_
    refine .optional (fun l _ _ ↦ l.readsAll.option.map _) ?_
    refine .listMember (fun _ ↦ (lists below).map _) ?_
    refine .objectMember (fun _ ↦ ReadsAll.map
      (.fields (List.forall_mem_map.mpr fun s hs ↦ lists (slotted s hs))) _) ?_
    exact .optionalValue (fun v _ ↦ (ReadsAll.value v).option.map _) .nil

end Node

theorem Page.readsAll (p : Page) : ReadsAll (ofTree surplus) p.toValue := by
  refine .record (.of_append_nil ?_)
  simp only [List.append_assoc, List.cons_append, List.nil_append]
  refine .member (fun _ ↦ .flat rfl) ?_
  refine .member (fun _ ↦ .flat rfl) ?_
  refine .optional (fun _ _ _ ↦ .flat rfl) ?_
  refine .optional (fun n _ _ ↦ n.readsAll.option.map _) ?_
  exact .objectMember (fun _ ↦ (ReadsAll.fields fun m _ ↦ .value m.2).map _) .nil

end LivePage
