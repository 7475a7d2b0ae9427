import Mathlib
import LivePage.Page.Encode
import LivePage.Proofs.Page.Sources

/-!
# Tags that are kept

What is written for a page that was loaded mirrors the document of which it was: it has the same
parts at the same places, and at each place the tag that was there.  A tag that is known goes by its
name there, and others are as they were, but for those of conditions, which are lost.
-/

namespace LivePage

open Json (Tree DecodeError)
open Json.Decode (Source)

/-- What is read from a document, and what is written for it; where there is nothing, nothing is. -/
inductive Copied {α : Type} (decode : Tree → Except DecodeError α) (encode : α → Value) :
    Tree → Tree → Prop where
  | nothing : Copied decode encode .null .null
  | copy {t : Tree} {a : α} (read : decode t = .ok a) : Copied decode encode t (.ofValue (encode a))

namespace Shape

/-- A part of a document, and what is written for it. -/
def Mirrors (surplus : DecodeError) : Shape → Tree → Tree → Prop
  | page, t, t' => Copied (Page.ofTree surplus) Page.toValue t t'
  | node, t, t' => Copied (Node.ofTree surplus) Node.toValue t t'
  | binding, t, t' => Copied (Binding.ofTree surplus) Binding.toValue t t'
  | handler, t, t' => Copied (Handler.ofTree surplus) Handler.toValue t t'
  | action, t, t' => Copied (Action.ofTree surplus) Action.toValue t t'
  | condition, t, t' => ∃ nested, Copied (Condition.decode nested) Condition.toValue t t'
  | tag f, t, t' => Spelling.ofTree? t' = (Spelling.ofTree? t).map f.written
  | list items, t, t' => List.Forall₂ (items.Mirrors surplus) t.items t'.items
  | named members, t, t' => ∀ k, members.Mirrors surplus (t.named k) (t'.named k)

/-- Two records have the same fields, and each of these mirrors the other. -/
structure MirrorsFields (surplus : DecodeError) (record : Shape) (t t' : Tree) : Prop where
  fields_eq : record.fields t' = record.fields t
  member : ∀ k shape, (k, some shape) ∈ record.fields t →
    shape.Mirrors surplus (t.member ((record.fields t).map Prod.fst) k)
      (t'.member ((record.fields t).map Prod.fst) k)

variable {surplus : DecodeError} {t t' : Tree} {shape : Shape} {α : Type}
  {decode : Tree → Except DecodeError α} {encode : α → Value}

theorem mirrors_null (surplus : DecodeError) (shape : Shape) :
    shape.Mirrors surplus .null .null := by
  induction shape with
  | condition => exact ⟨false, .nothing⟩
  | tag f => rfl
  | list items ih => exact .nil
  | named members ih => exact fun k ↦ ih
  | _ => exact .nothing

end Shape

/-! ## Members that are written -/

namespace Value

variable {k l : String}

theorem get?_listMember_of_ne (h : l ≠ k) (vs : List Value) : (listMember l vs).get? k = none := by
  cases vs with
  | nil => rfl
  | cons v r => exact if_neg h

theorem get?_objectMember_of_ne (h : l ≠ k) (m : Fields Value) :
    (objectMember l m).get? k = none := by
  cases m with
  | nil => rfl
  | cons x r => exact if_neg h

/-- A list that is written only where it has items has the same items. -/
theorem items_listMember (k : String) (vs : List Value) :
    ((((listMember k vs).get? k).map Tree.ofValue).getD .null).items = vs.map .ofValue := by
  cases vs with
  | nil => rfl
  | cons v r =>
    rw [listMember, Fields.get?, if_pos rfl]
    · exact Tree.items_ofValue (v :: r)
    · exact List.cons_ne_nil v r

/-- An object that is written only where it has members names the same. -/
theorem named_objectMember {m : Fields Value} (hm : m.Sorted) (l k : String) :
    ((((objectMember l m).get? l).map Tree.ofValue).getD .null).named k =
      ((m.get? k).map .ofValue).getD .null := by
  cases m with
  | nil => rfl
  | cons x r =>
    have trees : Fields.Sorted ((x :: r).map fun m ↦ (m.1, Tree.ofValue m.2)) := by
      rwa [Fields.Sorted, Fields.keys, List.map_map]
    rw [objectMember, Fields.get?, if_pos rfl]
    · rw [Option.map_some, Option.getD_some, Tree.ofValue, Tree.named, Tree.keyed_treesOfMembers,
        Fields.ofList_of_sorted trees, Fields.get?_map]
    · exact List.cons_ne_nil x r

end Value

namespace Shape

variable {surplus : DecodeError} {t t' : Tree} {t? : Option Tree} {shape : Shape} {α : Type}
  {decode : Tree → Except DecodeError α} {encode : α → Value}

/-- Where there was nothing, nothing is written. -/
theorem copied_of_source {a? : Option α} (h : Source (Json.Decode.option decode) none t? a?) :
    Copied decode encode (t?.getD .null) (((a?.map encode).map .ofValue).getD .null) := by
  cases h with
  | missing => exact .nothing
  | @read t a? h =>
    unfold Json.Decode.option at h
    split at h
    · cases h
      exact .nothing
    · obtain ⟨a, ha, rfl⟩ := map_eq_ok_iff.mp h
      exact .copy ha

section Lists

variable (each : ∀ t x, decode t = .ok x → shape.Mirrors surplus t (.ofValue (encode x)))

include each

theorem mirrors_items {ts : List Tree} {xs : List α}
    (h : List.Forall₂ (fun t x ↦ decode t = .ok x) ts xs) :
    List.Forall₂ (shape.Mirrors surplus) ts ((xs.map encode).map .ofValue) := by
  rw [List.map_map, List.forall₂_map_right_iff]
  exact h.imp each

/-- A list that is always written mirrors its member. -/
theorem mirrors_list {xs : List α} (h : Source (Json.Decode.list decode) [] t? xs) :
    (list shape).Mirrors surplus (t?.getD .null) (.ofValue (.arr (xs.map encode))) := by
  rw [Mirrors, Tree.items_ofValue]
  exact mirrors_items each h.forall₂

theorem mirrors_listMember {xs : List α} (k : String)
    (h : Source (Json.Decode.list decode) [] t? xs) :
    (list shape).Mirrors surplus (t?.getD .null)
      ((((Value.listMember k (xs.map encode)).get? k).map .ofValue).getD .null) := by
  rw [Mirrors, Value.items_listMember]
  exact mirrors_items each h.forall₂

theorem mirrors_list? {xs? : Option (List α)}
    (h : Source (Json.Decode.option (Json.Decode.list decode)) none t? xs?) :
    (list shape).Mirrors surplus (t?.getD .null)
      (((xs?.map fun xs ↦ .arr (xs.map encode)).map .ofValue).getD .null) := by
  have copied : Copied (Json.Decode.list decode) (fun xs ↦ .arr (xs.map encode)) _ _ :=
    copied_of_source h
  generalize t?.getD .null = t, (Option.map _ _).getD _ = t' at copied
  cases copied with
  | nothing => exact .nil
  | copy read => exact mirrors_list each (.read read)

theorem mirrors_objectMember {m : Fields (List α)} (k : String)
    (h : Source (Json.Decode.fields (Json.Decode.list decode)) [] t? m) :
    (named (list shape)).Mirrors surplus (t?.getD .null) ((((Value.objectMember k
      (m.map fun x ↦ (x.1, .arr (x.2.map encode)))).get? k).map .ofValue).getD .null) := by
  intro l
  cases h with
  | missing => exact mirrors_null surplus (list shape)
  | read h =>
    have sorted : Fields.Sorted (m.map fun x ↦ (x.1, Value.arr (x.2.map encode))) := by
      rw [Fields.Sorted, Fields.keys, List.map_map]
      exact (Json.Decode.Yields.of_fields ⟨_, h⟩).1
    rw [Value.named_objectMember sorted,
      Fields.get?_map fun xs : List α ↦ Value.arr (xs.map encode), Option.getD_some]
    obtain ⟨none, nothing⟩ | ⟨xs, some, read⟩ := Json.Decode.rel_of_fields h l
    · rw [none, nothing]
      exact mirrors_null surplus (list shape)
    · rw [some]
      exact mirrors_list each (.read read)

end Lists

/-- Where the tag of a record is there, it is written as it was read. -/
theorem mirrors_tag {κ : Type} {f : Subject} {ofTag : String → κ} {tagOf : κ → String}
    {default kind : κ} (written : ∀ s, Spelling.text (tagOf (ofTag s)) = f.written (.text s))
    (h : Source (fun t ↦ (Json.Decode.string t).map ofTag) default t? kind) (there : t? ≠ none) :
    (tag f).Mirrors surplus (t?.getD .null) (.ofValue (.str (tagOf kind))) := by
  cases h with
  | missing => exact absurd rfl there
  | @read t kind h =>
    obtain ⟨s, hs, rfl⟩ := map_eq_ok_iff.mp h
    cases t <;> cases hs
    exact congrArg some (written s)

end Shape

/-! ## Conditions -/

namespace Condition

variable {surplus : DecodeError} {nested : Bool} {t u : Tree} {s : String} {c : Condition}

/-- The tag that is written for a condition with a tag. -/
def tagFor (s : String) : String := if s ∈ kinds then s else "unknown"

/-- The tag of a condition is the name of its kind, if this is known. -/
theorem name?_of_tag (h : tag nested u = .ok s) : ∃ spelling, Spelling.ofTree? u = some spelling ∧
    Subject.condition.name? spelling = if s ∈ kinds then some s else none := by
  unfold tag at h
  split at h
  · cases h
    refine ⟨.text s, rfl, ?_⟩
    by_cases simple : s = "simple"
    · subst simple
      decide
    by_cases complex : s = "complex"
    · subst complex
      decide
    by_cases raw : s = "raw"
    · subst raw
      decide
    simp [Subject.name?, Subject.known, kinds, simple, complex, raw]
  · next n =>
    split at h
    · next both =>
      cases h
      have le : 0 ≤ n := by simpa using (Bool.and_eq_true_iff.mp both).2
      refine ⟨.number n.toNat, if_pos le, ?_⟩
      rcases n.toNat with _ | _ | _ | m
      · decide
      · decide
      · decide
      · simp [Subject.name?, Subject.known, kinds]
    · cases h
  · cases h

theorem kind?_of_tag (there : (t.entries ["type"]).get? "type" = some u)
    (h : tag nested u = .ok s) :
    Shape.kind? t = if s ∈ kinds then some s else none := by
  obtain ⟨spelling, spelled, name⟩ := name?_of_tag h
  rw [Shape.kind?, Tree.member, there, Option.getD_some, spelled]
  exact name

theorem name?_tagFor (s : String) : Subject.condition.name? (.text (tagFor s)) =
    if s ∈ kinds then some s else none := by
  unfold tagFor
  split
  · next known =>
    simp only [kinds, List.mem_cons, List.not_mem_nil, or_false] at known
    rcases known with rfl | rfl | rfl <;> decide
  · decide

/-- The fields of a condition are mirrored where those behind its tag are. -/
theorem mirrorsFields_of_tag {ms : Fields Value} {kind : Option String}
    (there : (t.entries ["type"]).get? "type" = some u) (h : tag nested u = .ok s)
    (known : kind = if s ∈ kinds then some s else none)
    (others : ∀ k shape, (k, some shape) ∈ Shape.fieldsOfKind kind →
      shape.Mirrors surplus (t.member ("type" :: (Shape.fieldsOfKind kind).map Prod.fst) k)
        (((Fields.get? k (("type", .str (tagFor s)) :: ms)).map .ofValue).getD .null)) :
    Shape.condition.MirrorsFields surplus t
      (.ofValue (.obj (("type", .str (tagFor s)) :: ms))) := by
  have read : Shape.kind? t = kind := (kind?_of_tag there h).trans known.symm
  have written : Shape.kind? (.ofValue (.obj (("type", .str (tagFor s)) :: ms))) = kind := by
    rw [known, ← name?_tagFor, Shape.kind?, Tree.member_ofValue (by simp), Fields.get?, if_pos rfl]
    rfl
  refine ⟨by rw [Shape.fields, Shape.fields, read, written], fun k shape hk ↦ ?_⟩
  rw [Tree.member_ofValue (List.mem_map_of_mem hk), Shape.fields, read]
  rw [Shape.fields, read] at hk
  rcases List.mem_cons.mp hk with head | tail
  · obtain ⟨rfl, tag⟩ := Prod.mk.inj head
    obtain rfl := Option.some.inj tag
    obtain ⟨spelling, spelled, name⟩ := name?_of_tag h
    rw [Fields.get?, if_pos rfl, List.map_cons, Tree.member, Tree.get?_entries_cons, there,
      Shape.Mirrors, Option.getD_some, spelled, tagFor, Option.map_some, Option.map_some,
      Subject.written.eq_def, name]
    split <;> rfl
  · exact others k shape tail

theorem mirrors_comparison {t? : Option Tree} {comparison : Option Comparison}
    (h : Source comparisonOf none t? comparison) :
    (Shape.tag .comparison).Mirrors surplus (t?.getD .null)
      (((comparison.map fun c ↦ .str c.tag).map .ofValue).getD .null) := by
  cases h with
  | missing => rfl
  | @read t _ h =>
    obtain ⟨s?, hs, rfl⟩ := map_eq_ok_iff.mp h
    unfold Json.Decode.option at hs
    split at hs
    · cases hs
      rfl
    · obtain ⟨s, hs, rfl⟩ := map_eq_ok_iff.mp hs
      cases t <;> cases hs
      exact congrArg some (Subject.written_comparison s)

theorem forall₂_of_decodeList {cs : List Condition} (h : decodeList t = .ok cs) :
    List.Forall₂ (fun t c ↦ decode true t = .ok c) t.items cs := by
  cases t with
  | arr items broken =>
    rw [decodeList, decodeItems_eq_mapM] at h
    exact Json.Decode.forall₂_of_mapM h
  | _ => simp [decodeList] at h

/-- The conditions that are joined mirror those of the document. -/
theorem mirrors_conditions {t? : Option Tree} {cs : List Condition}
    (h : Source decodeList [] t? cs) :
    (Shape.list .condition).Mirrors surplus (t?.getD .null)
      (.ofValue (.arr (cs.map toValue))) := by
  have read : List.Forall₂ (fun t c ↦ decode true t = .ok c) (t?.getD .null).items cs := by
    cases h with
    | missing => exact .nil
    | read h => exact forall₂_of_decodeList h
  rw [Shape.Mirrors, Tree.items_ofValue]
  have each (t : Tree) (c : Condition) (h : decode true t = .ok c) :
      Shape.condition.Mirrors surplus t (.ofValue c.toValue) := ⟨true, .copy h⟩
  exact Shape.mirrors_items each read

theorem mirrorsFields (h : decode nested t = .ok c) :
    Shape.condition.MirrorsFields surplus t (.ofValue c.toValue) := by
  obtain ⟨u, s, there, tagged, sources⟩ := sources_of_decode h
  cases sources with
  | leaf leaf =>
    cases leaf with
    | @simple field comparison value tag operator =>
      subst tag
      change Shape.MirrorsFields _ _ _ (.ofValue (.obj (("type", .str (tagFor "simple")) ::
        ("field", .str field) :: (Fields.optional "operator" (comparison.map (.str ·.tag)) ++
          [("value", value)]))))
      have known : some "simple" = if "simple" ∈ kinds then some "simple" else none := by decide
      refine mirrorsFields_of_tag there tagged known fun k shape hk ↦ ?_
      simp only [Shape.fieldsOfKind, List.mem_cons, Prod.mk.injEq, Option.some.injEq, reduceCtorEq,
        and_false, false_or, List.not_mem_nil, or_false] at hk
      obtain ⟨rfl, rfl⟩ := hk
      simp only [Fields.get?_append, Fields.get?, Fields.get?_optional, Option.or_none, reduceIte,
        String.reduceEq]
      exact mirrors_comparison operator
    | raw tag =>
      subst tag
      have known : some "raw" = if "raw" ∈ kinds then some "raw" else none := by decide
      refine mirrorsFields_of_tag there tagged known fun k shape hk ↦ ?_
      simp [Shape.fieldsOfKind] at hk
  | @complex join cs tag conditions =>
    subst tag
    rw [toValue, conditionValues_eq_map]
    have known : some "complex" = if "complex" ∈ kinds then some "complex" else none := by decide
    refine mirrorsFields_of_tag there tagged known fun k shape hk ↦ ?_
    simp only [Shape.fieldsOfKind, List.mem_cons, Prod.mk.injEq, Option.some.injEq, reduceCtorEq,
      and_false, false_or, List.not_mem_nil, or_false] at hk
    obtain ⟨rfl, rfl⟩ := hk
    simp only [Fields.get?, reduceIte, String.reduceEq]
    exact mirrors_conditions conditions
  | unknown other =>
    have lost : tagFor s = "unknown" := if_neg other
    rw [toValue, ← lost]
    exact mirrorsFields_of_tag there tagged (if_neg other).symm fun _ _ hk ↦
      absurd hk List.not_mem_nil

end Condition

/-! ## Records -/

section Records

variable {surplus : DecodeError} {t t' : Tree}

theorem Binding.mirrorsFields {b : Binding} (h : ofTree surplus t = .ok b) :
    Shape.binding.MirrorsFields surplus t (.ofValue b.toValue) where
  fields_eq := rfl
  member k shape hk := by
    obtain ⟨sources, there⟩ := sources_of_ofTree h
    simp only [Shape.fields, List.mem_cons, Prod.mk.injEq, Option.some.injEq, reduceCtorEq,
      and_false, false_or, List.not_mem_nil, or_false] at hk
    obtain ⟨rfl, rfl⟩ := hk
    rw [toValue, Tree.member_ofValue (by simp [Shape.fields])]
    exact Shape.mirrors_tag Subject.written_binding sources.kind there

theorem Action.mirrorsFields {a : Action} (h : ofTree surplus t = .ok a) :
    Shape.action.MirrorsFields surplus t (.ofValue a.toValue) where
  fields_eq := rfl
  member k shape hk := by
    obtain ⟨sources, there⟩ := sources_of_ofTree h
    obtain ⟨kind, config, condition, failed, succeeded⟩ := a
    simp only [Shape.fields, List.mem_cons, Prod.mk.injEq, Option.some.injEq, reduceCtorEq,
      and_false, false_or, List.not_mem_nil, or_false] at hk
    rw [toValue, actionsValue?_eq_map, actionsValue?_eq_map]
    rcases hk with ⟨rfl, rfl⟩ | ⟨rfl, rfl⟩ | ⟨rfl, rfl⟩ | ⟨rfl, rfl⟩
    all_goals
      rw [Tree.member_ofValue (by simp [Shape.fields])]
      simp only [Fields.get?_append, Fields.get?, Fields.get?_optional, Option.none_or,
        Option.or_none, reduceIte, String.reduceEq]
    · exact Shape.mirrors_tag Subject.written_action sources.kind there
    · exact ⟨false, Shape.copied_of_source sources.condition⟩
    · exact Shape.mirrors_list? (fun _ _ ↦ Copied.copy) sources.onError
    · exact Shape.mirrors_list? (fun _ _ ↦ Copied.copy) sources.onSuccess

theorem Handler.mirrorsFields {x : Handler} (h : ofTree surplus t = .ok x) :
    Shape.handler.MirrorsFields surplus t (.ofValue x.toValue) where
  fields_eq := rfl
  member k shape hk := by
    have sources := sources_of_ofTree h
    simp only [Shape.fields, List.mem_cons, Prod.mk.injEq, Option.some.injEq, reduceCtorEq,
      and_false, false_or, List.not_mem_nil, or_false] at hk
    rw [toValue, Action.actionValues_eq_map]
    rcases hk with ⟨rfl, rfl⟩ | ⟨rfl, rfl⟩
    all_goals
      rw [Tree.member_ofValue (by simp [Shape.fields])]
      simp only [Fields.get?_append, Fields.get?, Fields.get?_optional, Option.none_or,
        Option.or_none, reduceIte, String.reduceEq]
    · exact Shape.mirrors_list (fun _ _ ↦ Copied.copy) sources.actions
    · exact ⟨false, Shape.copied_of_source sources.condition⟩

theorem Node.mirrorsFields {n : Node} (h : ofTree surplus t = .ok n) :
    Shape.node.MirrorsFields surplus t (.ofValue n.toValue) where
  fields_eq := rfl
  member k shape hk := by
    have sources := sources_of_ofTree h
    obtain ⟨id, type, props, style, layout, bindings, events, condition, loop, nodes, named,
      info⟩ := n
    simp only [Shape.fields, List.mem_cons, Prod.mk.injEq, Option.some.injEq, reduceCtorEq,
      and_false, false_or, List.not_mem_nil, or_false] at hk
    rw [toValue, nodeValues_eq_map, slotValues_eq_map]
    rcases hk with ⟨rfl, rfl⟩ | ⟨rfl, rfl⟩ | ⟨rfl, rfl⟩ | ⟨rfl, rfl⟩ | ⟨rfl, rfl⟩
    all_goals
      rw [Tree.member_ofValue (by simp [Shape.fields])]
      simp only [Fields.get?_append, Fields.get?, Fields.get?_optional,
        Value.get?_listMember_of_ne, Value.get?_objectMember_of_ne, ne_eq, not_false_eq_true,
        Option.none_or, Option.or_none, reduceIte, String.reduceEq]
    · exact Shape.mirrors_listMember (fun _ _ ↦ Copied.copy) "bindings" sources.bindings
    · exact Shape.mirrors_listMember (fun _ _ ↦ Copied.copy) "events" sources.events
    · exact ⟨false, Shape.copied_of_source sources.condition⟩
    · exact Shape.mirrors_listMember (fun _ _ ↦ Copied.copy) "children" sources.children
    · exact Shape.mirrors_objectMember (fun _ _ ↦ Copied.copy) "slots" sources.slots

theorem Page.mirrorsFields {p : Page} (h : ofTree surplus t = .ok p) :
    Shape.page.MirrorsFields surplus t (.ofValue p.toValue) where
  fields_eq := rfl
  member k shape hk := by
    have sources := sources_of_ofTree h
    simp only [Shape.fields, List.mem_cons, Prod.mk.injEq, Option.some.injEq, reduceCtorEq,
      and_false, false_or, List.not_mem_nil, or_false] at hk
    obtain ⟨rfl, rfl⟩ := hk
    rw [toValue, Tree.member_ofValue (by simp [Shape.fields])]
    simp only [Fields.get?_append, Fields.get?, Fields.get?_optional,
      Value.get?_objectMember_of_ne, ne_eq, not_false_eq_true, Option.none_or, Option.or_none,
      reduceIte, String.reduceEq]
    exact Shape.copied_of_source sources.root

end Records

/-! ## Places -/

namespace Shape

variable {surplus : DecodeError} {t t' : Tree} {shape : Shape}

theorem mirrorsFields_null (surplus : DecodeError) (record : Shape) :
    record.MirrorsFields surplus .null .null where
  fields_eq := rfl
  member _ shape _ := mirrors_null surplus shape

theorem mirrorsFields_of_copied {α : Type} {decode : Tree → Except DecodeError α}
    {encode : α → Value}
    (each : ∀ t a, decode t = .ok a → shape.MirrorsFields surplus t (.ofValue (encode a)))
    (h : Copied decode encode t t') : shape.MirrorsFields surplus t t' := by
  cases h with
  | nothing => exact mirrorsFields_null surplus shape
  | copy read => exact each _ _ read

/-- The same part of two documents, of which one mirrors the other. -/
def Agree (surplus : DecodeError) : Option (Shape × Tree) → Option (Shape × Tree) → Prop :=
  Option.Rel fun x y ↦ x.1 = y.1 ∧ x.1.Mirrors surplus x.2 y.2

theorem MirrorsFields.field? (h : shape.MirrorsFields surplus t t') (k : String) :
    Agree surplus (shape.field? t k) (shape.field? t' k) := by
  unfold Shape.field?
  rw [h.fields_eq]
  cases found : ((shape.fields t).lookup k).join with
  | none => exact .none
  | some below =>
    obtain ⟨_, _, fields, -⟩ := List.lookup_eq_some_iff.mp (Option.join_eq_some_iff.mp found)
    exact .some ⟨rfl, h.member k below (fields ▸ by simp)⟩

/-- The fields of parts that mirror each other do so; what is no record has none. -/
theorem Mirrors.fields (h : shape.Mirrors surplus t t') : shape.MirrorsFields surplus t t' := by
  cases shape with
  | page => exact mirrorsFields_of_copied (fun _ _ ↦ Page.mirrorsFields) h
  | node => exact mirrorsFields_of_copied (fun _ _ ↦ Node.mirrorsFields) h
  | binding => exact mirrorsFields_of_copied (fun _ _ ↦ Binding.mirrorsFields) h
  | handler => exact mirrorsFields_of_copied (fun _ _ ↦ Handler.mirrorsFields) h
  | action => exact mirrorsFields_of_copied (fun _ _ ↦ Action.mirrorsFields) h
  | condition =>
    obtain ⟨nested, h⟩ := h
    exact mirrorsFields_of_copied (fun _ _ ↦ Condition.mirrorsFields) h
  | tag | list | named => exact ⟨rfl, fun _ _ hk ↦ absurd hk List.not_mem_nil⟩

theorem agree_items {ts ts' : List Tree} (h : List.Forall₂ (shape.Mirrors surplus) ts ts')
    (i : Nat) : Agree surplus (ts[i]?.map (shape, ·)) (ts'[i]?.map (shape, ·)) := by
  induction h generalizing i with
  | nil => exact .none
  | cons first rest ih =>
    cases i with
    | zero => exact .some ⟨rfl, first⟩
    | succ i => exact ih i

/-- One step below parts that mirror each other there are such parts, or none. -/
theorem Mirrors.below? (h : shape.Mirrors surplus t t') (s : Segment) :
    Agree surplus (shape.below? t s) (shape.below? t' s) := by
  cases s with
  | key k =>
    cases shape with
    -- A name that is not there stands for null on both sides.
    | named members => exact .some ⟨rfl, h k⟩
    | _ => exact h.fields.field? k
  | index i =>
    cases shape with
    | list items => exact agree_items h i
    | _ => exact .none

/-- At each place below parts that mirror each other there are such parts, or none. -/
theorem Mirrors.at? (h : shape.Mirrors surplus t t') (place : Path) :
    Agree surplus (shape.at? t place) (shape.at? t' place) := by
  -- What a step leads to mirrors again, whatever shape it has there.
  induction place generalizing shape t t' with
  | nil => exact .some ⟨rfl, h⟩
  | cons s place ih =>
    rw [Shape.at?, Shape.at?]
    have below := h.below? s
    generalize shape.below? t s = x?, shape.below? t' s = y? at below ⊢
    cases below with
    | none => exact .none
    | @some x y hxy =>
      obtain ⟨shape, u⟩ := x
      obtain ⟨shape', u'⟩ := y
      obtain ⟨same, mirrors⟩ := hxy
      cases same
      exact ih mirrors

end Shape

namespace Page

variable {surplus : DecodeError} {t : Tree} {p : Page}

/-- The tags of what is written for a page are at the places where they were. -/
theorem spellingAt?_toValue (h : ofTree surplus t = .ok p) (place : Path) :
    spellingAt? (.ofValue p.toValue) place =
      (spellingAt? t place).map fun x ↦ (x.1, x.1.written x.2) := by
  have page : Shape.page.Mirrors surplus t (.ofValue p.toValue) := .copy h
  have agree := page.at? place
  unfold spellingAt?
  generalize Shape.page.at? t place = x?, Shape.page.at? (.ofValue p.toValue) place = y? at agree ⊢
  cases agree with
  | none => rfl
  | @some x y hxy =>
    obtain ⟨shape, u⟩ := x
    obtain ⟨shape', u'⟩ := y
    obtain ⟨same, mirrors⟩ := hxy
    cases same
    cases shape with
    | tag f =>
      dsimp only
      rw [mirrors, Option.map_map, Option.map_map]
      rfl
    | _ => rfl

/-- A page is loaded from a document or from a text, of which this is the tree. -/
inductive LoadedFrom (p : Page) : Tree → Prop where
  | document {d : Value} (h : ofValue d = .ok p) : p.LoadedFrom (.ofValue d)
  | text {text : String} (h : ofText text = .ok p) : p.LoadedFrom (Json.read text.toList).tree

theorem LoadedFrom.exists_ofTree (h : p.LoadedFrom t) : ∃ surplus, ofTree surplus t = .ok p := by
  cases h with
  | document h => exact ⟨.shape, h⟩
  | text h =>
    obtain ⟨q, read, h⟩ := bind_eq_ok_iff.mp h
    obtain ⟨-, -, h⟩ := bind_eq_ok_iff.mp h
    cases h
    exact ⟨Json.surplusInText, read⟩

/-- What is saved for a page that was loaded has the tags of its document at their places and no
others, by their names where they are known and else as they were, but for the tags of conditions
that are not known: instead of any of these it has `unknown`. -/
theorem saved_tag_canonical_iff (h : p.LoadedFrom t) (place : Path) :
    (spellingAt? t place = none → spellingAt? (.ofValue p.toValue) place = none) ∧
    ∀ f spelling, spellingAt? t place = some (f, spelling) →
      (spellingAt? (.ofValue p.toValue) place = some (f, f.canonical spelling) ↔
        (f = .condition → f.name? spelling = none → spelling = .text "unknown")) ∧
      (f = .condition → f.name? spelling = none →
        spellingAt? (.ofValue p.toValue) place = some (f, .text "unknown")) := by
  obtain ⟨surplus, read⟩ := h.exists_ofTree
  have saved := spellingAt?_toValue read place
  refine ⟨fun none ↦ by rw [saved, none]; rfl, fun f spelling here ↦ ?_⟩
  rw [here, Option.map_some] at saved
  refine ⟨?_, ?_⟩
  · rw [saved, Option.some_inj, Prod.mk.injEq, ← Subject.written_eq_canonical_iff]
    exact and_iff_right rfl
  · rintro rfl unknown
    rw [saved, Subject.written.eq_def, unknown]

/-- Other spellings and kinds that are not known are saved, in a slot, in joined conditions and in
what follows a failure. -/
theorem tags_of_help_saved :
    let d : Value := .obj [("root", .obj [
      ("bindings", .arr [.obj [("target", .str "x"), ("type", .str "formula")]]),
      ("slots", .obj [("help", .arr [.obj [
        ("condition", .obj [("type", .str "complex"), ("conditions", .arr [
          .obj [("type", .int 0), ("operator", .str "==")], .arr [.str "fuzzy"]])]),
        ("events", .arr [.obj [("event", .str "go"), ("actions", .arr [
          .obj [("type", .str "callAPI"), ("onError", .arr [.arr [.str "teleport"]])]])]])]])])])]
    let joined : Condition := .complex .and [.simple "" (some .equals) .null, .unknown]
    let teleport : Action := { kind := .unknown "teleport" }
    let call : Action := { kind := .callApi, onError := some [teleport] }
    let go : Handler := { event := "go", actions := [call] }
    let hint : Node := { condition := some joined, events := [go] }
    let p : Page := { root := some {
      bindings := [{ target := "x", kind := .unknown "formula" }], slots := [("help", [hint])] } }
    let saved := spellingAt? (.ofValue p.toValue)
    let help (place : Path) : Path :=
      .key "root" :: .key "slots" :: .key "help" :: .index 0 :: place
    let condition (i : Nat) (key : String) : Path :=
      help [.key "condition", .key "conditions", .index i, .key key]
    let action (place : Path) : Path :=
      help (.key "events" :: .index 0 :: .key "actions" :: .index 0 :: place)
    ofValue d = .ok p ∧
    saved [.key "root", .key "bindings", .index 0, .key "type"] =
      some (.binding, .text "formula") ∧
    saved (condition 0 "type") = some (.condition, .text "simple") ∧
    saved (condition 0 "operator") = some (.comparison, .text "equals") ∧
    saved (condition 1 "type") = some (.condition, .text "unknown") ∧
    saved (action [.key "type"]) = some (.action, .text "callApi") ∧
    saved (action [.key "onError", .index 0, .key "type"]) =
      some (.action, .text "teleport") := by
  intro d joined teleport call go hint p saved help condition action
  have loaded : ofValue d = .ok p := by
    subst d p hint joined go call teleport
    cbv
  have tags (place : Path) := (saved_tag_canonical_iff (.document loaded) place).2
  have binding := tags [.key "root", .key "bindings", .index 0, .key "type"] .binding
    (.text "formula") (by cbv)
  have simple := tags (condition 0 "type") .condition (.number 0) (by cbv)
  have equals := tags (condition 0 "operator") .comparison (.text "==") (by cbv)
  have fuzzy := tags (condition 1 "type") .condition (.text "fuzzy") (by cbv)
  have called := tags (action [.key "type"]) .action (.text "callAPI") (by cbv)
  have followed := tags (action [.key "onError", .index 0, .key "type"]) .action
    (.text "teleport") (by cbv)
  exact ⟨loaded, binding.1.mpr (by decide), simple.1.mpr (by decide), equals.1.mpr (by decide),
    fuzzy.2 rfl (by decide), called.1.mpr (by decide), followed.1.mpr (by decide)⟩

/-- The tag of a condition that is not known is lost. -/
theorem fuzzy_condition_lost :
    let d : Value := .obj [("root", .obj [("condition", .obj [("type", .str "fuzzy")])])]
    let p : Page := { root := some { condition := some .unknown } }
    let place : Path := [.key "root", .key "condition", .key "type"]
    ofValue d = .ok p ∧ Subject.condition.name? (.text "fuzzy") = none ∧
    spellingAt? (.ofValue d) place = some (.condition, .text "fuzzy") ∧
    spellingAt? (.ofValue p.toValue) place = some (.condition, .text "unknown") :=
  ⟨by cbv, by decide, by cbv, by cbv⟩

end Page

end LivePage
