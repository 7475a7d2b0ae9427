import LivePage.Proofs.Page.Document

/-!
# Where the parts of a page come from

The parts of a page that was read which have tags in them come from the members of its document that
name them.
-/

namespace LivePage

open Json (Tree DecodeError Decode.string Decode.value Decode.option Decode.list Decode.fields
  Decode.complete Decode.sources_of_record)
open Json.Decode (Source)

variable {surplus : DecodeError} {t : Tree}

namespace Condition

/-- The tags of conditions that are known. -/
def kinds : List String := ["simple", "complex", "raw"]

def comparisonOf (t : Tree) : Except DecodeError (Option Comparison) :=
  (Decode.option Decode.string t).map (Option.map .ofTag)

/-- A condition that holds no others, with the member that its comparison comes from. -/
inductive Leaf (operator : Option Tree) (s : String) : Condition → Prop where
  | simple {field : String} {comparison : Option Comparison} {value : Value} (tag : s = "simple")
      (h : Source comparisonOf none operator comparison) :
      Leaf operator s (.simple field comparison value)
  | raw {expression : String} (tag : s = "raw") : Leaf operator s (.raw expression)

/-- Where the parts of a condition with a tag come from. -/
inductive Sources (t : Tree) (s : String) : Condition → Prop where
  | leaf {c : Condition}
      (h : Leaf ((t.entries ["type", "field", "operator", "value"]).get? "operator") s c) :
      Sources t s c
  | complex {join : Logic} {conditions : List Condition} (tag : s = "complex")
      (h : Source decodeList [] ((t.entries ["type", "logic", "conditions"]).get? "conditions")
        conditions) : Sources t s (.complex join conditions)
  | unknown (other : s ∉ kinds) : Sources t s .unknown

variable {nested : Bool} {ms : List (Except Json.Fault String × Tree)} {s : String} {c : Condition}
  {spec : Json.Decode.Spec Condition} {init : Condition}

theorem Leaf.congr {o o' : Option Tree} (h : Leaf o s c) (same : s = "simple" → o = o') :
    Leaf o' s c := by
  cases h with
  | simple tag h => exact .simple tag (same tag ▸ h)
  | raw tag => exact .raw tag

theorem nodup_of_leafSpec (leaf : leafSpec? s = some (spec, init)) : spec.names.Nodup := by
  unfold leafSpec? at leaf
  split at leaf <;> cases leaf <;> decide

/-- A leaf has no comparison at first, and what is written into it is what its member says. -/
theorem leaf_of_leafSpec (leaf : leafSpec? s = some (spec, init)) :
    Leaf none s init ∧ ∀ m : String → Option Tree, ∀ k ∈ spec.names, ∀ t c c',
      Leaf (m "operator") s c → spec.write k t c = .ok c' →
        Leaf (Function.update m k (some t) "operator") s c' := by
  unfold leafSpec? at leaf
  split at leaf
  · cases leaf
    refine ⟨.simple rfl .missing, fun m k hk t c c' hc hw ↦ ?_⟩
    cases hc with
    | raw tag => exact absurd tag (by decide)
    | simple tag h =>
      simp only [simpleSpec, List.mem_cons, List.not_mem_nil, or_false] at hk
      rcases hk with rfl | rfl | rfl
      all_goals
        obtain ⟨a, ha, rfl⟩ := map_eq_ok_iff.mp hw
      · exact .simple rfl h
      · exact .simple rfl (.read (map_eq_ok_iff.mpr ⟨a, ha, rfl⟩))
      · exact .simple rfl h
  · cases leaf
    refine ⟨.raw rfl, fun m k hk t c c' hc hw ↦ ?_⟩
    obtain ⟨a, -, rfl⟩ := map_eq_ok_iff.mp hw
    exact .raw rfl
  · cases leaf

theorem keyed_untagged (ms : List (Except Json.Fault String × Tree)) :
    Tree.keyed (untagged ms) = (Tree.keyed ms).filter (·.1 != "type") := by
  induction ms with
  | nil => rfl
  | cons m r ih =>
    obtain ⟨k | k, t⟩ := m
    · exact ih
    · rw [untagged] at ih ⊢
      by_cases here : k = "type"
      · rw [List.filter_cons_of_neg (by simp [here]), Tree.keyed,
          List.filter_cons_of_neg (by simp [here]), ih]
      · rw [List.filter_cons_of_pos (by simp [here]), Tree.keyed, Tree.keyed,
          List.filter_cons_of_pos (by simp [here]), ih]

/-- The tag of a condition comes from the only member for it. -/
theorem source_of_tagOf {found found' : Option String}
    (h : tagOf nested ms found = .ok found') :
    (found ≠ none → (Tree.keyed ms).get? "type" = none) ∧
      Source (fun t ↦ (tag nested t).map some) found ((Tree.keyed ms).get? "type") found' := by
  induction ms generalizing found with
  | nil =>
    cases h
    exact ⟨fun _ ↦ rfl, .missing⟩
  | cons m r ih =>
    obtain ⟨k | k, t⟩ := m
    · cases h
    · rw [tagOf] at h
      rw [Tree.keyed, Fields.get?]
      split at h
      · next here =>
        split at h
        · cases h
        · next first =>
          obtain ⟨s, hs, h⟩ := bind_eq_ok_iff.mp h
          obtain ⟨last, rest⟩ := ih h
          rw [last (Option.some_ne_none s)] at rest
          rw [if_pos here]
          cases rest
          exact ⟨fun found ↦ absurd (Option.isSome_iff_ne_none.mpr found) first,
            .read (map_eq_ok_iff.mpr ⟨s, hs, rfl⟩)⟩
      · next other =>
        obtain ⟨_, -, h⟩ := bind_eq_ok_iff.mp h
        rw [if_neg other]
        exact ih h

/-- The conditions that are joined come from the only member for them. -/
theorem source_of_decodeMembers {seen : List String} {join join' : Logic} {cs cs' : List Condition}
    (h : decodeMembers ms seen join cs = .ok (join', cs')) :
    ("conditions" ∈ seen → (Tree.keyed ms).get? "conditions" = none) ∧
      Source decodeList cs ((Tree.keyed ms).get? "conditions") cs' := by
  induction ms generalizing seen join cs with
  | nil =>
    rw [decodeMembers] at h
    cases h
    exact ⟨fun _ ↦ rfl, .missing⟩
  | cons m r ih =>
    obtain ⟨k | k, t⟩ := m
    · rw [decodeMembers] at h
      cases h
    · rw [decodeMembers.eq_def] at h
      rw [Tree.keyed, Fields.get?]
      dsimp only at h
      split at h
      · cases h
      · next first =>
        split at h
        · obtain ⟨join, -, h⟩ := bind_eq_ok_iff.mp h
          obtain ⟨last, rest⟩ := ih h
          rw [if_neg (by decide)]
          exact ⟨fun before ↦ last (List.mem_cons_of_mem _ before), rest⟩
        · obtain ⟨cs, hcs, h⟩ := bind_eq_ok_iff.mp h
          obtain ⟨last, rest⟩ := ih h
          rw [last List.mem_cons_self] at rest
          rw [if_pos rfl]
          cases rest
          refine ⟨fun before ↦ absurd ?_ first, .read hcs⟩
          simpa using before
        · next other =>
          rw [if_neg other]
          exact ih h

theorem source_of_decodePositions {ts : List Tree} {join : Logic} {cs : List Condition}
    (h : decodePositions ts = .ok (join, cs)) :
    Source decodeList [] (Fields.get? "conditions" (["logic", "conditions"].zip ts)) cs := by
  rw [decodePositions.eq_def] at h
  split at h
  · cases h
    exact .missing
  · obtain ⟨join, -, h⟩ := map_eq_ok_iff.mp h
    cases h
    exact .missing
  · obtain ⟨join, -, h⟩ := bind_eq_ok_iff.mp h
    obtain ⟨cs, hcs, h⟩ := bind_eq_ok_iff.mp h
    cases h
    exact .read hcs
  · cases h

theorem not_mem_of_leafSpec?_eq_none (other : s ≠ "complex") (none : leafSpec? s = none) :
    s ∉ kinds := by
  intro h
  simp only [kinds, List.mem_cons, List.not_mem_nil, or_false] at h
  rcases h with rfl | rfl | rfl
  · cases none
  · exact other rfl
  · cases none

/-- A leaf that is read from an object passes over the tag. -/
theorem sources_of_members {broken : Option Json.Fault} (leaf : leafSpec? s = some (spec, init))
    (h : Json.Decode.members spec (untagged ms) [] init >>= Decode.complete spec.required = .ok c) :
    Sources (.obj ms broken) s c := by
  obtain ⟨first, step⟩ := leaf_of_leafSpec leaf
  obtain ⟨read, hread, made⟩ := bind_eq_ok_iff.mp h
  have start : Json.Decode.Read (fun m c ↦ Leaf (m "operator") s c) [] init [] :=
    ⟨first, fun _ ↦ Iff.rfl⟩
  have all := Json.Decode.read_of_members step start hread
  cases Json.Decode.eq_of_complete made
  refine .leaf (all.holds.congr ?_)
  rintro rfl
  cases leaf
  rw [Tree.get?_entries_obj (by simp), List.nil_append, keyed_untagged]
  exact (Fields.get?_filter simpleSpec.names.contains rfl _).trans
    (Fields.get?_filter (· != "type") rfl _)

/-- A leaf that is read from a list has its members behind the tag. -/
theorem sources_of_positions {u : Tree} {items : List Tree} {broken : Option Json.Fault}
    (leaf : leafSpec? s = some (spec, init))
    (h : Json.Decode.positions spec .shape spec.names items [] init >>=
      Decode.complete spec.required = .ok c) :
    Sources (.arr (u :: items) broken) s c := by
  obtain ⟨first, step⟩ := leaf_of_leafSpec leaf
  obtain ⟨read, hread, made⟩ := bind_eq_ok_iff.mp h
  have start : Json.Decode.Read (fun m c ↦ Leaf (m "operator") s c) [] init [] :=
    ⟨first, fun _ ↦ Iff.rfl⟩
  have all := Json.Decode.read_of_positions step start (List.Subset.refl _)
    (nodup_of_leafSpec leaf) (fun _ _ ↦ List.not_mem_nil) hread
  cases Json.Decode.eq_of_complete made
  refine .leaf (all.holds.congr ?_)
  rintro rfl
  cases leaf
  rfl

/-- The parts of a condition come from the member for its tag and from others that the tag names. -/
theorem sources_of_decode (h : decode nested t = .ok c) :
    ∃ u s, (t.entries ["type"]).get? "type" = some u ∧ tag nested u = .ok s ∧ Sources t s c := by
  cases t with
  | obj ms broken =>
    rw [decode] at h
    obtain ⟨found, scanned, rest⟩ := bind_eq_ok_iff.mp h
    obtain ⟨_, -, body⟩ := bind_eq_ok_iff.mp rest
    rw [Tree.get?_entries_obj (by simp)]
    obtain ⟨-, source⟩ := source_of_tagOf scanned
    generalize (Tree.keyed ms).get? "type" = u? at source
    cases source with
    | missing => cases body
    | @read u found read =>
      obtain ⟨s, tagged, rfl⟩ := map_eq_ok_iff.mp read
      refine ⟨u, s, rfl, tagged, ?_⟩
      -- What is read next is the same object again.
      split at body
      · next none => cases none
      · next complex =>
        obtain ⟨⟨join, cs⟩, hcs, made⟩ := bind_eq_ok_iff.mp body
        cases made
        refine .complex (Option.some.inj complex) ?_
        rw [Tree.get?_entries_obj (by simp)]
        exact (source_of_decodeMembers hcs).2
      · next other tag =>
        obtain rfl := Option.some.inj tag
        split at body
        · next spec init leaf => exact sources_of_members leaf body
        · next unknown =>
          cases body
          exact .unknown (not_mem_of_leafSpec?_eq_none other unknown)
  | arr items broken =>
    cases items with
    | nil =>
      rw [decode] at h
      obtain ⟨_, -, h⟩ := bind_eq_ok_iff.mp h
      cases h
    | cons u items =>
      rw [decode] at h
      obtain ⟨s, tagged, h⟩ := bind_eq_ok_iff.mp h
      obtain ⟨_, -, h⟩ := bind_eq_ok_iff.mp h
      obtain ⟨_, -, h⟩ := bind_eq_ok_iff.mp h
      refine ⟨u, s, rfl, tagged, ?_⟩
      split at h
      · next complex =>
        obtain ⟨⟨join, cs⟩, hcs, h⟩ := bind_eq_ok_iff.mp h
        cases h
        exact .complex complex (source_of_decodePositions hcs)
      · next other =>
        split at h
        · next spec init leaf => exact sources_of_positions leaf h
        · next unknown =>
          split at h
          · cases h
            exact .unknown (not_mem_of_leafSpec?_eq_none other unknown)
          · cases h
  | _ => simp [decode] at h

end Condition

namespace Binding

def kindOf (t : Tree) : Except DecodeError BindingKind := (Decode.string t).map .ofTag

structure Sources (m : String → Option Tree) (b : Binding) : Prop where
  kind : Source kindOf .static (m "type") b.kind

theorem sources_of_ofTree {b : Binding} (h : ofTree surplus t = .ok b) :
    b.Sources (fun k ↦ (t.entries (spec surplus).names).get? k) ∧
      (t.entries (spec surplus).names).get? "type" ≠ none := by
  refine (Decode.sources_of_record (P := Sources) (fun m k hk t b b' hb hw ↦ ?_) ⟨.missing⟩
    (by simp [spec]) h).imp_right fun required ↦ required "type" (by simp [spec])
  simp only [spec, List.mem_cons, List.not_mem_nil, or_false] at hk
  rcases hk with rfl | rfl | rfl | rfl | rfl | rfl
  all_goals
    obtain ⟨a, ha, rfl⟩ := map_eq_ok_iff.mp hw
  · exact { hb with }
  · exact ⟨.read (map_eq_ok_iff.mpr ⟨a, ha, rfl⟩)⟩
  · exact { hb with }
  · exact { hb with }
  · exact { hb with }
  · exact { hb with }

end Binding

namespace Action

def kindOf (t : Tree) : Except DecodeError ActionKind := (Decode.string t).map .ofTag

structure Sources (surplus : DecodeError) (m : String → Option Tree) (a : Action) : Prop where
  kind : Source kindOf (.unknown "") (m "type") a.kind
  condition : Source (Decode.option Condition.ofTree) none (m "condition") a.condition
  onError : Source (Decode.option (Decode.list (ofTree surplus))) none (m "onError") a.onError
  onSuccess : Source (Decode.option (Decode.list (ofTree surplus))) none (m "onSuccess") a.onSuccess

theorem sources_of_ofTree {a : Action} (h : ofTree surplus t = .ok a) :
    a.Sources surplus (fun k ↦ (t.entries (spec surplus).names).get? k) ∧
      (t.entries (spec surplus).names).get? "type" ≠ none := by
  rw [ofTree_eq_record] at h
  refine (Decode.sources_of_record (P := Sources surplus) (fun m k hk t a a' ha hw ↦ ?_)
    ⟨.missing, .missing, .missing, .missing⟩ (by simp [spec, fieldNames]) h).imp_right
    fun required ↦ required "type" (by simp [spec])
  simp only [spec, fieldNames, List.mem_cons, List.not_mem_nil, or_false] at hk
  rcases hk with rfl | rfl | rfl | rfl | rfl
  all_goals
    obtain ⟨x, hx, rfl⟩ := map_eq_ok_iff.mp hw
  · exact { ha with kind := .read (map_eq_ok_iff.mpr ⟨x, hx, rfl⟩) }
  · exact { ha with }
  · exact { ha with condition := .read hx }
  · exact { ha with onError := .read hx }
  · exact { ha with onSuccess := .read hx }

end Action

namespace Handler

structure Sources (surplus : DecodeError) (m : String → Option Tree) (x : Handler) : Prop where
  actions : Source (Decode.list (Action.ofTree surplus)) [] (m "actions") x.actions
  condition : Source (Decode.option Condition.ofTree) none (m "condition") x.condition

theorem sources_of_ofTree {x : Handler} (h : ofTree surplus t = .ok x) :
    x.Sources surplus fun k ↦ (t.entries (spec surplus).names).get? k := by
  refine (Decode.sources_of_record (P := Sources surplus) (fun m k hk t x x' hx hw ↦ ?_)
    ⟨.missing, .missing⟩ (by simp [spec]) h).1
  simp only [spec, List.mem_cons, List.not_mem_nil, or_false] at hk
  rcases hk with rfl | rfl | rfl | rfl | rfl
  all_goals
    obtain ⟨a, ha, rfl⟩ := map_eq_ok_iff.mp hw
  · exact { hx with }
  · exact { hx with actions := .read ha }
  · exact { hx with condition := .read ha }
  · exact { hx with }
  · exact { hx with }

end Handler

namespace Node

structure Sources (surplus : DecodeError) (m : String → Option Tree) (n : Node) : Prop where
  bindings : Source (Decode.list (Binding.ofTree surplus)) [] (m "bindings") n.bindings
  events : Source (Decode.list (Handler.ofTree surplus)) [] (m "events") n.events
  condition : Source (Decode.option Condition.ofTree) none (m "condition") n.condition
  children : Source (Decode.list (ofTree surplus)) [] (m "children") n.children
  slots : Source (Decode.fields (Decode.list (ofTree surplus))) [] (m "slots") n.slots

theorem sources_of_ofTree {n : Node} (h : ofTree surplus t = .ok n) :
    n.Sources surplus fun k ↦ (t.entries (spec surplus).names).get? k := by
  rw [ofTree_eq_record] at h
  refine (Decode.sources_of_record (P := Sources surplus) (fun m k hk t n n' hn hw ↦ ?_)
    ⟨.missing, .missing, .missing, .missing, .missing⟩ (by simp [spec, fieldNames]) h).1
  simp only [spec, fieldNames, List.mem_cons, List.not_mem_nil, or_false] at hk
  rcases hk with rfl | rfl | rfl | rfl | rfl | rfl | rfl | rfl | rfl | rfl | rfl | rfl
  all_goals
    obtain ⟨a, ha, rfl⟩ := map_eq_ok_iff.mp hw
  · exact { hn with }
  · exact { hn with }
  · exact { hn with }
  · exact { hn with }
  · exact { hn with }
  · exact { hn with bindings := .read ha }
  · exact { hn with events := .read ha }
  · exact { hn with condition := .read ha }
  · exact { hn with }
  · exact { hn with children := .read ha }
  · exact { hn with slots := .read ha }
  · exact { hn with }

end Node

namespace Page

structure Sources (surplus : DecodeError) (m : String → Option Tree) (p : Page) : Prop where
  root : Source (Decode.option (Node.ofTree surplus)) none (m "root") p.root

theorem sources_of_ofTree {p : Page} (h : ofTree surplus t = .ok p) :
    p.Sources surplus fun k ↦ (t.entries (spec surplus).names).get? k := by
  refine (Decode.sources_of_record (P := Sources surplus) (fun m k hk t p p' hp hw ↦ ?_)
    ⟨.missing⟩ (by simp [spec]) h).1
  simp only [spec, List.mem_cons, List.not_mem_nil, or_false] at hk
  rcases hk with rfl | rfl | rfl | rfl | rfl
  all_goals
    obtain ⟨a, ha, rfl⟩ := map_eq_ok_iff.mp hw
  · exact { hp with }
  · exact { hp with }
  · exact { hp with }
  · exact ⟨.read ha⟩
  · exact { hp with }

end Page

end LivePage
