import LivePage.Page.Encode
import LivePage.Proofs.Json.Codec
import LivePage.Proofs.Page.Order

/-!
# Conditions that are read again

A kind that was read from a tag is read again from the tag that is written for it, be it another
spelling of that tag.  A condition is written with its tag as the first member.  Whether it stands
alone or inside of another one, it is read again from what is written.
-/

namespace LivePage

open Json (Tree DecodeError treesOfMembers)
open Json.Decode (Yields Fills Spec)

/-! ## Tags -/

/-- Where kinds that are known are read from their own tags, and all others keep theirs, each is
read again from its tag. -/
theorem ofTag_tag_of_known {κ : Type} (ofTag : String → κ) (tag : κ → String) {known : List κ}
    {spells : String → κ → Bool} {unknown : String → κ}
    (read : ∀ s, ofTag s = (known.find? (spells s)).getD (unknown s))
    (own : ∀ k ∈ known, ofTag (tag k) = k) (kept : ∀ s, tag (unknown s) = s) (s : String) :
    ofTag (tag (ofTag s)) = ofTag s := by
  cases found : known.find? (spells s) with
  | none =>
    have other : ofTag s = unknown s := by rw [read, found, Option.getD_none]
    rw [other, kept, other]
  | some k =>
    have here : ofTag s = k := by rw [read, found, Option.getD_some]
    rw [here, own k (List.mem_of_find?_eq_some found)]

theorem BindingKind.ofTag_tag_ofTag (s : String) : ofTag (ofTag s).tag = ofTag s :=
  ofTag_tag_of_known ofTag tag (fun _ ↦ rfl) (by decide) (fun _ ↦ rfl) s

theorem Comparison.ofTag_tag_ofTag (s : String) : ofTag (ofTag s).tag = ofTag s :=
  ofTag_tag_of_known ofTag tag (fun _ ↦ rfl) (by decide) (fun _ ↦ rfl) s

theorem ActionKind.ofTag_tag_ofTag (s : String) : ofTag (ofTag s).tag = ofTag s :=
  ofTag_tag_of_known ofTag tag (fun _ ↦ rfl) (by decide) (fun _ ↦ rfl) s

/-! ## Conditions -/

namespace Condition

/-- What is known of the parts of a condition that was read. -/
def Parts : Condition → Prop
  | simple _ comparison value =>
    (∀ c, comparison = some c → Comparison.ofTag c.tag = c) ∧ Yields Json.Decode.value value
  | complex _ conditions => ∀ c ∈ conditions, Yields (decode true) c
  | raw _ | unknown => True

variable {nested nested' : Bool} {t : Tree} {k : String} {c c' : Condition}

theorem parts_simple (h : c.Parts) (hw : simpleSpec.write k t c = .ok c') : c'.Parts := by
  cases c with
  | simple field comparison value =>
    simp only [simpleSpec] at hw
    split at hw
    · obtain ⟨s, -, rfl⟩ := map_eq_ok_iff.mp hw
      exact h
    · obtain ⟨s?, -, rfl⟩ := map_eq_ok_iff.mp hw
      refine ⟨fun c hc ↦ ?_, h.2⟩
      obtain ⟨s, -, rfl⟩ := Option.map_eq_some_iff.mp hc
      exact Comparison.ofTag_tag_ofTag s
    · obtain ⟨v, hv, rfl⟩ := map_eq_ok_iff.mp hw
      exact ⟨h.1, t, hv⟩
  | complex | raw | unknown =>
    cases hw
    exact h

theorem parts_raw (hw : rawSpec.write k t c = .ok c') : c'.Parts := by
  obtain ⟨s, -, rfl⟩ := map_eq_ok_iff.mp hw
  trivial

/-- A leaf has its parts at first, and keeps them. -/
theorem parts_leafSpec {s : String} {spec : Spec Condition} {init : Condition}
    (h : leafSpec? s = some (spec, init)) :
    init.Parts ∧ ∀ k t c c', c.Parts → spec.write k t c = .ok c' → c'.Parts := by
  unfold leafSpec? at h
  split at h
  · cases h
    exact ⟨⟨nofun, .null, rfl⟩, fun _ _ _ _ ↦ parts_simple⟩
  · cases h
    exact ⟨trivial, fun _ _ _ _ _ ↦ parts_raw⟩
  · cases h

theorem yields_of_decodeItems {ts : List Tree} {cs : List Condition}
    (h : decodeItems ts = .ok cs) : ∀ c ∈ cs, Yields (decode true) c := by
  induction ts generalizing cs with
  | nil =>
    rw [decodeItems] at h
    cases h
    exact List.forall_mem_nil _
  | cons t r ih =>
    rw [decodeItems] at h
    obtain ⟨c, hc, h⟩ := bind_eq_ok_iff.mp h
    obtain ⟨cs, hcs, h⟩ := bind_eq_ok_iff.mp h
    cases h
    exact List.forall_mem_cons.mpr ⟨⟨t, hc⟩, ih hcs⟩

theorem yields_of_decodeList {cs : List Condition} (h : decodeList t = .ok cs) :
    ∀ c ∈ cs, Yields (decode true) c := by
  cases t with
  | arr items broken =>
    rw [decodeList] at h
    exact yields_of_decodeItems h
  | _ => simp [decodeList] at h

theorem yields_of_decodeMembers {ms : List (Except Json.Fault String × Tree)}
    {seen : List String} {join join' : Logic} {cs cs' : List Condition}
    (hcs : ∀ c ∈ cs, Yields (decode true) c)
    (h : decodeMembers ms seen join cs = .ok (join', cs')) : ∀ c ∈ cs', Yields (decode true) c := by
  induction ms generalizing seen join cs with
  | nil =>
    rw [decodeMembers] at h
    cases h
    exact hcs
  | cons m r ih =>
    obtain ⟨k | k, t⟩ := m
    · rw [decodeMembers] at h
      cases h
    · rw [decodeMembers.eq_def] at h
      dsimp only at h
      split at h
      · cases h
      · split at h
        · obtain ⟨join, -, h⟩ := bind_eq_ok_iff.mp h
          exact ih hcs h
        · obtain ⟨cs, hcs, h⟩ := bind_eq_ok_iff.mp h
          exact ih (yields_of_decodeList hcs) h
        · exact ih hcs h

theorem yields_of_decodePositions {ts : List Tree} {join : Logic} {cs : List Condition}
    (h : decodePositions ts = .ok (join, cs)) : ∀ c ∈ cs, Yields (decode true) c := by
  rw [decodePositions.eq_def] at h
  split at h
  · cases h
    exact List.forall_mem_nil _
  · obtain ⟨join, -, h⟩ := map_eq_ok_iff.mp h
    cases h
    exact List.forall_mem_nil _
  · obtain ⟨join, -, h⟩ := bind_eq_ok_iff.mp h
    obtain ⟨cs, hcs, h⟩ := bind_eq_ok_iff.mp h
    cases h
    exact yields_of_decodeList hcs
  · cases h

/-- What was read has parts that were. -/
theorem parts_of_decode (h : decode nested t = .ok c) : c.Parts := by
  cases t with
  | obj ms broken =>
    rw [decode] at h
    obtain ⟨found, -, h⟩ := bind_eq_ok_iff.mp h
    obtain ⟨_, -, h⟩ := bind_eq_ok_iff.mp h
    split at h
    · cases h
    · obtain ⟨⟨join, cs⟩, hcs, h⟩ := bind_eq_ok_iff.mp h
      cases h
      exact yields_of_decodeMembers (List.forall_mem_nil _) hcs
    · split at h
      · next spec init leaf =>
        obtain ⟨first, step⟩ := parts_leafSpec leaf
        obtain ⟨read, hread, h⟩ := bind_eq_ok_iff.mp h
        rw [Json.Decode.eq_of_complete h]
        exact Json.Decode.members_invariant step first hread
      · cases h
        trivial
  | arr items broken =>
    cases items with
    | nil =>
      rw [decode] at h
      obtain ⟨_, -, h⟩ := bind_eq_ok_iff.mp h
      cases h
    | cons t items =>
      rw [decode] at h
      obtain ⟨s, -, h⟩ := bind_eq_ok_iff.mp h
      obtain ⟨_, -, h⟩ := bind_eq_ok_iff.mp h
      obtain ⟨_, -, h⟩ := bind_eq_ok_iff.mp h
      split at h
      · obtain ⟨⟨join, cs⟩, hcs, h⟩ := bind_eq_ok_iff.mp h
        cases h
        exact yields_of_decodePositions hcs
      · split at h
        · next spec init leaf =>
          obtain ⟨first, step⟩ := parts_leafSpec leaf
          obtain ⟨read, hread, h⟩ := bind_eq_ok_iff.mp h
          rw [Json.Decode.eq_of_complete h]
          exact Json.Decode.positions_invariant step first hread
        · split at h
          · cases h
            trivial
          · cases h
  | _ => simp [decode] at h

/-! ## Reading what is written -/

theorem conditionValues_eq_map (cs : List Condition) : conditionValues cs = cs.map toValue := by
  induction cs with
  | nil => rfl
  | cons c r ih => rw [conditionValues, ih, List.map_cons]

section Tagged

variable {s : String} {ms : Fields Value}

theorem tagOf_treesOfMembers (h : "type" ∉ ms.keys) :
    tagOf nested (treesOfMembers ms) (some s) = .ok (some s) := by
  induction ms with
  | nil => rfl
  | cons m r ih =>
    obtain ⟨k, v⟩ := m
    obtain ⟨hk, hr⟩ := not_or.mp (List.mem_cons.not.mp h)
    have skipped : Json.Decode.value (.ofValue v) = .ok (Json.sorted v) :=
      Json.Decode.value_eq_ok_iff.mpr (Json.value_ofValue v)
    rw [treesOfMembers, tagOf, if_neg (Ne.symm hk), skipped]
    exact ih hr

/-- The tag is found where it is written. -/
theorem tagOf_tagged (h : "type" ∉ ms.keys) :
    tagOf nested (treesOfMembers (("type", .str s) :: ms)) none = .ok (some s) :=
  tagOf_treesOfMembers h

theorem untagged_tagged (h : "type" ∉ ms.keys) :
    untagged (treesOfMembers (("type", .str s) :: ms)) = treesOfMembers ms := by
  rw [Json.treesOfMembers_eq_map, Json.treesOfMembers_eq_map, untagged, List.map_cons,
    List.filter_cons_of_neg (by simp), List.filter_eq_self]
  intro m hm
  obtain ⟨⟨k, v⟩, hk, rfl⟩ := List.mem_map.mp hm
  simp only [bne_iff_ne]
  rintro rfl
  exact h (List.mem_map_of_mem hk)

/-- A leaf is read from its fields. -/
theorem decode_leaf {spec : Spec Condition} {init : Condition}
    (leaf : leafSpec? s = some (spec, init)) (fills : Fills spec spec.names ms init c)
    (all : ∀ k ∈ spec.required, k ∈ ms.keys) :
    decode nested (.ofValue (.obj (("type", .str s) :: ms))) = .ok c := by
  have names : "type" ∉ spec.names ∧ spec.names.Nodup := by
    unfold leafSpec? at leaf
    split at leaf <;> cases leaf <;> decide
  have read : Json.Decode.record spec .shape init (.ofValue (.obj ms)) = .ok c :=
    Json.Decode.record_ofValue fills names.2 all
  have untyped : "type" ∉ ms.keys := fun h ↦ names.1 (fills.keys_sublist.subset h)
  rw [Tree.ofValue, Json.Decode.record] at read
  rw [Tree.ofValue, decode, tagOf_tagged untyped, ok_bind, Json.Decode.closed, ok_bind]
  split
  · next none => cases none
  · next complex =>
    cases complex
    cases leaf
  · next tag =>
    cases tag
    rw [leaf, untagged_tagged untyped]
    exact read

/-- Joined conditions are read from the members that say how and which. -/
theorem decode_joined {join : Logic} {cs : List Condition} (h : "type" ∉ ms.keys)
    (read : decodeMembers (treesOfMembers (("type", .str "complex") :: ms)) [] .and [] =
      .ok (join, cs)) :
    decode nested (.ofValue (.obj (("type", .str "complex") :: ms))) = .ok (.complex join cs) := by
  rw [Tree.ofValue, decode, tagOf_tagged h, ok_bind, Json.Decode.closed, ok_bind]
  dsimp only
  rw [read]
  rfl

end Tagged

theorem decodeItems_eq_mapM (ts : List Tree) : decodeItems ts = ts.mapM (decode true) := by
  induction ts with
  | nil => rfl
  | cons t r ih => rw [decodeItems, ih, List.mapM_cons]

theorem logic_tag (join : Logic) : logic (.str join.tag) = .ok join := by
  cases join <;> decide

/-- A condition whose parts were read is read again from what is written for it. -/
theorem decode_toValue : (c : Condition) → c.Parts → (nested : Bool) →
    decode nested (.ofValue c.toValue) = .ok c
  | simple field comparison value, ⟨spelled, read⟩, _ => by
    change decode _ (.ofValue (.obj (("type", .str "simple") :: ("field", .str field) ::
      (Fields.optional "operator" (comparison.map (.str ·.tag)) ++ [("value", value)])))) = _
    refine decode_leaf rfl ?_ nofun
    refine .member Json.Decode.string (simple · none .null) rfl rfl ?_
    refine .optional (fun t ↦ (Json.Decode.string t).map .ofTag) (simple field · .null) ?_
      (fun t ↦ ?_) ?_
    · rintro c rfl
      exact ⟨nofun, congrArg Except.ok (spelled c rfl)⟩
    · have written : simpleSpec.write "operator" t (simple field none .null) =
          (Json.Decode.option Json.Decode.string t).map
            fun s? ↦ simple field (s?.map .ofTag) .null := rfl
      rw [written, Json.Decode.option_map]
      cases Json.Decode.option Json.Decode.string t <;> rfl
    · exact .member Json.Decode.value (simple field comparison) read.value rfl .nil
  | raw expression, _, _ =>
    decode_leaf (s := "raw") rfl (.member Json.Decode.string raw rfl rfl .nil)
      (fun _ h ↦ h)
  | unknown, _, _ => rfl
  | complex join conditions, h, nested => by
    have below : ∀ c ∈ conditions, decode true (.ofValue c.toValue) = .ok c := by
      intro c hc
      obtain ⟨t, ht⟩ := h c hc
      exact decode_toValue c (parts_of_decode ht) true
    have list : decodeList (.ofValue (.arr (conditions.map toValue))) = .ok conditions := by
      rw [Tree.ofValue, decodeList, decodeItems_eq_mapM, Json.treesOfItems_eq_map, List.map_map]
      exact mapM_map_eq_ok (f := Tree.ofValue ∘ toValue) below
    rw [toValue, conditionValues_eq_map]
    refine decode_joined (by simp [Fields.keys]) ?_
    calc
      _ = (logic (.str join.tag) >>= fun join ↦
          decodeList (.ofValue (.arr (conditions.map toValue))) >>= fun cs ↦ .ok (join, cs)) := rfl
      _ = .ok (join, conditions) := by rw [logic_tag, ok_bind, list, ok_bind]

theorem toValue_ne_null (c : Condition) : c.toValue ≠ .null := by
  cases c <;> nofun

/-- What was read, alone or inside of another condition, is read again. -/
theorem again_of_yields {nested' : Bool} (h : Yields (decode nested) c) :
    c.toValue ≠ .null ∧ decode nested' (.ofValue c.toValue) = .ok c := by
  obtain ⟨t, h⟩ := h
  exact ⟨c.toValue_ne_null, decode_toValue c (parts_of_decode h) nested'⟩

end Condition

end LivePage
