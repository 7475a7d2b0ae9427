import LivePage.Page.Decode
import LivePage.Proofs.Fields
import LivePage.Proofs.Outcome

/-!
# Pages in order

The slots of every node of a page that was read are in the order of their names.
-/

namespace LivePage

open Json (Tree DecodeError)

namespace Json.Decode

variable {σ : Type} {spec : Spec σ} {surplus : DecodeError} {P : σ → Prop} {s s' : σ}

theorem members_invariant (hw : ∀ k t s s', P s → spec.write k t s = .ok s' → P s')
    {ms : List (Except Fault String × Tree)} {seen seen' : List String} (hs : P s)
    (h : members spec ms seen s = .ok (s', seen')) : P s' := by
  induction ms generalizing seen s with
  | nil =>
    cases h
    exact hs
  | cons m r ih =>
    obtain ⟨k | k, t⟩ := m
    · cases h
    · rw [members] at h
      split at h
      · split at h
        · cases h
        · obtain ⟨a, ha, h⟩ := bind_eq_ok_iff.mp h
          exact ih (hw _ _ _ _ hs ha) h
      · obtain ⟨_, -, h⟩ := bind_eq_ok_iff.mp h
        exact ih hs h

theorem positions_invariant (hw : ∀ k t s s', P s → spec.write k t s = .ok s' → P s')
    {names : List String} {ts : List Tree} {seen seen' : List String} (hs : P s)
    (h : positions spec surplus names ts seen s = .ok (s', seen')) : P s' := by
  induction ts generalizing names seen s with
  | nil =>
    cases names <;> cases h <;> exact hs
  | cons t r ih =>
    cases names with
    | nil => cases h
    | cons k ks =>
      obtain ⟨a, ha, h⟩ := bind_eq_ok_iff.mp h
      exact ih (hw _ _ _ _ hs ha) h

/-- What holds of the defaults of a record and is kept by the writes of its fields holds of each
record that is read. -/
theorem record_invariant (hw : ∀ k t s s', P s → spec.write k t s = .ok s' → P s') (hs : P s)
    {t : Tree} (h : record spec surplus s t = .ok s') : P s' := by
  have complete {read : σ × List String} (hr : P read.1)
      (h : complete spec.required read = .ok s') : P s' := by
    obtain ⟨s, seen⟩ := read
    rw [Decode.complete] at h
    split at h
    · cases h
      exact hr
    · cases h
  unfold record at h
  split at h
  · obtain ⟨read, hread, h⟩ := bind_eq_ok_iff.mp h
    obtain ⟨_, -, h⟩ := bind_eq_ok_iff.mp h
    exact complete (members_invariant hw hs hread) h
  · obtain ⟨read, hread, h⟩ := bind_eq_ok_iff.mp h
    obtain ⟨_, -, h⟩ := bind_eq_ok_iff.mp h
    exact complete (positions_invariant hw hs hread) h
  · cases h

theorem of_option_eq_some {α : Type} {decode : Tree → Except DecodeError α} {t : Tree} {a : α}
    (h : option decode t = .ok (some a)) : decode t = .ok a := by
  unfold option at h
  split at h
  · cases h
  · obtain ⟨b, hb, hs⟩ := map_eq_ok_iff.mp h
    cases hs
    exact hb

end Json.Decode

namespace Node

variable {n n' : Node} {surplus : DecodeError} {t : Tree} {k : String}

/-- The slots of a node and of all below it are in the order of their names. -/
inductive Ordered : Node → Prop where
  | intro {n : Node} (slots : Fields.Sorted n.slots) (children : ∀ m ∈ n.children, m.Ordered)
      (below : ∀ s ∈ n.slots, ∀ m ∈ s.2, m.Ordered) : n.Ordered

theorem ordered_default : Ordered {} :=
  ⟨Fields.sorted_nil, List.forall_mem_nil _, List.forall_mem_nil _⟩

theorem ordered_setField (hn : n.Ordered)
    (hc : ∀ ns, ofList surplus t = .ok ns → ∀ m ∈ ns, m.Ordered)
    (hs : ∀ ss, ofSlots surplus t = .ok ss → Fields.Sorted ss ∧ ∀ s ∈ ss, ∀ m ∈ s.2, m.Ordered)
    (h : setField surplus k n t = .ok n') : n'.Ordered := by
  obtain ⟨slots, children, below⟩ := hn
  unfold setField at h
  split at h
  case h_10 =>
    obtain ⟨ns, hns, rfl⟩ := map_eq_ok_iff.mp h
    exact ⟨slots, hc ns hns, below⟩
  case h_11 =>
    obtain ⟨ss, hss, rfl⟩ := map_eq_ok_iff.mp h
    exact ⟨(hs ss hss).1, children, (hs ss hss).2⟩
  all_goals
    obtain ⟨a, -, rfl⟩ := map_eq_ok_iff.mp h
    exact ⟨slots, children, below⟩

mutual

/-- The slots of a node that was read are in the order of their names, and so are those of all
below it. -/
theorem ordered_ofTree : ∀ (t : Tree) {n}, ofTree surplus t = .ok n → n.Ordered
  | .obj ms broken, n, h => by
    rw [ofTree] at h
    obtain ⟨n, hn, h⟩ := bind_eq_ok_iff.mp h
    obtain ⟨_, -, h⟩ := bind_eq_ok_iff.mp h
    cases h
    exact ordered_ofMembers ms ordered_default hn
  | .arr items broken, n, h => by
    rw [ofTree] at h
    obtain ⟨n, hn, h⟩ := bind_eq_ok_iff.mp h
    obtain ⟨_, -, h⟩ := bind_eq_ok_iff.mp h
    cases h
    exact ordered_ofPositions items ordered_default hn
  | .null, _, h | .bool _, _, h | .num _, _, h | .str _, _, h | .fault _, _, h | .cut _, _, h
  | .unusable _, _, h => by simp [ofTree] at h

theorem ordered_ofMembers : ∀ (ms : List (Except Json.Fault String × Tree)) {seen n n'},
    n.Ordered → ofMembers surplus ms seen n = .ok n' → n'.Ordered
  | [], _, _, _, hn, h => by
    rw [ofMembers] at h
    cases h
    exact hn
  | (.error f, _) :: _, _, _, _, _, h => by simp [ofMembers] at h
  | (.ok k, t) :: r, seen, n, n', hn, h => by
    rw [ofMembers] at h
    split at h
    · split at h
      · cases h
      · obtain ⟨a, ha, h⟩ := bind_eq_ok_iff.mp h
        have hn := ordered_setField hn (fun _ ↦ ordered_ofList t) (fun _ ↦ ordered_ofSlots t) ha
        exact ordered_ofMembers r hn h
    · obtain ⟨_, -, h⟩ := bind_eq_ok_iff.mp h
      exact ordered_ofMembers r hn h

theorem ordered_ofPositions : ∀ (ts : List Tree) {names n n'},
    n.Ordered → ofPositions surplus names ts n = .ok n' → n'.Ordered
  | [], names, _, _, hn, h => by
    rw [ofPositions] at h
    cases h
    exact hn
  | t :: r, [], _, _, _, h => by simp [ofPositions] at h
  | t :: r, k :: ks, n, n', hn, h => by
    rw [ofPositions] at h
    obtain ⟨a, ha, h⟩ := bind_eq_ok_iff.mp h
    have hn := ordered_setField hn (fun _ ↦ ordered_ofList t) (fun _ ↦ ordered_ofSlots t) ha
    exact ordered_ofPositions r hn h

theorem ordered_ofList : ∀ (t : Tree) {ns}, ofList surplus t = .ok ns → ∀ m ∈ ns, m.Ordered
  | .arr items broken, ns, h => by
    rw [ofList] at h
    obtain ⟨ns, hns, h⟩ := bind_eq_ok_iff.mp h
    obtain ⟨_, -, h⟩ := bind_eq_ok_iff.mp h
    cases h
    exact ordered_ofItems items hns
  | .null, _, h | .bool _, _, h | .num _, _, h | .str _, _, h | .fault _, _, h | .cut _, _, h
  | .unusable _, _, h | .obj _ _, _, h => by simp [ofList] at h

theorem ordered_ofItems : ∀ (ts : List Tree) {ns}, ofItems surplus ts = .ok ns →
    ∀ m ∈ ns, m.Ordered
  | [], _, h => by
    rw [ofItems] at h
    cases h
    exact List.forall_mem_nil _
  | t :: r, _, h => by
    rw [ofItems] at h
    obtain ⟨n, hn, h⟩ := bind_eq_ok_iff.mp h
    obtain ⟨ns, hns, h⟩ := bind_eq_ok_iff.mp h
    cases h
    exact List.forall_mem_cons.mpr ⟨ordered_ofTree t hn, ordered_ofItems r hns⟩

theorem ordered_ofSlots : ∀ (t : Tree) {ss}, ofSlots surplus t = .ok ss →
    Fields.Sorted ss ∧ ∀ s ∈ ss, ∀ m ∈ s.2, m.Ordered
  | .obj ms broken, _, h => by
    rw [ofSlots] at h
    obtain ⟨ss, hss, h⟩ := bind_eq_ok_iff.mp h
    obtain ⟨_, -, h⟩ := bind_eq_ok_iff.mp h
    cases h
    exact ⟨Fields.sorted_ofList ss,
      fun s hs ↦ ordered_ofSlotMembers ms hss s (Fields.mem_of_mem_ofList hs)⟩
  | .null, _, h | .bool _, _, h | .num _, _, h | .str _, _, h | .fault _, _, h | .cut _, _, h
  | .unusable _, _, h | .arr _ _, _, h => by simp [ofSlots] at h

theorem ordered_ofSlotMembers : ∀ (ms : List (Except Json.Fault String × Tree)) {ss},
    ofSlotMembers surplus ms = .ok ss → ∀ s ∈ ss, ∀ m ∈ s.2, m.Ordered
  | [], _, h => by
    rw [ofSlotMembers] at h
    cases h
    exact List.forall_mem_nil _
  | (.error _, _) :: _, _, h => by simp [ofSlotMembers] at h
  | (.ok k, t) :: r, _, h => by
    rw [ofSlotMembers] at h
    obtain ⟨ns, hns, h⟩ := bind_eq_ok_iff.mp h
    obtain ⟨ss, hss, h⟩ := bind_eq_ok_iff.mp h
    cases h
    exact List.forall_mem_cons.mpr ⟨ordered_ofList t hns, ordered_ofSlotMembers r hss⟩

end

end Node

/-- The slots of all nodes are in the order of their names. -/
def Page.Ordered (p : Page) : Prop := ∀ n, p.root = some n → n.Ordered

/-- Slots are in the order of their names on each page that was read. -/
theorem Page.ordered_of_ofTree {surplus : DecodeError} {t : Tree} {p : Page}
    (h : Page.ofTree surplus t = .ok p) : p.Ordered := by
  refine Json.Decode.record_invariant (P := Page.Ordered) ?_ (fun n h ↦ by cases h) h
  intro k t p p' hp h
  simp only [spec] at h
  split at h
  case h_4 =>
    obtain ⟨root, hroot, rfl⟩ := map_eq_ok_iff.mp h
    rintro n rfl
    exact Node.ordered_ofTree t (Json.Decode.of_option_eq_some hroot)
  all_goals
    obtain ⟨a, -, rfl⟩ := map_eq_ok_iff.mp h
    exact hp

end LivePage
