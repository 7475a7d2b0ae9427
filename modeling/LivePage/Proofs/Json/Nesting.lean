import LivePage.Proofs.Json.Codec

/-!
# Nesting

A list or an object in too many others is of no use to a reader of text.  So a value is read from
its text only where it is nested no deeper than the reader goes, by each decoder that reads all of
it.
-/

namespace LivePage

namespace Value

mutual

/-- How deep lists and objects are nested. -/
def depth : Value → Nat
  | arr items => depthOfItems items + 1
  | obj members => depthOfMembers members + 1
  | _ => 0

def depthOfItems : List Value → Nat
  | [] => 0
  | v :: r => max v.depth (depthOfItems r)

def depthOfMembers : List (String × Value) → Nat
  | [] => 0
  | (_, v) :: r => max v.depth (depthOfMembers r)

end

section Bound

variable {n depth : Nat}

theorem depthOfItems_le {vs : List Value} (bound : depth ≤ n)
    (each : ∀ v ∈ vs, depth + v.depth ≤ n) : depth + depthOfItems vs ≤ n := by
  induction vs with
  | nil => exact bound
  | cons v r ih =>
    obtain ⟨hv, hr⟩ := List.forall_mem_cons.mp each
    have hr := ih hr
    rw [depthOfItems]
    omega

theorem depthOfMembers_le {ms : List (String × Value)} (bound : depth ≤ n)
    (each : ∀ m ∈ ms, depth + m.2.depth ≤ n) : depth + depthOfMembers ms ≤ n := by
  induction ms with
  | nil => exact bound
  | cons m r ih =>
    obtain ⟨hv, hr⟩ := List.forall_mem_cons.mp each
    have hr := ih hr
    rw [depthOfMembers]
    omega

end Bound

end Value

namespace Json

mutual

/-- The document of a value inside `depth` open lists and objects, as it is read. -/
def Tree.within (depth : Nat) : Value → Tree
  | .arr items => inDepth depth (.arr (withinItems (depth + 1) items) none)
  | .obj members => inDepth depth (.obj (withinMembers (depth + 1) members) none)
  | v => .ofValue v

def withinItems (depth : Nat) : List Value → List Tree
  | [] => []
  | v :: r => .within depth v :: withinItems depth r

def withinMembers (depth : Nat) : List (String × Value) → List (Except Fault String × Tree)
  | [] => []
  | (k, v) :: r => (.ok k, .within depth v) :: withinMembers depth r

end

theorem withinItems_eq_map (depth : Nat) (vs : List Value) :
    withinItems depth vs = vs.map (.within depth) := by
  induction vs with
  | nil => rfl
  | cons v r ih => rw [withinItems, ih, List.map_cons]

theorem withinMembers_eq_map (depth : Nat) (ms : List (String × Value)) :
    withinMembers depth ms = ms.map fun m ↦ (.ok m.1, .within depth m.2) := by
  induction ms with
  | nil => rfl
  | cons m r ih => rw [withinMembers, ih, List.map_cons]

mutual

/-- Where nothing is nested too deep, all of a value is read. -/
theorem within_eq_ofValue : (v : Value) → {depth : Nat} → depth + v.depth ≤ maxDepth →
    Tree.within depth v = .ofValue v
  | .null, _, _ | .bool _, _, _ | .num _, _, _ | .str _, _, _ => rfl
  | .arr items, depth, h => by
    rw [Value.depth] at h
    rw [Tree.within, withinItems_eq items (by omega), inDepth, if_pos (by omega), Tree.ofValue]
  | .obj members, depth, h => by
    rw [Value.depth] at h
    rw [Tree.within, withinMembers_eq members (by omega), inDepth, if_pos (by omega), Tree.ofValue]

theorem withinItems_eq : (vs : List Value) → {depth : Nat} →
    depth + Value.depthOfItems vs ≤ maxDepth → withinItems depth vs = treesOfItems vs
  | [], _, _ => rfl
  | v :: r, depth, h => by
    rw [Value.depthOfItems] at h
    rw [withinItems, within_eq_ofValue v (by omega), withinItems_eq r (by omega), treesOfItems]

theorem withinMembers_eq : (ms : List (String × Value)) → {depth : Nat} →
    depth + Value.depthOfMembers ms ≤ maxDepth → withinMembers depth ms = treesOfMembers ms
  | [], _, _ => rfl
  | (k, v) :: r, depth, h => by
    rw [Value.depthOfMembers] at h
    rw [withinMembers, within_eq_ofValue v (by omega), withinMembers_eq r (by omega),
      treesOfMembers]

end

/-- What is read at all is read from a list or an object that is not nested too deep. -/
theorem of_inDepth {ε α : Type} {f : Tree → Except ε α} {depth : Nat} {t : Tree} {a : α}
    (rejected : ∀ a, f (.unusable t) ≠ .ok a) (read : f (inDepth depth t) = .ok a) :
    depth < maxDepth ∧ f t = .ok a := by
  rw [inDepth] at read
  split at read
  · next below => exact ⟨below, read⟩
  · exact absurd read (rejected a)

mutual

/-- A value that is read is nested no deeper than the reader goes. -/
theorem depth_of_value : (v : Value) → {depth : Nat} → {w : Value} → depth ≤ maxDepth →
    (Tree.within depth v).value = .ok w → depth + v.depth ≤ maxDepth
  | .null, _, _, h, _ | .bool _, _, _, h, _ | .num _, _, _, h, _ | .str _, _, _, h, _ => h
  | .arr items, depth, _, _, read => by
    rw [Tree.within] at read
    obtain ⟨below, read⟩ := of_inDepth (f := Tree.value) nofun read
    rw [Tree.value] at read
    obtain ⟨vs, read, -⟩ := bind_eq_ok_iff.mp read
    have fits := depth_of_itemValues items below read
    rw [Value.depth]
    omega
  | .obj members, depth, _, _, read => by
    rw [Tree.within] at read
    obtain ⟨below, read⟩ := of_inDepth (f := Tree.value) nofun read
    rw [Tree.value] at read
    obtain ⟨ms, read, -⟩ := bind_eq_ok_iff.mp read
    have fits := depth_of_memberValues members below read
    rw [Value.depth]
    omega

theorem depth_of_itemValues : (vs : List Value) → {depth : Nat} → {ws : List Value} →
    depth ≤ maxDepth → itemValues (withinItems depth vs) = .ok ws →
    depth + Value.depthOfItems vs ≤ maxDepth
  | [], _, _, h, _ => h
  | v :: r, depth, _, h, read => by
    rw [withinItems, itemValues] at read
    obtain ⟨w, first, read⟩ := bind_eq_ok_iff.mp read
    obtain ⟨ws, others, -⟩ := bind_eq_ok_iff.mp read
    have first := depth_of_value v h first
    have others := depth_of_itemValues r h others
    rw [Value.depthOfItems]
    omega

theorem depth_of_memberValues : (ms : List (String × Value)) → {depth : Nat} →
    {ws : List (String × Value)} → depth ≤ maxDepth →
    memberValues (withinMembers depth ms) = .ok ws → depth + Value.depthOfMembers ms ≤ maxDepth
  | [], _, _, h, _ => h
  | (k, v) :: r, depth, _, h, read => by
    rw [withinMembers, memberValues] at read
    obtain ⟨_, -, read⟩ := bind_eq_ok_iff.mp read
    obtain ⟨w, first, read⟩ := bind_eq_ok_iff.mp read
    obtain ⟨ws, others, -⟩ := bind_eq_ok_iff.mp read
    have first := depth_of_value v h first
    have others := depth_of_memberValues r h others
    rw [Value.depthOfMembers]
    omega

end

namespace Decode

variable {α σ : Type}

/-- Where something is read from the document of a value, the value is nested no deeper than the
reader goes. -/
def ReadsAll (decode : Tree → Except DecodeError α) (v : Value) : Prop :=
  ∀ ⦃depth : Nat⦄ ⦃a : α⦄, depth ≤ maxDepth → decode (.within depth v) = .ok a →
    depth + v.depth ≤ maxDepth

namespace ReadsAll

variable {decode : Tree → Except DecodeError α} {v : Value} {vs : List Value}
  {ms : List (String × Value)} {spec : Spec σ}

theorem flat (h : v.depth = 0) : ReadsAll decode v := by
  intro depth a bound _
  rwa [h]

theorem value (v : Value) : ReadsAll Decode.value v :=
  fun _ _ bound read ↦ depth_of_value v bound (value_eq_ok_iff.mp read)

theorem map {β : Type} (h : ReadsAll decode v) (f : α → β) :
    ReadsAll (fun t ↦ (decode t).map f) v := by
  intro depth b bound read
  obtain ⟨a, read, -⟩ := map_eq_ok_iff.mp read
  exact h bound read

theorem option (h : ReadsAll decode v) : ReadsAll (Decode.option decode) v := by
  intro depth a? bound read
  unfold Decode.option at read
  split at read
  · next null =>
    cases v with
    | arr | obj =>
      rw [Tree.within, inDepth] at null
      split at null <;> cases null
    | _ => exact bound
  · obtain ⟨a, read, -⟩ := map_eq_ok_iff.mp read
    exact h bound read

theorem list (h : ∀ v ∈ vs, ReadsAll decode v) : ReadsAll (Decode.list decode) (.arr vs) := by
  intro depth as bound read
  rw [Tree.within] at read
  obtain ⟨below, read⟩ := of_inDepth (f := Decode.list decode) nofun read
  obtain ⟨as, read, -⟩ := bind_eq_ok_iff.mp read
  have each : ∀ v ∈ vs, depth + 1 + v.depth ≤ maxDepth := by
    intro v hv
    rw [withinItems_eq_map] at read
    obtain ⟨a, read⟩ := exists_eq_ok_of_mapM read _ (List.mem_map_of_mem hv)
    exact h v hv below read
  have fits := Value.depthOfItems_le below each
  rw [Value.depth]
  omega

theorem fields (h : ∀ m ∈ ms, ReadsAll decode m.2) : ReadsAll (Decode.fields decode) (.obj ms) := by
  intro depth as bound read
  rw [Tree.within] at read
  obtain ⟨below, read⟩ := of_inDepth (f := Decode.fields decode) nofun read
  obtain ⟨as, read, -⟩ := bind_eq_ok_iff.mp read
  have each : ∀ m ∈ ms, depth + 1 + m.2.depth ≤ maxDepth := by
    intro m hm
    rw [withinMembers_eq_map] at read
    obtain ⟨_, read⟩ := exists_eq_ok_of_mapM read _ (List.mem_map_of_mem hm)
    obtain ⟨_, -, read⟩ := bind_eq_ok_iff.mp read
    obtain ⟨a, read, -⟩ := bind_eq_ok_iff.mp read
    exact h m hm below read
  have fits := Value.depthOfMembers_le below each
  rw [Value.depth]
  omega

end ReadsAll

/-- All members are of these names, and the record reads all of each. -/
def ReadsEach (spec : Spec σ) (names : List String) (ms : Fields Value) : Prop :=
  ∀ m ∈ ms, m.1 ∈ names ∧ ∀ s, ReadsAll (fun t ↦ spec.write m.1 t s) m.2

namespace ReadsEach

variable {spec : Spec σ} {k : String} {names : List String} {v : Value} {ms : Fields Value}

theorem nil : ReadsEach spec names [] := List.forall_mem_nil _

theorem skip (h : ReadsEach spec names ms) : ReadsEach spec (k :: names) ms := by
  intro m hm
  obtain ⟨known, reads⟩ := h m hm
  exact ⟨.tail _ known, reads⟩

theorem member (h : ∀ s, ReadsAll (fun t ↦ spec.write k t s) v) (rest : ReadsEach spec names ms) :
    ReadsEach spec (k :: names) ((k, v) :: ms) :=
  List.forall_mem_cons.mpr ⟨⟨.head _, h⟩, rest.skip⟩

theorem optional {α : Type} {a? : Option α} {encode : α → Value}
    (h : ∀ a, a? = some a → ∀ s, ReadsAll (fun t ↦ spec.write k t s) (encode a))
    (rest : ReadsEach spec names ms) :
    ReadsEach spec (k :: names) (.optional k (a?.map encode) ++ ms) := by
  cases a? with
  | none => exact rest.skip
  | some a => exact rest.member (h a rfl)

theorem optionalValue {v? : Option Value} (h : ∀ v s, ReadsAll (fun t ↦ spec.write k t s) v)
    (rest : ReadsEach spec names ms) : ReadsEach spec (k :: names) (.optional k v? ++ ms) := by
  cases v? with
  | none => exact rest.skip
  | some v => exact rest.member (h v)

theorem listMember {vs : List Value} (h : ∀ s, ReadsAll (fun t ↦ spec.write k t s) (.arr vs))
    (rest : ReadsEach spec names ms) :
    ReadsEach spec (k :: names) (Value.listMember k vs ++ ms) := by
  cases vs with
  | nil => exact rest.skip
  | cons v vs => exact rest.member h

theorem objectMember {m : Fields Value} (h : ∀ s, ReadsAll (fun t ↦ spec.write k t s) (.obj m))
    (rest : ReadsEach spec names ms) :
    ReadsEach spec (k :: names) (Value.objectMember k m ++ ms) := by
  cases m with
  | nil => exact rest.skip
  | cons x m => exact rest.member h

theorem of_append_nil (h : ReadsEach spec names (ms ++ [])) : ReadsEach spec names ms := by
  rwa [List.append_nil] at h

theorem depth_of_members {depth : Nat} {seen : List String} {s : σ} {read : σ × List String}
    (h : ReadsEach spec spec.names ms) (bound : depth ≤ maxDepth)
    (found : members spec (withinMembers depth ms) seen s = .ok read) :
    depth + Value.depthOfMembers ms ≤ maxDepth := by
  induction ms generalizing seen s with
  | nil => exact bound
  | cons m r ih =>
    obtain ⟨⟨known, hv⟩, hr⟩ := List.forall_mem_cons.mp h
    rw [withinMembers, members, if_pos (List.contains_iff_mem.mpr known)] at found
    split at found
    · cases found
    · obtain ⟨_, first, others⟩ := bind_eq_ok_iff.mp found
      have first := hv _ bound first
      have others := ih hr others
      rw [Value.depthOfMembers]
      omega

end ReadsEach

/-- A record reads all of its members where it reads all of each. -/
theorem ReadsAll.record {spec : Spec σ} {surplus : DecodeError} {init : σ} {ms : Fields Value}
    (h : ReadsEach spec spec.names ms) : ReadsAll (record spec surplus init) (.obj ms) := by
  intro depth s bound read
  rw [Tree.within] at read
  obtain ⟨below, read⟩ := of_inDepth (f := Decode.record spec surplus init) nofun read
  obtain ⟨read, found, -⟩ := bind_eq_ok_iff.mp read
  have fits := h.depth_of_members below found
  rw [Value.depth]
  omega

end Decode

end Json

end LivePage
