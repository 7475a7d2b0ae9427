import Mathlib.Data.List.Lex
import LivePage.Proofs.Page.Binding
import LivePage.Proofs.Render.Correspondence

/-!
# Where rendering fails

Nodes, lists of nodes and slots are rendered by functions that call each other, and the first of
them that fails ends them all.  Told from the unfolded page there is one list of places, and the
failure is the first one there.
-/

namespace LivePage

/-! ## The first in depth-first order -/

/-- Read from the root, ways in depth-first order are in the order of dictionaries. -/
theorem DepthFirst.lex_reverse {α : Type} {before : α → α → Prop} {w w' : List α}
    (h : DepthFirst before w w') : List.Lex before w.reverse w'.reverse := by
  rcases h with ⟨⟨below, rfl⟩, hne⟩ | ⟨above, v, v', below, below', hv, rfl, rfl⟩
  · rw [List.reverse_append]
    cases hb : below.reverse with
    | nil => exact absurd (by simpa using hb) (fun h ↦ hne (by simp [h]))
    | cons v r => simpa using List.Lex.append_left before (.nil (a := v) (l := r)) w.reverse
  · simpa using List.Lex.append_left before (.rel hv) above.reverse

/-- Steps from one place do not come each before the other. -/
instance : Std.Asymm Visit.Precedes where
  asymm v v' h h' := by
    have turn : v.turn < v'.turn → ¬v'.turn < v.turn := by
      cases v.turn <;> cases v'.turn <;> simp
      exact Nat.le_of_lt
    rcases h with h | ⟨hs, h | ⟨hi, h⟩⟩ <;> rcases h' with h' | ⟨hs', h' | ⟨hi', h'⟩⟩
    case inr.inr.inr.inr => exact turn h h'
    all_goals omega

instance : Std.Asymm (DepthFirst Visit.Precedes) where
  asymm _ _ h h' := Std.Asymm.asymm _ _ h.lex_reverse h'.lex_reverse

section List

variable {α β : Type} {R : α → α → Prop} {f : α → Option β} {l : List α} {b : β}

/-- The first that is found in a list that is in order comes before all others. -/
theorem findSome?_eq_some_iff_of_pairwise [Std.Asymm R] (h : l.Pairwise R) :
    l.findSome? f = some b ↔
      ∃ a ∈ l, f a = some b ∧ ∀ a' ∈ l, f a' ≠ none → a = a' ∨ R a a' := by
  rw [List.findSome?_eq_some_iff]
  constructor
  · rintro ⟨l₁, a, l₂, rfl, ha, hn⟩
    refine ⟨a, by simp, ha, fun a' hm hf ↦ ?_⟩
    obtain ⟨-, hr, -⟩ := List.pairwise_append.mp h
    rcases List.mem_append.mp hm with hm | hm
    · exact absurd (hn a' hm) hf
    · exact (List.mem_cons.mp hm).imp Eq.symm ((List.pairwise_cons.mp hr).1 a')
  · rintro ⟨a, hm, ha, first⟩
    obtain ⟨l₁, l₂, rfl⟩ := List.append_of_mem hm
    refine ⟨l₁, a, l₂, rfl, ha, fun a' hm' ↦ by_contra fun hf ↦ ?_⟩
    have hlt : R a' a := (List.pairwise_append.mp h).2.2 a' hm' a List.mem_cons_self
    rcases first a' (List.mem_append_left _ hm') hf with rfl | hr
    · exact Std.Asymm.asymm _ _ hlt hlt
    · exact Std.Asymm.asymm _ _ hlt hr

/-- The first that is found is at the least index. -/
theorem findSome?_eq_some_iff_getElem? : l.findSome? f = some b ↔
    ∃ (i : Nat) (a : α), l[i]? = some a ∧ f a = some b ∧
      ∀ j a', l[j]? = some a' → f a' ≠ none → i ≤ j := by
  rw [List.findSome?_eq_some_iff]
  constructor
  · rintro ⟨l₁, a, l₂, rfl, ha, hn⟩
    refine ⟨l₁.length, a, by simp, ha, fun j a' hj hf ↦ Nat.le_of_not_lt fun hlt ↦ ?_⟩
    rw [List.getElem?_append_left hlt] at hj
    exact hf (hn a' (List.mem_of_getElem? hj))
  · rintro ⟨i, a, hi, ha, first⟩
    obtain ⟨hlt, rfl⟩ := List.getElem?_eq_some_iff.mp hi
    refine ⟨l.take i, _, l.drop (i + 1), by simp, ha, fun a' hm ↦ by_contra fun hf ↦ ?_⟩
    obtain ⟨j, hj⟩ := List.mem_iff_getElem?.mp hm
    rw [List.getElem?_take] at hj
    split at hj
    · next hlt => exact absurd (first j a' hj hf) (Nat.not_le_of_lt hlt)
    · cases hj

end List

/-! ## What fails first -/

/-- The first binding of a node that fails the whole, with the node. -/
def Node.fault? (n : Node) (clock : Int) (c : Context) : Option PropError :=
  n.bindings.findSome? fun b ↦ (failure? (b.resolve c clock)).map (⟨n.id, b.target, ·⟩)

/-- The first binding that fails the whole at the end of a way, where it is shown. -/
def Way.fault? (clock : Int) : Way → Option PropError
  | [] => none
  | v :: above => if Way.shown clock (v :: above) then v.node.fault? clock v.inner else none

theorem Way.fault?_of_hidden {clock : Int} {w : Way} (h : w.shown clock = false) :
    w.fault? clock = none := by
  cases w with
  | nil => rfl
  | cons v above => exact if_neg (Bool.eq_false_iff.mp h)

theorem Way.findSome?_of_hidden {clock : Int} {ws : List Way}
    (h : ∀ w ∈ ws, w.shown clock = false) : ws.findSome? (Way.fault? clock) = none :=
  List.findSome?_eq_none_iff.mpr fun w hw ↦ fault?_of_hidden (h w hw)

namespace Node

variable {n : Node} {ns : List Node} {slots : List (String × List Node)} {e : Renderer}
  {c : Context} {above : Way} {side : Side} {i place : Nat} {t : Option Nat × Context}

theorem failure?_resolveProps (n : Node) (c : Context) (clock : Int) (bs : List Binding)
    (props : Fields Value) : failure? (n.resolveProps c clock bs props) =
      bs.findSome? fun b ↦ (failure? (b.resolve c clock)).map (⟨n.id, b.target, ·⟩) := by
  induction bs generalizing props with
  | nil => rfl
  | cons b r ih =>
    rw [resolveProps, failure?_bind fun v ↦ ih _, failure?_mapError, List.findSome?_cons]
    cases failure? (b.resolve c clock) <;> rfl

/-- The bindings of a node come before its children, and these before its slots. -/
theorem failure?_element (e : Renderer) (n : Node) (c : Context) : failure? (n.element e c) =
    (n.fault? e.clock c).or
      ((failure? (renderList e n.children c)).or (failure? (renderSlots e n.slots c))) := by
  unfold element
  rw [failure?_bind fun _ ↦ failure?_bind fun _ ↦ failure?_bind_pure _ _, failure?_resolveProps]
  rfl

/-- What the rendering of a node fails with is the first fault of the places at the node and below
it, wherever the node stands. -/
def FailsAlongWays (e : Renderer) (n : Node) : Prop :=
  ∀ ⦃above⦄, Way.shown e.clock above = true → ∀ side i c,
    failure? (n.render e c) = (n.ways above side i c).findSome? (Way.fault? e.clock)

theorem failure?_renderList (hn : ∀ m ∈ ns, m.FailsAlongWays e)
    (ha : Way.shown e.clock above = true) :
    failure? (renderList e ns c) = (waysList above side i ns c).findSome? (Way.fault? e.clock) := by
  induction ns generalizing i with
  | nil => rfl
  | cons n r ih =>
    rw [renderList, failure?_bind fun _ ↦ failure?_bind_pure _ _, waysList, List.findSome?_append,
      hn n List.mem_cons_self ha, ih fun m hm ↦ hn m (List.mem_cons_of_mem _ hm)]

theorem failure?_renderSlots (hn : ∀ s ∈ slots, ∀ m ∈ s.2, m.FailsAlongWays e)
    (ha : Way.shown e.clock above = true) : failure? (renderSlots e slots c) =
      (waysSlots above place slots c).findSome? (Way.fault? e.clock) := by
  induction slots generalizing place with
  | nil => rfl
  | cons s r ih =>
    obtain ⟨name, ns⟩ := s
    rw [renderSlots, failure?_bind fun _ ↦ failure?_bind_pure _ _, waysSlots,
      List.findSome?_append, failure?_renderList (hn _ List.mem_cons_self) ha,
      ih fun s hs ↦ hn s (List.mem_cons_of_mem _ hs)]

/-- The element of an iteration fails along the ways that start with the iteration. -/
theorem failure?_element_of_mem_turns (hn : ∀ m ∈ n.children, m.FailsAlongWays e)
    (hs : ∀ s ∈ n.slots, ∀ m ∈ s.2, m.FailsAlongWays e) (ht : t ∈ n.turns c)
    (hc : n.holds e.clock c = true) (hi : n.holds e.clock t.2 = true)
    (ha : Way.shown e.clock above = true) : failure? (n.element e t.2) =
      (n.waysOf above side i c t).findSome? (Way.fault? e.clock) := by
  -- the ways below go through this iteration, so they are shown from here on
  have hv : Way.shown e.clock (⟨side, i, n, t.1, c, t.2⟩ :: above) = true :=
    shown_of_mem_turns ht hc hi ha
  rw [failure?_element, failure?_renderList hn hv, failure?_renderSlots hs hv, waysOf,
    List.findSome?_cons, List.findSome?_append, Way.fault?, if_pos hv]
  cases n.fault? e.clock t.2 <;> rfl

/-- The iterations of a node fail one after another, where the condition holds once more. -/
theorem failure?_repeated {turns : List (Option Nat × Context)}
    (hn : ∀ m ∈ n.children, m.FailsAlongWays e) (hs : ∀ s ∈ n.slots, ∀ m ∈ s.2, m.FailsAlongWays e)
    (hc : n.holds e.clock c = true) (ha : Way.shown e.clock above = true)
    (ht : ∀ t ∈ turns, t ∈ n.turns c) :
    failure? (repeated (n.holds e.clock) (n.element e) (turns.map Prod.snd)) =
      (turns.flatMap (n.waysOf above side i c)).findSome? (Way.fault? e.clock) := by
  induction turns with
  | nil => rfl
  | cons t r ih =>
    have ih := ih fun t hm ↦ ht t (List.mem_cons_of_mem _ hm)
    have ht := ht t List.mem_cons_self
    rw [List.map_cons, repeated, List.flatMap_cons, List.findSome?_append]
    split
    · next hi =>
      rw [failure?_bind fun _ ↦ failure?_bind_pure _ _, ih,
        failure?_element_of_mem_turns hn hs ht hc hi ha]
    · next hi =>
      rw [ih, Way.findSome?_of_hidden fun w ↦
        hidden_of_mem_waysOf ht (.inr (Bool.eq_false_iff.mpr hi)), Option.none_or]

/-- Every node fails along the ways to it and below, since its children and slots do so behind its
own bindings. -/
theorem failsAlongWays (e : Renderer) (n : Node) : n.FailsAlongWays e := by
  induction n using Node.induction with
  | step n children slots =>
    intro above ha side i c
    rw [render_eq, ways_eq]
    split
    · next hc => exact failure?_repeated children slots hc ha fun _ ht ↦ ht
    · next hc =>
      -- the node is left out, and its iterations are hidden one by one
      refine (Way.findSome?_of_hidden fun w hw ↦ ?_).symm
      obtain ⟨t, ht, hw⟩ := List.mem_flatMap.mp hw
      exact hidden_of_mem_waysOf ht (.inl (Bool.eq_false_iff.mpr hc)) hw

end Node

/-! ## What the bindings of an element give -/

/-- A binding of a node decides its target where it is the last one with this target. -/
def Node.Decides (n : Node) (b : Binding) : Prop :=
  ∃ before behind, n.bindings = before ++ b :: behind ∧ ∀ b' ∈ behind, b'.target ≠ b.target

namespace Node

variable {n : Node} {c : Context} {clock : Int} {bs : List Binding} {b : Binding}
  {props props' : Fields Value}

/-- Properties that no binding has as its target stay as they are. -/
theorem get?_resolveProps_of_ne {k : String} (h : n.resolveProps c clock bs props = .ok props')
    (hk : ∀ b ∈ bs, b.target ≠ k) : props'.get? k = props.get? k := by
  induction bs generalizing props with
  | nil =>
    cases h
    rfl
  | cons b r ih =>
    obtain ⟨v, -, h⟩ := bind_eq_ok_iff.mp h
    rw [ih h fun b hb ↦ hk b (List.mem_cons_of_mem _ hb)]
    exact Fields.get?_insert_of_ne v props (hk b List.mem_cons_self).symm

/-- A property has the value of the last binding with it as the target. -/
theorem get?_resolveProps {before behind : List Binding}
    (h : n.resolveProps c clock (before ++ b :: behind) props = .ok props')
    (last : ∀ b' ∈ behind, b'.target ≠ b.target) :
    ∃ v, b.resolve c clock = .ok v ∧ props'.get? b.target = some v := by
  induction before generalizing props with
  | nil =>
    obtain ⟨v, hv, h⟩ := bind_eq_ok_iff.mp h
    refine ⟨v, mapError_eq_ok_iff.mp hv, ?_⟩
    rw [get?_resolveProps_of_ne h last, Fields.get?_insert_self]
  | cons b₀ r ih =>
    obtain ⟨v, -, h⟩ := bind_eq_ok_iff.mp h
    exact ih h

end Node

/-- On an element that is there, what fails of a binding has been replaced. -/
theorem Visit.Shows.get?_props {e : Renderer} {v : Visit} {x : Element} {b : Binding}
    {value : Value} (h : v.Shows e x) (hb : v.node.Decides b)
    (hd : b.Degrades v.inner e.clock value) : x.props.get? b.target = some value := by
  obtain ⟨before, behind, hbs, last⟩ := hb
  have hp := h.props
  rw [hbs] at hp
  obtain ⟨u, hu, hx⟩ := Node.get?_resolveProps hp last
  have unbroken : ∀ err, ¬b.Breaks v.inner e.clock err := by
    intro err hb
    rw [Binding.resolve_eq_error_iff.mpr hb] at hu
    cases hu
  rw [Binding.resolve_of_degrades hd unbroken] at hu
  cases hu
  exact hx

/-! ## Bindings that break a page -/

/-- A binding of the node at the end of a way breaks the page: all conditions on the way hold, and
the binding breaks the whole there.  The error names the node and the target. -/
inductive Way.Breaks (clock : Int) : Way → Nat → PropError → Prop where
  | intro {v : Visit} {above : Way} {i : Nat} {b : Binding} {err : BindingError}
      (shown : Way.shown clock (v :: above) = true) (binding : v.node.bindings[i]? = some b)
      (breaks : b.Breaks v.inner clock err) :
      Breaks clock (v :: above) i ⟨v.node.id, b.target, err⟩

namespace Way

variable {clock : Int} {v : Visit} {above w : Way} {i : Nat} {x : PropError}

theorem Breaks.shown (h : w.Breaks clock i x) : w.shown clock = true := by
  cases h with
  | intro shown => exact shown

theorem breaks_iff_of_shown (shown : Way.shown clock (v :: above) = true) :
    Breaks clock (v :: above) i x ↔ ∃ b, v.node.bindings[i]? = some b ∧
      (failure? (b.resolve v.inner clock)).map (⟨v.node.id, b.target, ·⟩) = some x := by
  constructor
  · rintro ⟨-, binding, breaks⟩
    have failed := failure?_eq_some_iff.mpr (Binding.resolve_eq_error_iff.mpr breaks)
    exact ⟨_, binding, Option.map_eq_some_iff.mpr ⟨_, failed, rfl⟩⟩
  · rintro ⟨b, binding, h⟩
    obtain ⟨err, failed, rfl⟩ := Option.map_eq_some_iff.mp h
    exact .intro shown binding (Binding.resolve_eq_error_iff.mp (failure?_eq_some_iff.mp failed))

/-- The fault of a place is the one of the first binding that breaks the page there. -/
theorem fault?_eq_some_iff : w.fault? clock = some x ↔
    ∃ i, w.Breaks clock i x ∧ ∀ j y, w.Breaks clock j y → i ≤ j := by
  by_cases shown : w.shown clock = true
  · cases w with
    | nil => exact ⟨nofun, fun ⟨_, h, _⟩ ↦ nomatch h⟩
    | cons v above =>
      rw [fault?, if_pos shown, Node.fault?, findSome?_eq_some_iff_getElem?]
      constructor
      · rintro ⟨i, b, hi, hx, first⟩
        refine ⟨i, (breaks_iff_of_shown shown).mpr ⟨b, hi, hx⟩, fun j y h ↦ ?_⟩
        obtain ⟨b', hj, hy⟩ := (breaks_iff_of_shown shown).mp h
        exact first j b' hj (Option.ne_none_iff_exists'.mpr ⟨y, hy⟩)
      · rintro ⟨i, h, first⟩
        obtain ⟨b, hi, hx⟩ := (breaks_iff_of_shown shown).mp h
        refine ⟨i, b, hi, hx, fun j b' hj hne ↦ ?_⟩
        obtain ⟨y, hy⟩ := Option.ne_none_iff_exists'.mp hne
        exact first j y ((breaks_iff_of_shown shown).mpr ⟨b', hj, hy⟩)
  · rw [fault?_of_hidden (Bool.eq_false_iff.mpr shown)]
    exact ⟨nofun, fun ⟨_, h, _⟩ ↦ absurd h.shown shown⟩

theorem fault?_ne_none_iff : w.fault? clock ≠ none ↔ ∃ i x, w.Breaks clock i x := by
  constructor
  · intro h
    obtain ⟨x, hx⟩ := Option.ne_none_iff_exists'.mp h
    obtain ⟨i, hi, -⟩ := fault?_eq_some_iff.mp hx
    exact ⟨i, x, hi⟩
  · rintro ⟨i, x, h⟩ hn
    cases h with
    | intro shown binding breaks =>
      rw [fault?, if_pos shown, Node.fault?, List.findSome?_eq_none_iff] at hn
      have failed := failure?_eq_some_iff.mpr (Binding.resolve_eq_error_iff.mpr breaks)
      simpa [failed] using hn _ (List.mem_of_getElem? binding)

end Way

end LivePage
