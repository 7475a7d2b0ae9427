import LivePage.Proofs.Outcome
import LivePage.Proofs.Render.Unfolding

/-!
# Rendering and the unfolded page

The elements of a page that is rendered are, in depth-first order, the places of the unfolded page
whose way shows them: where every condition on it holds.  An element stands below the one of the
place above.
-/

namespace LivePage

/-! ## The elements of a rendering -/

/-- An element below another one, with its side and its index there. -/
structure Placed where
  side : Side
  index : Nat
  element : Element

/-- A trail through a rendering, from an element up to the root. -/
abbrev Trail := List Placed

namespace Element

mutual

/-- The trails to an element and to all below it, in depth-first order. -/
def trails (above : Trail) (side : Side) (index : Nat) : Element → List Trail
  | x@{ children, slots, .. } =>
    let trail := ⟨side, index, x⟩ :: above
    trail :: (trailsList trail .child 0 children ++ trailsSlots trail 0 slots)

def trailsList (above : Trail) (side : Side) (index : Nat) : List Element → List Trail
  | [] => []
  | x :: r => x.trails above side index ++ trailsList above side (index + 1) r

def trailsSlots (above : Trail) (place : Nat) : List (String × List Element) → List Trail
  | [] => []
  | (k, xs) :: r => trailsList above (.slot place k) 0 xs ++ trailsSlots above (place + 1) r

end

variable {above : Trail} {side : Side} {index : Nat}

theorem trails_eq (x : Element) : x.trails above side index = (⟨side, index, x⟩ :: above) ::
    (trailsList (⟨side, index, x⟩ :: above) .child 0 x.children ++
      trailsSlots (⟨side, index, x⟩ :: above) 0 x.slots) := by
  cases x
  rw [trails]

theorem trailsList_append (xs ys : List Element) : trailsList above side index (xs ++ ys) =
    trailsList above side index xs ++ trailsList above side (index + xs.length) ys := by
  induction xs generalizing index with
  | nil => rfl
  | cons x r ih =>
    rw [List.cons_append, trailsList, trailsList, ih, List.append_assoc, List.length_cons,
      Nat.add_assoc, Nat.add_comm 1]

end Element

/-- The trails of a rendering, in depth-first order. -/
def Rendering.trails (r : Rendering) : List Trail := Element.trailsList [] .root 0 r.content

/-! ## Which elements there are -/

/-- Whether the condition of a node holds in a context. -/
def Node.holds (n : Node) (clock : Int) (c : Context) : Bool := Condition.holds? c clock n.condition

/-- The condition of a node has to hold where the node stands; where it is repeated, it has to hold
in the context of the iteration as well. -/
def Visit.holds (clock : Int) (v : Visit) : Bool :=
  match v.node.loop with
  | none => v.node.holds clock v.outer
  | some _ => v.node.holds clock v.outer && v.node.holds clock v.inner

/-- Whether all conditions on a way hold. -/
def Way.shown (clock : Int) (w : Way) : Bool := w.all (·.holds clock)

/-- What the element of a node is in the context of an iteration. -/
structure Visit.Shows (e : Renderer) (v : Visit) (x : Element) : Prop where
  id : x.id = v.node.id
  type : x.type = v.node.type
  props : v.node.resolveProps v.inner e.clock v.node.bindings v.node.props = .ok x.props
  style : x.style = v.node.style
  layout : x.layout = v.node.layout
  info : x.info = v.node.info
  component : x.component = e.components.resolve? v.node.type
  slots : x.slots.map Prod.fst = v.node.slots.map Prod.fst

/-- A trail leads to what a way shows, and on the same side. -/
def Way.Shows (e : Renderer) : Way → Trail → Prop
  | v :: _, x :: _ => v.Shows e x.element ∧ x.side = v.side
  | _, _ => False

namespace Node

variable {n : Node} {e : Renderer} {c : Context} {x : Element} {xs : List Element}

/-- The element of a node in the context of an iteration. -/
def element (e : Renderer) (n : Node) (c : Context) : Except PropError Element := do
  let props ← n.resolveProps c e.clock n.bindings n.props
  let children ← renderList e n.children c
  let slots ← renderSlots e n.slots c
  return {
    id := n.id, type := n.type, props := props, style := n.style, layout := n.layout
    info := n.info, component := e.components.resolve? n.type
    children := children, slots := slots }

theorem repeated_singleton {holds : Context → Bool} (element : Context → Except PropError Element)
    (h : holds c = true) : repeated holds element [c] = (element c).map ([·]) := by
  rw [repeated, if_pos h]
  cases element c <;> rfl

theorem map_snd_turns {l : Loop} (h : n.loop = some l) :
    (n.turns c).map Prod.snd = l.iterations c := by
  rw [turns, h, Loop.iterations, List.map_map]
  rfl

/-- A node that is not repeated is rendered as one with a single iteration. -/
theorem render_eq (n : Node) : n.render e c =
    if n.holds e.clock c then repeated (n.holds e.clock) (n.element e) ((n.turns c).map Prod.snd)
    else .ok [] := by
  cases n with
  | mk id type props style layout bindings events condition loop children slots info =>
    rw [render]
    refine ite_congr rfl (fun hc ↦ ?_) (fun _ ↦ rfl)
    cases loop with
    | none => exact (repeated_singleton (element e _) hc).symm
    | some l =>
      rw [map_snd_turns rfl]
      rfl

end Node

/-! ## Trails mirror ways -/

/-- Trails mirror ways where they are paired, in order, with those that are shown, and the trail
above one of them with the way above the other; all go on below one way and one trail. -/
def Mirrored (e : Renderer) (above : Way) (above' : Trail) (ws : List Way) (ts : List Trail) :
    Prop :=
  ∃ pairs : List (Way × Trail),
    pairs.map Prod.fst = ws.filter (·.shown e.clock) ∧ pairs.map Prod.snd = ts ∧
      ∀ w t, (w, t) ∈ pairs →
        w.Shows e t ∧ ((w.tail, t.tail) = (above, above') ∨ (w.tail, t.tail) ∈ pairs)

namespace Mirrored

variable {e : Renderer} {above : Way} {above' : Trail} {ws ws' : List Way} {ts ts' : List Trail}

theorem of_hidden (h : ∀ w ∈ ws, w.shown e.clock = false) : Mirrored e above above' ws [] := by
  refine ⟨[], ?_, rfl, nofun⟩
  rw [List.filter_eq_nil_iff.mpr fun w hw ↦ by simp [h w hw]]
  rfl

theorem append (h : Mirrored e above above' ws ts) (h' : Mirrored e above above' ws' ts') :
    Mirrored e above above' (ws ++ ws') (ts ++ ts') := by
  obtain ⟨pairs, hw, ht, hp⟩ := h
  obtain ⟨pairs', hw', ht', hp'⟩ := h'
  refine ⟨pairs ++ pairs', by simp [hw, hw'], by simp [ht, ht'], fun w t h ↦ ?_⟩
  rcases List.mem_append.mp h with h | h
  · exact (hp w t h).imp_right (Or.imp_right (List.mem_append_left _))
  · exact (hp' w t h).imp_right (Or.imp_right (List.mem_append_right _))

/-- What mirrors all that goes on below a step mirrors it with the step. -/
theorem cons {v : Visit} {x : Placed} (hv : Way.shown e.clock (v :: above) = true)
    (hx : v.Shows e x.element) (hside : x.side = v.side)
    (h : Mirrored e (v :: above) (x :: above') ws ts) :
    Mirrored e above above' ((v :: above) :: ws) ((x :: above') :: ts) := by
  obtain ⟨pairs, hw, ht, hp⟩ := h
  refine ⟨(v :: above, x :: above') :: pairs, ?_, by simp [ht], fun w t h ↦ ?_⟩
  · rw [List.map_cons, hw, List.filter_cons_of_pos hv]
  · rcases List.mem_cons.mp h with h | h
    · cases h
      exact ⟨⟨hx, hside⟩, .inl rfl⟩
    · refine (hp w t h).imp_right fun h ↦ .inr ?_
      rcases h with h | h
      · rw [h]
        exact List.mem_cons_self
      · exact List.mem_cons_of_mem _ h

end Mirrored

namespace Node

open Element (trailsList trailsSlots)

variable {n : Node} {ns : List Node} {slots : List (String × List Node)} {e : Renderer}
  {c : Context} {x : Element} {xs : List Element} {above : Way} {above' : Trail} {side : Side}
  {i j place : Nat} {t : Option Nat × Context}

/-- The condition has to hold where the node stands and in the context of each iteration; a node
that is not repeated has both in one. -/
theorem holds_of_mem_turns (clock : Int) (ht : t ∈ n.turns c) :
    Visit.holds clock ⟨side, i, n, t.1, c, t.2⟩ = (n.holds clock c && n.holds clock t.2) := by
  unfold turns at ht
  unfold Visit.holds
  cases hl : n.loop with
  | none =>
    rw [hl] at ht
    rw [List.mem_singleton.mp ht, Bool.and_self]
  | some l => rfl

/-- An iteration shows where the condition holds in both contexts and all above it shows. -/
theorem shown_of_mem_turns (ht : t ∈ n.turns c) (hc : n.holds e.clock c = true)
    (hi : n.holds e.clock t.2 = true) (ha : Way.shown e.clock above = true) :
    Way.shown e.clock (⟨side, i, n, t.1, c, t.2⟩ :: above) = true := by
  rw [Way.shown, List.all_cons, holds_of_mem_turns _ ht, hc, hi]
  exact ha

/-- Nothing shows below an iteration where the condition does not hold. -/
theorem hidden_of_mem_waysOf {w : Way} (ht : t ∈ n.turns c)
    (hc : n.holds e.clock c = false ∨ n.holds e.clock t.2 = false)
    (h : w ∈ n.waysOf above side i c t) : w.shown e.clock = false := by
  obtain ⟨below, v, rfl, rfl⟩ := under_of_mem_waysOf h
  have hv : Visit.holds e.clock ⟨side, i, n, t.1, c, t.2⟩ = false := by
    rw [holds_of_mem_turns _ ht, Bool.and_eq_false_iff]
    exact hc
  simp [Way.shown, hv]

/-- What is rendered of a node mirrors the ways to it and below, wherever the node stands. -/
def MirrorsWays (e : Renderer) (n : Node) : Prop :=
  ∀ ⦃c xs⦄, n.render e c = .ok xs → ∀ ⦃above⦄, Way.shown e.clock above = true →
    ∀ above' side i j,
      Mirrored e above above' (n.ways above side i c) (trailsList above' side j xs)

theorem mirrored_renderList (hn : ∀ m ∈ ns, m.MirrorsWays e)
    (ha : Way.shown e.clock above = true) (h : renderList e ns c = .ok xs) :
    Mirrored e above above' (waysList above side i ns c) (trailsList above' side j xs) := by
  induction ns generalizing i j xs with
  | nil =>
    cases h
    exact .of_hidden nofun
  | cons n r ih =>
    rw [renderList] at h
    obtain ⟨ys, hy, h⟩ := bind_eq_ok_iff.mp h
    obtain ⟨zs, hz, h⟩ := bind_eq_ok_iff.mp h
    cases h
    rw [waysList, Element.trailsList_append]
    exact (hn n List.mem_cons_self hy ha _ _ _ _).append
      (ih (fun m hm ↦ hn m (List.mem_cons_of_mem _ hm)) hz)

/-- Slots keep their names and their order. -/
theorem mirrored_renderSlots {ss : List (String × List Element)}
    (hn : ∀ s ∈ slots, ∀ m ∈ s.2, m.MirrorsWays e) (ha : Way.shown e.clock above = true)
    (h : renderSlots e slots c = .ok ss) :
    Mirrored e above above' (waysSlots above place slots c) (trailsSlots above' place ss) ∧
      ss.map Prod.fst = slots.map Prod.fst := by
  induction slots generalizing place ss with
  | nil =>
    cases h
    exact ⟨.of_hidden nofun, rfl⟩
  | cons s r ih =>
    obtain ⟨name, ns⟩ := s
    rw [renderSlots] at h
    obtain ⟨ys, hy, h⟩ := bind_eq_ok_iff.mp h
    obtain ⟨zs, hz, h⟩ := bind_eq_ok_iff.mp h
    cases h
    obtain ⟨hr, hnames⟩ := ih (fun s hs ↦ hn s (List.mem_cons_of_mem _ hs)) hz
    rw [waysSlots, trailsSlots]
    exact ⟨.append (mirrored_renderList (hn _ List.mem_cons_self) ha hy) hr,
      by rw [List.map_cons, List.map_cons, hnames]⟩

/-- An element mirrors the iteration that it is made for. -/
theorem mirrored_element (hn : ∀ m ∈ n.children, m.MirrorsWays e)
    (hs : ∀ s ∈ n.slots, ∀ m ∈ s.2, m.MirrorsWays e) (ht : t ∈ n.turns c)
    (hc : n.holds e.clock c = true) (hi : n.holds e.clock t.2 = true)
    (ha : Way.shown e.clock above = true) (h : n.element e t.2 = .ok x) :
    Mirrored e above above' (n.waysOf above side i c t) (x.trails above' side j) := by
  have hv : Way.shown e.clock (⟨side, i, n, t.1, c, t.2⟩ :: above) = true :=
    shown_of_mem_turns ht hc hi ha
  obtain ⟨props, hp, h⟩ := bind_eq_ok_iff.mp h
  obtain ⟨ys, hy, h⟩ := bind_eq_ok_iff.mp h
  obtain ⟨ss, hz, h⟩ := bind_eq_ok_iff.mp h
  cases h
  obtain ⟨hslots, hnames⟩ := mirrored_renderSlots hs hv hz
  rw [Element.trails_eq]
  exact .cons hv ⟨rfl, rfl, hp, rfl, rfl, rfl, rfl, hnames⟩ rfl
    (.append (mirrored_renderList hn hv hy) hslots)

/-- The elements of a node mirror its iterations: those where the condition does not hold once more
have none. -/
theorem mirrored_repeated {turns : List (Option Nat × Context)}
    (hn : ∀ m ∈ n.children, m.MirrorsWays e) (hs : ∀ s ∈ n.slots, ∀ m ∈ s.2, m.MirrorsWays e)
    (hc : n.holds e.clock c = true) (ha : Way.shown e.clock above = true)
    (ht : ∀ t ∈ turns, t ∈ n.turns c)
    (h : repeated (n.holds e.clock) (n.element e) (turns.map Prod.snd) = .ok xs) :
    Mirrored e above above' (turns.flatMap (n.waysOf above side i c))
      (trailsList above' side j xs) := by
  induction turns generalizing j xs with
  | nil =>
    cases h
    exact .of_hidden nofun
  | cons t r ih =>
    have hr : ∀ t ∈ r, t ∈ n.turns c := fun t hm ↦ ht t (List.mem_cons_of_mem _ hm)
    have ht := ht t List.mem_cons_self
    rw [List.map_cons, repeated] at h
    rw [List.flatMap_cons]
    split at h
    · next hi =>
      obtain ⟨y, hy, h⟩ := bind_eq_ok_iff.mp h
      obtain ⟨ys, hz, h⟩ := bind_eq_ok_iff.mp h
      cases h
      rw [trailsList]
      exact (mirrored_element hn hs ht hc hi ha hy).append (ih hr hz)
    · next hi =>
      refine Mirrored.append (.of_hidden fun w hw ↦ ?_) (ih hr h)
      exact hidden_of_mem_waysOf ht (.inr (Bool.eq_false_iff.mpr hi)) hw

/-- What is rendered of a node mirrors the ways to it. -/
theorem mirrorsWays (e : Renderer) (n : Node) : n.MirrorsWays e := by
  induction n using Node.induction with
  | step n children slots =>
    intro c xs h above ha above' side i j
    rw [render_eq] at h
    rw [ways_eq]
    split at h
    · next hc => exact mirrored_repeated children slots hc ha (fun _ ht ↦ ht) h
    · next hc =>
      cases h
      refine .of_hidden fun w hw ↦ ?_
      obtain ⟨t, ht, hw⟩ := List.mem_flatMap.mp hw
      exact hidden_of_mem_waysOf ht (.inl (Bool.eq_false_iff.mpr hc)) hw

/-- A loop over what is no list renders nothing, and does not fail. -/
theorem render_of_not_list {l : Loop} (hl : n.loop = some l) (h : ∀ vs, l.sourceValue c ≠ .arr vs) :
    n.render e c = .ok [] := by
  have hi : l.items c = [] := by
    unfold Loop.items
    split
    · next vs hv => exact absurd hv (h vs)
    · rfl
  rw [render_eq, map_snd_turns hl, Loop.iterations, hi]
  exact ite_self _

end Node

/-- An iteration is the one of an item, which the variables hold together with its index where the
loop tells them apart. -/
theorem Visit.exists_item {v : Visit} {l : Loop} (h : v.IsTurn) (hl : v.node.loop = some l) :
    ∃ i item, v.turn = some i ∧ (l.items v.outer)[i]? = some item ∧ (l.itemKey ≠ l.indexKey →
      v.inner.vars.get? l.itemKey = some item ∧ v.inner.vars.get? l.indexKey = some (.nat i)) := by
  unfold IsTurn Node.turns at h
  rw [hl] at h
  obtain ⟨⟨item, i⟩, hm, h⟩ := List.mem_map.mp h
  obtain ⟨ht, hc⟩ := Prod.mk.inj h
  refine ⟨i, item, ht.symm, List.mk_mem_zipIdx_iff_getElem?.mp hm, fun hne ↦ ?_⟩
  rw [← hc]
  simp [Loop.iteration, Context.extend, hne]

end LivePage
