import Mathlib.Logic.Relation
import LivePage.Render.Element

/-!
# Pages with their loops unfolded

A page is unfolded where each node that is repeated is put in place once for every item, whether or
not any condition holds.  The places of the unfolded page are told by the ways that lead to them,
which `ways` lists parents first, children before slots and iterations in their order.  Conditions
are left to `Way.shown`: `Node.render` drops a node as soon as one fails, while a way is unfolded to
its end and then looked at as a whole.
-/

namespace LivePage

/-! ## Depth-first order -/

/-- Ways are lists from a place up to the root.  One comes before another where it is above it, or
where the two part with what comes before. -/
def DepthFirst {α : Type} (before : α → α → Prop) (w w' : List α) : Prop :=
  (w <:+ w' ∧ w ≠ w') ∨
    ∃ above v v' below below', before v v' ∧ w = below ++ v :: above ∧ w' = below' ++ v' :: above

namespace DepthFirst

variable {α : Type} {before : α → α → Prop} {P Q : α → Prop} {w w' above : List α}

/-- A way goes on below another one over a first step with a property. -/
def Under (P : α → Prop) (above w : List α) : Prop :=
  ∃ below v, P v ∧ w = below ++ v :: above

theorem Under.imp (h : ∀ v, P v → Q v) (hw : Under P above w) : Under Q above w := by
  obtain ⟨below, v, hv, rfl⟩ := hw
  exact ⟨below, v, h v hv, rfl⟩

theorem under_self {v : α} (hv : P v) : Under P above (v :: above) := ⟨[], v, hv, rfl⟩

/-- What goes on below a way that goes on below another one does so as well. -/
theorem under_of_under {v : α} (hv : P v) (hw : Under Q (v :: above) w) : Under P above w := by
  obtain ⟨below, u, -, rfl⟩ := hw
  exact ⟨below ++ [u], v, hv, by simp⟩

theorem suffix_of_under (hw : Under P above w) : above <:+ w := by
  obtain ⟨below, v, -, rfl⟩ := hw
  exact ⟨below ++ [v], by simp⟩

/-- A way comes before all that go on below it. -/
theorem of_under (hw : Under P above w) : DepthFirst before above w := by
  refine .inl ⟨suffix_of_under hw, ?_⟩
  rintro rfl
  obtain ⟨below, v, -, he⟩ := hw
  have := congrArg List.length he
  simp only [List.length_append, List.length_cons] at this
  omega

/-- Ways that part come one before another as the steps where they part. -/
theorem of_under_of_under (h : ∀ v v', P v → Q v' → before v v') (hw : Under P above w)
    (hw' : Under Q above w') : DepthFirst before w w' := by
  obtain ⟨below, v, hv, rfl⟩ := hw
  obtain ⟨below', v', hv', rfl⟩ := hw'
  exact .inr ⟨above, v, v', below, below', h v v' hv hv', rfl, rfl⟩

end DepthFirst

/-! ## Ways -/

/-- Where a node stands below another one: among the children, or in the slot of a name; slots
are numbered in their order. -/
inductive Side where
  | root
  | child
  | slot (place : Nat) (name : String)
deriving DecidableEq, Repr

/-- Children come before slots. -/
def Side.rank : Side → Nat
  | root => 0
  | child => 0
  | slot place _ => place + 1

/-- A step of a way: a node of a page, the one of an index on its side, with the iteration of it
that is gone through where it is repeated.  The outer context is the one of its position, the inner
one that of the iteration. -/
structure Visit where
  side : Side
  index : Nat
  node : Node
  turn : Option Nat
  outer : Context
  inner : Context

/-- A way through an unfolded page, from a place up to the root. -/
abbrev Way := List Visit

namespace Node

/-- The iterations of a node in a context; a node that is not repeated is there once. -/
def turns (n : Node) (c : Context) : List (Option Nat × Context) :=
  match n.loop with
  | none => [(none, c)]
  | some l => (l.items c).zipIdx.map fun (item, i) => (some i, l.iteration c i item)

mutual

/-- The ways to a node and to all below it, in depth-first order. -/
def ways (above : Way) (side : Side) (index : Nat) : Node → Context → List Way
  | n@{ children, slots, .. }, c =>
    (n.turns c).flatMap fun (turn, inner) =>
      let way := ⟨side, index, n, turn, c, inner⟩ :: above
      way :: (waysList way .child 0 children inner ++ waysSlots way 0 slots inner)

def waysList (above : Way) (side : Side) (index : Nat) : List Node → Context → List Way
  | [], _ => []
  | n :: r, c => n.ways above side index c ++ waysList above side (index + 1) r c

def waysSlots (above : Way) (place : Nat) : List (String × List Node) → Context → List Way
  | [], _ => []
  | (k, ns) :: r, c => waysList above (.slot place k) 0 ns c ++ waysSlots above (place + 1) r c

end

/-- The ways that start with an iteration of a node. -/
def waysOf (n : Node) (above : Way) (side : Side) (index : Nat) (c : Context)
    (t : Option Nat × Context) : List Way :=
  let way := ⟨side, index, n, t.1, c, t.2⟩ :: above
  way :: (waysList way .child 0 n.children t.2 ++ waysSlots way 0 n.slots t.2)

theorem ways_eq (n : Node) (above : Way) (side : Side) (index : Nat) (c : Context) :
    n.ways above side index c = (n.turns c).flatMap (n.waysOf above side index c) := by
  cases n
  rw [ways]
  rfl

end Node

namespace Visit

/-- The iteration is one of those of the node in the outer context. -/
def IsTurn (v : Visit) : Prop := (v.turn, v.inner) ∈ v.node.turns v.outer

/-- The node stands below another one where the step says. -/
def Below (v u : Visit) : Prop :=
  (v.side = .child ∧ u.node.children[v.index]? = some v.node) ∨
    ∃ place name ns, v.side = .slot place name ∧ u.node.slots[place]? = some (name, ns) ∧
      ns[v.index]? = some v.node

/-- Steps from one place are ordered by side, then by index, then by iteration. -/
def Precedes (v v' : Visit) : Prop :=
  v.side.rank < v'.side.rank ∨ v.side.rank = v'.side.rank ∧
    (v.index < v'.index ∨ v.index = v'.index ∧ v.turn < v'.turn)

/-- A first step below a way, to a node that stands in a context. -/
def Starts (v : Visit) (side : Side) (index : Nat) (n : Node) (c : Context) : Prop :=
  v.side = side ∧ v.index = index ∧ v.node = n ∧ v.outer = c ∧ v.IsTurn

end Visit

namespace Way

/-- One step further down: a node that stands below, in the inner context of the last one. -/
inductive Step : Way → Way → Prop where
  | intro {u v : Visit} {above : Way} (node : v.Below u) (outer : v.outer = u.inner)
      (turn : v.IsTurn) : Step (u :: above) (v :: u :: above)

/-- Any number of steps further down. -/
def Reaches : Way → Way → Prop := Relation.ReflTransGen Step

/-- Which node of a page a way leads to. -/
def address (w : Way) : List (Side × Nat) := w.map fun v ↦ (v.side, v.index)

/-- The iterations of the nodes on a way that are repeated. -/
def indices (w : Way) : List Nat := w.filterMap Visit.turn

end Way

namespace Page

/-- The ways through a page that stands in a context. -/
def IsWay (p : Page) (c : Context) (w : Way) : Prop :=
  ∃ n v, p.root = some n ∧ v.Starts .root 0 n c ∧ Way.Reaches [v] w

/-- The ways through a page in depth-first order. -/
def ways (p : Page) (c : Context) : List Way := Node.waysList [] .root 0 p.root.toList c

end Page

/-! ## Which ways there are -/

namespace Way

variable {v : Visit} {above w : Way}

theorem reaches_iff : Reaches (v :: above) w ↔
    w = v :: above ∨
      ∃ u : Visit, u.Below v ∧ u.outer = v.inner ∧ u.IsTurn ∧ Reaches (u :: v :: above) w := by
  rw [Reaches, Relation.ReflTransGen.cases_head_iff, eq_comm]
  refine or_congr Iff.rfl ⟨?_, ?_⟩
  · rintro ⟨_, ⟨node, outer, turn⟩, h⟩
    exact ⟨_, node, outer, turn, h⟩
  · rintro ⟨u, node, outer, turn, h⟩
    exact ⟨_, .intro node outer turn, h⟩

/-- What is reached goes on below. -/
theorem under_of_reaches (h : Reaches (v :: above) w) : DepthFirst.Under (· = v) above w := by
  induction h with
  | refl => exact DepthFirst.under_self rfl
  | tail _ hs ih =>
    obtain ⟨below, u, hu, hw⟩ := ih
    cases hs with
    | intro => exact ⟨_ :: below, u, hu, congrArg (_ :: ·) hw⟩

end Way

namespace Node

variable {n : Node} {ns : List Node} {above w : Way} {side : Side} {index place : Nat}
  {slots : List (String × List Node)} {c : Context}

theorem mem_waysList : w ∈ waysList above side index ns c ↔
    ∃ k, ∃ m : Node, ns[k]? = some m ∧ w ∈ m.ways above side (index + k) c := by
  induction ns generalizing index with
  | nil => simp [waysList]
  | cons n r ih =>
    rw [waysList, List.mem_append, ih]
    constructor
    · rintro (h | ⟨k, m, hm, h⟩)
      · exact ⟨0, n, rfl, h⟩
      · exact ⟨k + 1, m, hm, by rwa [Nat.add_comm k, ← Nat.add_assoc]⟩
    · rintro ⟨_ | k, m, hm, h⟩
      · cases hm
        exact .inl h
      · exact .inr ⟨k, m, hm, by rwa [Nat.add_assoc, Nat.add_comm 1]⟩

theorem mem_waysSlots : w ∈ waysSlots above place slots c ↔
    ∃ k name ns, slots[k]? = some (name, ns) ∧
      w ∈ waysList above (.slot (place + k) name) 0 ns c := by
  induction slots generalizing place with
  | nil => simp [waysSlots]
  | cons s r ih =>
    obtain ⟨name, ns⟩ := s
    rw [waysSlots, List.mem_append, ih]
    constructor
    · rintro (h | ⟨k, name', ns', hs, h⟩)
      · exact ⟨0, name, ns, rfl, h⟩
      · exact ⟨k + 1, name', ns', hs, by rwa [Nat.add_comm k, ← Nat.add_assoc]⟩
    · rintro ⟨_ | k, name', ns', hs, h⟩
      · cases hs
        exact .inl h
      · exact .inr ⟨k, name', ns', hs, by rwa [Nat.add_assoc, Nat.add_comm 1]⟩

/-- The ways to a node and below are those that start with an iteration of it. -/
theorem mem_ways : w ∈ n.ways above side index c ↔
    ∃ v : Visit, v.Starts side index n c ∧ Way.Reaches (v :: above) w := by
  induction n using Node.induction generalizing above side index c with
  | step n children slots =>
    rw [ways_eq, List.mem_flatMap]
    constructor
    · rintro ⟨t, ht, h⟩
      refine ⟨⟨side, index, n, t.1, c, t.2⟩, ⟨rfl, rfl, rfl, rfl, ht⟩, Way.reaches_iff.mpr ?_⟩
      rcases List.mem_cons.mp h with h | h
      · exact .inl h
      rcases List.mem_append.mp h with h | h
      · obtain ⟨k, m, hm, h⟩ := mem_waysList.mp h
        obtain ⟨u, ⟨hside, hindex, rfl, hc, hu⟩, hr⟩ :=
          (children m (List.mem_of_getElem? hm)).mp h
        rw [Nat.zero_add] at hindex
        exact .inr ⟨u, .inl ⟨hside, hindex ▸ hm⟩, hc, hu, hr⟩
      · obtain ⟨place, name, ns, hs, h⟩ := mem_waysSlots.mp h
        obtain ⟨k, m, hm, h⟩ := mem_waysList.mp h
        obtain ⟨u, ⟨hside, hindex, rfl, hc, hu⟩, hr⟩ :=
          (slots _ (List.mem_of_getElem? hs) m (List.mem_of_getElem? hm)).mp h
        rw [Nat.zero_add] at hside hindex
        exact .inr ⟨u, .inr ⟨place, name, ns, hside, hs, hindex ▸ hm⟩, hc, hu, hr⟩
    · rintro ⟨⟨_, _, _, turn, _, inner⟩, ⟨rfl, rfl, rfl, rfl, ht⟩, h⟩
      refine ⟨(turn, inner), ht, List.mem_cons.mpr ?_⟩
      rcases Way.reaches_iff.mp h with h | ⟨u, hb, hc, hu, h⟩
      · exact .inl h
      rcases hb with ⟨hside, hm⟩ | ⟨place, name, ns, hside, hs, hm⟩
      · refine .inr (List.mem_append.mpr (.inl (mem_waysList.mpr ⟨u.index, u.node, hm, ?_⟩)))
        exact (children _ (List.mem_of_getElem? hm)).mpr
          ⟨u, ⟨hside, (Nat.zero_add _).symm, rfl, hc, hu⟩, h⟩
      · refine .inr (List.mem_append.mpr (.inr (mem_waysSlots.mpr ⟨place, name, ns, hs, ?_⟩)))
        refine mem_waysList.mpr ⟨u.index, u.node, hm, ?_⟩
        refine (slots _ (List.mem_of_getElem? hs) _ (List.mem_of_getElem? hm)).mpr ⟨u, ?_, h⟩
        exact ⟨by rw [hside, Nat.zero_add], (Nat.zero_add _).symm, rfl, hc, hu⟩

/-! ## The order of ways -/

/-- A way to a node or below goes through it. -/
theorem under_of_mem_ways (h : w ∈ n.ways above side index c) :
    DepthFirst.Under (fun v ↦ v.side = side ∧ v.index = index) above w := by
  obtain ⟨v, ⟨hside, hindex, -⟩, h⟩ := mem_ways.mp h
  refine (Way.under_of_reaches h).imp ?_
  rintro _ rfl
  exact ⟨hside, hindex⟩

theorem under_of_mem_waysList (h : w ∈ waysList above side index ns c) :
    DepthFirst.Under (fun v ↦ v.side = side ∧ index ≤ v.index) above w := by
  obtain ⟨k, m, -, h⟩ := mem_waysList.mp h
  refine (under_of_mem_ways h).imp ?_
  rintro v ⟨hside, hindex⟩
  exact ⟨hside, by omega⟩

theorem under_of_mem_waysSlots (h : w ∈ waysSlots above place slots c) :
    DepthFirst.Under (fun v ↦ place < v.side.rank) above w := by
  obtain ⟨k, name, ns, -, h⟩ := mem_waysSlots.mp h
  refine (under_of_mem_waysList h).imp ?_
  rintro v ⟨hside, -⟩
  rw [hside, Side.rank]
  omega

/-- All that starts with an iteration goes on below it. -/
theorem under_of_mem_waysOf {t : Option Nat × Context} (h : w ∈ n.waysOf above side index c t) :
    DepthFirst.Under (· = ⟨side, index, n, t.1, c, t.2⟩) above w := by
  rcases List.mem_cons.mp h with rfl | h
  · exact DepthFirst.under_self rfl
  · rcases List.mem_append.mp h with h | h
    · exact DepthFirst.under_of_under rfl (under_of_mem_waysList h)
    · exact DepthFirst.under_of_under rfl (under_of_mem_waysSlots h)

/-- Iterations come in the order of their indices. -/
theorem turns_pairwise (n : Node) (c : Context) :
    (n.turns c).Pairwise fun t t' ↦ t.1 < t'.1 := by
  unfold turns
  split
  · exact List.pairwise_singleton _ _
  · next l _ =>
    have h : (List.range' 0 (l.items c).length).Pairwise (· < ·) := List.pairwise_lt_range' _
    rw [← List.zipIdx_map_snd, List.pairwise_map] at h
    exact List.pairwise_map.mpr (h.imp fun hi ↦ Option.some_lt_some.mpr hi)

theorem waysList_pairwise
    (h : ∀ m ∈ ns, ∀ index, (m.ways above side index c).Pairwise (DepthFirst Visit.Precedes)) :
    (waysList above side index ns c).Pairwise (DepthFirst Visit.Precedes) := by
  induction ns generalizing index with
  | nil => exact .nil
  | cons n r ih =>
    rw [waysList, List.pairwise_append]
    refine ⟨h n List.mem_cons_self _, ih fun m hm ↦ h m (List.mem_cons_of_mem _ hm), ?_⟩
    intro w hw w' hw'
    refine DepthFirst.of_under_of_under ?_ (under_of_mem_ways hw) (under_of_mem_waysList hw')
    rintro v v' ⟨rfl, rfl⟩ ⟨hside, hindex⟩
    exact .inr ⟨by rw [hside], .inl hindex⟩

theorem waysSlots_pairwise
    (h : ∀ s ∈ slots, ∀ m ∈ s.2, ∀ side index,
      (m.ways above side index c).Pairwise (DepthFirst Visit.Precedes)) :
    (waysSlots above place slots c).Pairwise (DepthFirst Visit.Precedes) := by
  induction slots generalizing place with
  | nil => exact .nil
  | cons s r ih =>
    obtain ⟨name, ns⟩ := s
    rw [waysSlots, List.pairwise_append]
    refine ⟨waysList_pairwise fun m hm ↦ h _ List.mem_cons_self m hm _,
      ih fun s hs ↦ h s (List.mem_cons_of_mem _ hs), ?_⟩
    intro w hw w' hw'
    refine DepthFirst.of_under_of_under ?_ (under_of_mem_waysList hw) (under_of_mem_waysSlots hw')
    rintro v v' ⟨hside, -⟩ hplace
    refine .inl ?_
    rw [hside]
    exact hplace

/-- The ways to a node and to all below it are in depth-first order. -/
theorem ways_pairwise : (n.ways above side index c).Pairwise (DepthFirst Visit.Precedes) := by
  induction n using Node.induction generalizing above side index c with
  | step n children slots =>
    rw [ways_eq, List.pairwise_flatMap]
    constructor
    · intro t _
      refine List.pairwise_cons.mpr ⟨fun w hw ↦ ?_, List.pairwise_append.mpr ⟨?_, ?_, ?_⟩⟩
      · rcases List.mem_append.mp hw with hw | hw
        · exact DepthFirst.of_under (under_of_mem_waysList hw)
        · exact DepthFirst.of_under (under_of_mem_waysSlots hw)
      · exact waysList_pairwise fun m hm _ ↦ children m hm
      · exact waysSlots_pairwise fun s hs m hm _ _ ↦ slots s hs m hm
      · intro w hw w' hw'
        refine DepthFirst.of_under_of_under ?_ (under_of_mem_waysList hw)
          (under_of_mem_waysSlots hw')
        rintro v v' ⟨hside, -⟩ hplace
        refine .inl ?_
        rw [hside]
        exact hplace
    · refine (n.turns_pairwise c).imp fun {t t'} ht w hw w' hw' ↦ ?_
      refine DepthFirst.of_under_of_under ?_ (under_of_mem_waysOf hw) (under_of_mem_waysOf hw')
      rintro _ _ rfl rfl
      exact .inr ⟨rfl, .inr ⟨rfl, ht⟩⟩

end Node

/-! ## The ways of a page -/

namespace Visit

variable {u v v' : Visit}

/-- Steps to the same place lead to the same node. -/
theorem node_eq_of_below (h : v.Below u) (h' : v'.Below u) (hside : v.side = v'.side)
    (hindex : v.index = v'.index) : v.node = v'.node := by
  rcases h with ⟨hs, hn⟩ | ⟨place, name, ns, hs, hslot, hn⟩ <;>
    rcases h' with ⟨hs', hn'⟩ | ⟨place', name', ns', hs', hslot', hn'⟩ <;>
    rw [← hside, hs] at hs'
  · rw [← hindex, hn] at hn'
    exact Option.some.inj hn'
  · cases hs'
  · cases hs'
  · cases hs'
    rw [hslot] at hslot'
    cases hslot'
    rw [← hindex, hn] at hn'
    exact Option.some.inj hn'

/-- A node has iterations just where it is repeated. -/
theorem isSome_turn (h : v.IsTurn) : v.turn.isSome = v.node.loop.isSome := by
  unfold IsTurn Node.turns at h
  split at h
  · next hl =>
    obtain ⟨ht, -⟩ := Prod.mk.inj (List.mem_singleton.mp h)
    rw [ht, hl]
    rfl
  · next l hl =>
    obtain ⟨_, -, h⟩ := List.mem_map.mp h
    obtain ⟨ht, -⟩ := Prod.mk.inj h
    rw [← ht, hl]
    rfl

end Visit

namespace Page

variable {p : Page} {c : Context} {v v' : Visit} {w : Way}

/-- All ways of a page are listed, and no others. -/
theorem mem_ways : w ∈ p.ways c ↔ p.IsWay c w := by
  rw [ways, Node.mem_waysList]
  constructor
  · rintro ⟨k, n, hn, h⟩
    obtain ⟨hroot, rfl⟩ : p.root = some n ∧ k = 0 := by
      cases hp : p.root <;> simp_all [List.getElem?_singleton]
    obtain ⟨v, hv, hr⟩ := Node.mem_ways.mp h
    exact ⟨n, v, hroot, hv, hr⟩
  · rintro ⟨n, v, hroot, hv, h⟩
    exact ⟨0, n, by rw [hroot]; rfl, Node.mem_ways.mpr ⟨v, hv, h⟩⟩

/-- The ways of a page are in depth-first order. -/
theorem ways_pairwise (p : Page) (c : Context) :
    (p.ways c).Pairwise (DepthFirst Visit.Precedes) :=
  Node.waysList_pairwise fun _ _ _ ↦ Node.ways_pairwise

/-- A way starts at the root, or goes on from the place above. -/
theorem isWay_cons : p.IsWay c (v :: w) ↔
    (w = [] ∧ ∃ n, p.root = some n ∧ v.Starts .root 0 n c) ∨
      (p.IsWay c w ∧ ∃ u above, w = u :: above ∧ v.Below u ∧ v.outer = u.inner ∧ v.IsTurn) := by
  constructor
  · rintro ⟨n, r, hn, hr, h⟩
    rcases h.cases_tail with he | ⟨w', h', hs⟩
    · cases he
      exact .inl ⟨rfl, n, hn, hr⟩
    · cases hs with
      | intro node outer turn => exact .inr ⟨⟨n, r, hn, hr, h'⟩, _, _, rfl, node, outer, turn⟩
  · rintro (⟨rfl, n, hn, hv⟩ | ⟨⟨n, r, hn, hr, h⟩, u, above, rfl, node, outer, turn⟩)
    · exact ⟨n, v, hn, hv, .refl⟩
    · exact ⟨n, r, hn, hr, h.tail (.intro node outer turn)⟩

theorem isWay_of_append {below : Way} (h : p.IsWay c (below ++ v :: w)) : p.IsWay c (v :: w) := by
  induction below with
  | nil => exact h
  | cons u below ih =>
    rcases isWay_cons.mp h with ⟨he, -⟩ | ⟨h, -⟩
    · simp at he
    · exact ih h

theorem isTurn_of_isWay (h : p.IsWay c (v :: w)) : v.IsTurn := by
  rcases isWay_cons.mp h with ⟨-, n, -, hv⟩ | ⟨-, u, above, -, -, -, turn⟩
  · exact hv.2.2.2.2
  · exact turn

/-- Two ways that part at one place of the page part with the iteration of one node. -/
theorem node_eq_of_isWay (h : p.IsWay c (v :: w)) (h' : p.IsWay c (v' :: w))
    (hside : v.side = v'.side) (hindex : v.index = v'.index) : v.node = v'.node := by
  rcases isWay_cons.mp h with ⟨rfl, n, hn, -, -, rfl, -⟩ | ⟨-, u, above, rfl, node, -⟩
  · rcases isWay_cons.mp h' with ⟨-, n', hn', -, -, rfl, -⟩ | ⟨-, u, above, he, -⟩
    · rw [hn] at hn'
      exact Option.some.inj hn'
    · cases he
  · rcases isWay_cons.mp h' with ⟨he, -⟩ | ⟨-, u', above', he, node', -⟩
    · cases he
    · cases he
      exact Visit.node_eq_of_below node node' hside hindex

/-- A node of a page and the iterations of the nodes on its way that are repeated tell one way. -/
theorem ways_nodup (p : Page) (c : Context) :
    ((p.ways c).map fun w ↦ (w.address, w.indices)).Nodup := by
  refine List.pairwise_map.mpr ((p.ways_pairwise c).imp_of_mem fun {w w'} hw hw' h he ↦ ?_)
  obtain ⟨haddress, hindices⟩ := Prod.mk.inj he
  have hlen := congrArg List.length haddress
  simp only [Way.address, List.length_map] at hlen
  rcases h with ⟨hsuffix, hne⟩ | ⟨above, v, v', below, below', hv, rfl, rfl⟩
  · exact hne (hsuffix.eq_of_length hlen)
  -- both ways go on below one place, as far as each other, and there through the same node
  have hw := isWay_of_append (mem_ways.mp hw)
  have hw' := isWay_of_append (mem_ways.mp hw')
  simp only [List.length_append, List.length_cons, Nat.add_right_cancel_iff] at hlen
  simp only [Way.address, List.map_append, List.map_cons] at haddress
  obtain ⟨-, haddress⟩ := List.append_inj haddress (by simpa using hlen)
  obtain ⟨hside, hindex⟩ := Prod.mk.inj (List.cons.inj haddress).1
  have hnode := node_eq_of_isWay hw hw' hside hindex
  rcases hv with hv | ⟨-, hv | ⟨-, hv⟩⟩
  · rw [hside] at hv
    exact Nat.lt_irrefl _ hv
  · rw [hindex] at hv
    exact Nat.lt_irrefl _ hv
  have hi := Visit.isSome_turn (isTurn_of_isWay hw)
  have hj := Visit.isSome_turn (isTurn_of_isWay hw')
  rw [hnode, ← hj] at hi
  cases hvj : v'.turn with
  | none => simp [hvj] at hv
  | some j =>
    cases hvi : v.turn with
    | none => simp [hvi, hvj] at hi
    | some i =>
      rw [hvi, hvj, Option.some_lt_some] at hv
      simp only [Way.indices, List.filterMap_append, List.filterMap_cons, hvi, hvj] at hindices
      obtain ⟨-, he⟩ := List.append_inj' hindices rfl
      exact absurd (List.cons.inj he).1 (Nat.ne_of_lt hv)

end Page

end LivePage
