import Mathlib.Data.List.Nodup
import Mathlib.Data.Set.Card
import LivePage.Page.Tree

/-!
# Places in pages

A place says how a node is come to from the root, one step for each level, so that two nodes that are
alike stand at two places.  Walking through a page comes to each place once, and the first node of an
id is the first that is walked to.
-/

namespace LivePage

/-- A step down from a node, to a child or into one of its slots. -/
inductive Step where
  | child (index : Nat)
  | slot (position index : Nat)
deriving DecidableEq, Repr

namespace Step

variable {f : Nat → Step} {s : Step} {m : Node}

/-- Nodes with the steps to them. -/
def number (f : Nat → Step) (ns : List Node) : List (Step × Node) :=
  ns.zipIdx.map fun x ↦ (f x.2, x.1)

theorem mem_number_iff {ns : List Node} : (s, m) ∈ number f ns ↔ ∃ i, ns[i]? = some m ∧ f i = s := by
  simp [number, List.mem_zipIdx_iff_getElem?]

theorem map_snd_number (f : Nat → Step) (ns : List Node) : (number f ns).map Prod.snd = ns := by
  rw [number, List.map_map]
  exact List.zipIdx_map_fst 0 ns

theorem nodup_number (hf : Function.Injective f) (ns : List Node) :
    ((number f ns).map Prod.fst).Nodup := by
  have : (number f ns).map Prod.fst = (ns.zipIdx.map Prod.snd).map f := by
    rw [number, List.map_map, List.map_map]
    rfl
  rw [this, List.zipIdx_map_snd]
  exact List.Nodup.map hf List.nodup_range'

theorem exists_of_mem_number {ns : List Node} (h : s ∈ (number f ns).map Prod.fst) :
    ∃ i, f i = s := by
  obtain ⟨x, hx, rfl⟩ := List.mem_map.mp h
  obtain ⟨i, -, hi⟩ := mem_number_iff.mp hx
  exact ⟨i, hi⟩

end Step

namespace Node

variable {n m : Node} {s : Step}

def step? (n : Node) : Step → Option Node
  | .child i => n.children[i]?
  | .slot k i => n.slots[k]?.bind fun named ↦ named.2[i]?

/-- The node at a place of a tree. -/
def at? (n : Node) : List Step → Option Node
  | [] => some n
  | s :: place => (n.step? s).bind (·.at? place)

/-- The nodes right below a node. -/
def under (n : Node) : List Node := n.children ++ n.slots.flatMap Prod.snd

/-- The nodes right below a node, with the steps to them. -/
def steps (n : Node) : List (Step × Node) :=
  Step.number .child n.children ++
    n.slots.zipIdx.flatMap fun named ↦ Step.number (.slot named.2) named.1.2

/-- What holds of a node as soon as it holds of all right below it holds of every node. -/
@[elab_as_elim]
theorem under_induction {motive : Node → Prop}
    (step : ∀ n : Node, (∀ m ∈ n.under, motive m) → motive n) (n : Node) : motive n := by
  induction n using Node.induction with
  | step n children slots =>
    refine step n fun m hm ↦ ?_
    rcases List.mem_append.mp hm with hm | hm
    · exact children m hm
    · obtain ⟨named, hn, hm⟩ := List.mem_flatMap.mp hm
      exact slots named hn m hm

theorem mem_steps_iff : (s, m) ∈ n.steps ↔ n.step? s = some m := by
  cases s with
  | child i => simp [steps, step?, Step.mem_number_iff]
  | slot k i =>
    simp [steps, step?, Step.mem_number_iff, List.mem_zipIdx_iff_getElem?, Option.bind_eq_some_iff]

theorem map_snd_steps (n : Node) : n.steps.map Prod.snd = n.under := by
  have slots : (n.slots.zipIdx.flatMap fun x ↦ x.1.2) = n.slots.flatMap Prod.snd := by
    rw [← List.flatMap_map, List.zipIdx_map_fst]
  simp only [steps, under, List.map_append, List.map_flatMap, Step.map_snd_number, slots]

theorem nodup_steps (n : Node) : (n.steps.map Prod.fst).Nodup := by
  rw [steps, List.map_append, List.map_flatMap, List.nodup_append, List.nodup_flatMap]
  refine ⟨Step.nodup_number (fun _ _ ↦ Step.child.inj) _, ⟨fun named _ ↦
    Step.nodup_number (fun _ _ h ↦ (Step.slot.inj h).2) _, ?_⟩, ?_⟩
  · have positions : (n.slots.zipIdx.map Prod.snd).Nodup := by
      rw [List.zipIdx_map_snd]
      exact List.nodup_range'
    refine (List.pairwise_map.mp positions).imp fun {a b} hab s ha hb ↦ ?_
    obtain ⟨i, rfl⟩ := Step.exists_of_mem_number ha
    obtain ⟨j, hj⟩ := Step.exists_of_mem_number hb
    exact hab (Step.slot.inj hj).1.symm
  · rintro s hs t ht rfl
    obtain ⟨i, rfl⟩ := Step.exists_of_mem_number hs
    obtain ⟨named, -, ht⟩ := List.mem_flatMap.mp ht
    obtain ⟨j, hj⟩ := Step.exists_of_mem_number ht
    cases hj

/-- A listing of a tree names each of its places once, with the node there. -/
structure Lists (n : Node) (ps : List (List Step × Node)) : Prop where
  nodup : (ps.map Prod.fst).Nodup
  mem_iff : ∀ place m, (place, m) ∈ ps ↔ n.at? place = some m

/-- The places below a node are those of the nodes right below it. -/
theorem Lists.of_steps {f : Node → List (List Step × Node)} (h : ∀ m ∈ n.under, m.Lists (f m)) :
    n.Lists (([], n) :: n.steps.flatMap fun x ↦ (f x.2).map fun y ↦ (x.1 :: y.1, y.2)) where
  nodup := by
    rw [List.map_cons, List.map_flatMap, List.nodup_cons, List.nodup_flatMap]
    refine ⟨by simp, fun x hx ↦ ?_, ?_⟩
    · have := (h x.2 (n.map_snd_steps ▸ List.mem_map_of_mem hx)).nodup
      have := List.Nodup.map (List.cons_injective (a := x.1)) this
      rwa [List.map_map] at this ⊢
    · refine (List.pairwise_map.mp n.nodup_steps).imp fun {x y} hxy place hx hy ↦ hxy ?_
      simp only [List.map_map, List.mem_map, Function.comp_apply] at hx hy
      obtain ⟨a, -, rfl⟩ := hx
      obtain ⟨b, -, hb⟩ := hy
      exact (List.cons.inj hb).1.symm
  mem_iff
    | [], m => by simp [at?, eq_comm]
    | s :: place, m => by
      have mem {k : Node} (hk : (s, k) ∈ n.steps) : k ∈ n.under :=
        n.map_snd_steps ▸ List.mem_map_of_mem hk
      simp only [at?, Option.bind_eq_some_iff, List.mem_cons, List.mem_flatMap, List.mem_map,
        Prod.mk.injEq, reduceCtorEq, false_and, false_or, Prod.exists, List.cons.injEq]
      constructor
      · rintro ⟨s, k, hk, place, m, hm, ⟨rfl, rfl⟩, rfl⟩
        exact ⟨k, mem_steps_iff.mp hk, ((h k (mem hk)).mem_iff place m).mp hm⟩
      · rintro ⟨k, hk, hm⟩
        have hk := mem_steps_iff.mpr hk
        exact ⟨s, k, hk, place, m, ((h k (mem hk)).mem_iff place m).mpr hm, ⟨rfl, rfl⟩, rfl⟩

theorem walkList_eq (depth : Nat) (ns : List Node) :
    walkList depth ns = ns.flatMap (·.walk depth) := by
  induction ns with
  | nil => rfl
  | cons n r ih => rw [walkList, ih, List.flatMap_cons]

theorem walkSlots_eq (depth : Nat) (slots : List (String × List Node)) :
    walkSlots depth slots = (slots.flatMap Prod.snd).flatMap (·.walk depth) := by
  induction slots with
  | nil => rfl
  | cons s r ih =>
    rw [walkSlots, ih, walkList_eq, List.flatMap_cons, List.flatMap_append]

theorem walk_eq (n : Node) (depth : Nat) :
    n.walk depth = (n, depth) :: n.under.flatMap (·.walk (depth + 1)) := by
  cases n
  rw [walk, walkList_eq, walkSlots_eq, ← List.flatMap_append, under]

/-- A walk through a tree lists it. -/
theorem exists_lists (n : Node) (depth : Nat) :
    ∃ ps, n.Lists ps ∧ ps.map Prod.snd = (n.walk depth).map Prod.fst := by
  induction n using under_induction generalizing depth with
  | step n ih =>
    choose! f hf using fun m hm ↦ ih m hm (depth + 1)
    refine ⟨_, .of_steps fun m hm ↦ (hf m hm).1, ?_⟩
    rw [walk_eq, List.map_cons, List.map_cons, List.map_flatMap, List.map_flatMap, ← map_snd_steps,
      List.flatMap_map]
    congr 1
    refine List.flatMap_congr fun x hx ↦ ?_
    rw [← (hf x.2 (n.map_snd_steps ▸ List.mem_map_of_mem hx)).2, List.map_map]
    rfl

theorem findList?_eq (id : String) (ns : List Node) :
    findList? id ns = ns.findSome? (·.find? id) := by
  induction ns with
  | nil => rfl
  | cons n r ih =>
    rw [findList?, ih, List.findSome?_cons]
    cases n.find? id <;> rfl

theorem findSlots?_eq (id : String) (slots : List (String × List Node)) :
    findSlots? id slots = (slots.flatMap Prod.snd).findSome? (·.find? id) := by
  induction slots with
  | nil => rfl
  | cons s r ih =>
    rw [findSlots?, ih, findList?_eq, List.flatMap_cons, List.findSome?_append]

theorem find?_eq (n : Node) (id : String) :
    n.find? id = if n.id = id then some n else n.under.findSome? (·.find? id) := by
  cases n
  rw [find?, findList?_eq, findSlots?_eq, ← List.findSome?_append, under]

/-- The first node of an id is the first that a walk comes to. -/
theorem find?_eq_walk (n : Node) (depth : Nat) (id : String) :
    n.find? id = ((n.walk depth).map Prod.fst).find? (·.id = id) := by
  induction n using under_induction generalizing depth with
  | step n ih =>
    rw [find?_eq, walk_eq, List.map_cons, List.map_flatMap, List.find?_cons]
    split
    · next h => simp [h]
    · next h =>
      simp only [h, decide_false]
      rw [List.find?_flatMap, ← List.head?_filterMap, ← List.head?_filterMap]
      exact congrArg List.head? (List.filterMap_congr fun m hm ↦ ih m hm (depth + 1))

end Node

namespace Page

variable {p : Page} {P : Node → Prop}

/-- The node at a place of a page. -/
def at? (p : Page) (place : List Step) : Option Node := p.root.bind (·.at? place)

/-- The places of a page that have a node of a kind. -/
def places (p : Page) (P : Node → Prop) : Set (List Step) :=
  {place | ∃ n, p.at? place = some n ∧ P n}

theorem exists_lists (p : Page) : ∃ ps : List (List Step × Node), (ps.map Prod.fst).Nodup ∧
    (∀ place n, (place, n) ∈ ps ↔ p.at? place = some n) ∧ ps.map Prod.snd = p.nodes := by
  obtain ⟨id, version, name, _ | root, info⟩ := p
  · exact ⟨[], by simp [at?, nodes, walk]⟩
  · obtain ⟨ps, lists, walked⟩ := root.exists_lists 0
    exact ⟨ps, lists.nodup, lists.mem_iff, walked⟩

theorem mem_nodes_iff {n : Node} : n ∈ p.nodes ↔ ∃ place, p.at? place = some n := by
  obtain ⟨ps, -, mem, walked⟩ := p.exists_lists
  simp [← walked, ← mem]

/-- A kind of nodes has as many places in a page as a walk comes to nodes of this kind. -/
theorem finite_places_and_ncard (p : Page) (P : Node → Prop) [DecidablePred P] :
    (p.places P).Finite ∧ (p.places P).ncard = p.nodes.countP (P ·) := by
  obtain ⟨ps, nodup, mem, walked⟩ := p.exists_lists
  have eq : p.places P = ↑((ps.filter (P ·.2)).map Prod.fst).toFinset := by
    ext place
    simp [places, ← mem]
  have sub : ((ps.filter (P ·.2)).map Prod.fst).Nodup :=
    nodup.sublist (List.filter_sublist.map Prod.fst)
  refine ⟨eq ▸ Finset.finite_toSet _, ?_⟩
  rw [eq, Set.ncard_coe_finset, List.toFinset_card_of_nodup sub, List.length_map, ← walked,
    List.countP_map, List.countP_eq_length_filter]
  rfl

theorem find?_eq_nodes (p : Page) (id : String) : p.find? id = p.nodes.find? (·.id = id) := by
  obtain ⟨_, _, _, _ | root, _⟩ := p
  · rfl
  · exact root.find?_eq_walk 0 id

end Page

end LivePage
