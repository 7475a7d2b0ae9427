import Mathlib.Data.List.Lex
import LivePage.Proofs.Page.Analysis
import LivePage.Proofs.Page.Place

/-!
# Traversals of pages

All that goes through a page does so depth first, children before slots: the walk, the search for a
node, the search for the way to a node, and the analysis.  Depth first is the order of the places in
which a place comes before those below it, and else the first step that differs decides.  So each
of these is told by one listing of the places in this order.
-/

namespace LivePage

/-- The order of the steps down from one node. -/
inductive Step.Precedes : Step → Step → Prop where
  | child {i j : Nat} (h : i < j) : Precedes (.child i) (.child j)
  | into (i k j : Nat) : Precedes (.child i) (.slot k j)
  | slot {k l : Nat} (h : k < l) (i j : Nat) : Precedes (.slot k i) (.slot l j)
  | within (k : Nat) {i j : Nat} (h : i < j) : Precedes (.slot k i) (.slot k j)

theorem Step.sorted_number {f : Nat → Step} (hf : ∀ {i j}, i < j → (f i).Precedes (f j))
    (ns : List Node) : ((number f ns).map Prod.fst).Pairwise Precedes := by
  have hmap : (number f ns).map Prod.fst = (List.range' 0 ns.length).map f := by
    rw [number, List.map_map, ← List.zipIdx_map_snd 0 ns, List.map_map]
    rfl
  rw [hmap]
  exact List.pairwise_map.mpr ((List.pairwise_lt_range').imp hf)

namespace Node

variable {n m : Node} {id : String} {place : List Step} {s : Step}

theorem sorted_steps (n : Node) : (n.steps.map Prod.fst).Pairwise Step.Precedes := by
  rw [steps, List.map_append, List.map_flatMap]
  refine List.pairwise_append.mpr ⟨Step.sorted_number .child _, ?_, ?_⟩
  · refine List.pairwise_flatMap.mpr ⟨fun _ _ ↦ Step.sorted_number (.within _) _, ?_⟩
    have positions : (n.slots.zipIdx.map Prod.snd).Pairwise (· < ·) := by
      rw [List.zipIdx_map_snd]
      exact List.pairwise_lt_range'
    refine (List.pairwise_map.mp positions).imp fun {a b} hab s hs t ht ↦ ?_
    obtain ⟨i, rfl⟩ := Step.exists_of_mem_number hs
    obtain ⟨j, rfl⟩ := Step.exists_of_mem_number ht
    exact .slot hab i j
  · intro s hs t ht
    obtain ⟨i, rfl⟩ := Step.exists_of_mem_number hs
    obtain ⟨named, -, ht⟩ := List.mem_flatMap.mp ht
    obtain ⟨j, rfl⟩ := Step.exists_of_mem_number ht
    exact .into i named.2 j

theorem mem_under_of_mem_steps {x : Step × Node} (h : x ∈ n.steps) : x.2 ∈ n.under :=
  n.map_snd_steps ▸ List.mem_map_of_mem h

theorem sizeOf_lt_of_mem_under (h : m ∈ n.under) : sizeOf m < sizeOf n := by
  rcases List.mem_append.mp h with h | h
  · exact (List.sizeOf_lt_of_mem h).trans n.sizeOf_children_lt
  · obtain ⟨s, hs, h⟩ := List.mem_flatMap.mp h
    have hslot : sizeOf s.2 < sizeOf s := by
      cases s
      simp only [Prod.mk.sizeOf_spec]
      omega
    exact (List.sizeOf_lt_of_mem h).trans
      (hslot.trans ((List.sizeOf_lt_of_mem hs).trans n.sizeOf_slots_lt))

/-- The places of a tree in depth-first order, with the nodes there. -/
def visits (n : Node) : List (List Step × Node) :=
  ([], n) :: n.steps.attach.flatMap fun x ↦ x.1.2.visits.map fun y ↦ (x.1.1 :: y.1, y.2)
termination_by sizeOf n
decreasing_by exact sizeOf_lt_of_mem_under (mem_under_of_mem_steps x.2)

theorem visits_eq (n : Node) : n.visits =
    ([], n) :: n.steps.flatMap fun x ↦ x.2.visits.map fun y ↦ (x.1 :: y.1, y.2) := by
  rw [visits]
  simp only [List.flatMap_subtype, List.unattach_attach]

/-! ## The walk -/

theorem lists_visits (n : Node) : n.Lists n.visits := by
  induction n using under_induction with
  | step n ih => exact visits_eq n ▸ .of_steps ih

/-- Places are visited depth first. -/
theorem sorted_visits (n : Node) :
    (n.visits.map Prod.fst).Pairwise (List.Lex Step.Precedes) := by
  induction n using under_induction with
  | step n ih =>
    have below {x : Step × Node} {place : List Step}
        (h : place ∈ (x.2.visits.map fun y ↦ (x.1 :: y.1, y.2)).map Prod.fst) :
        ∃ r, place = x.1 :: r := by
      rw [List.map_map] at h
      obtain ⟨y, -, rfl⟩ := List.mem_map.mp h
      exact ⟨y.1, rfl⟩
    rw [visits_eq, List.map_cons, List.map_flatMap, List.pairwise_cons, List.pairwise_flatMap]
    refine ⟨fun place hp ↦ ?_, fun x hx ↦ ?_, ?_⟩
    · obtain ⟨x, -, hp⟩ := List.mem_flatMap.mp hp
      obtain ⟨r, rfl⟩ := below hp
      exact .nil
    · rw [List.map_map, List.pairwise_map]
      exact (List.pairwise_map.mp (ih x.2 (mem_under_of_mem_steps hx))).imp .cons
    · refine (List.pairwise_map.mp n.sorted_steps).imp fun {x y} hxy p hp q hq ↦ ?_
      obtain ⟨r, rfl⟩ := below hp
      obtain ⟨r', rfl⟩ := below hq
      exact .rel hxy

theorem walk_eq_visits (n : Node) (depth : Nat) :
    n.walk depth = n.visits.map fun x ↦ (x.2, depth + x.1.length) := by
  induction n using under_induction generalizing depth with
  | step n ih =>
    rw [walk_eq, visits_eq, List.map_cons, List.map_flatMap, ← map_snd_steps, List.flatMap_map]
    congr 1
    refine List.flatMap_congr fun x hx ↦ ?_
    rw [ih x.2 (mem_under_of_mem_steps hx), List.map_map]
    refine List.map_congr_left fun y _ ↦ ?_
    simp [Nat.add_assoc, Nat.add_comm 1]

/-! ## The search for the way to a node -/

/-- The ids of the nodes on the way down to a place. -/
def way (n : Node) : List Step → List String
  | [] => [n.id]
  | s :: place => n.id :: ((n.step? s).map (·.way place)).getD []

/-- On the way there is the id of one node for each initial part of the place. -/
theorem map_some_way (h : n.at? place = some m) :
    (n.way place).map some = place.inits.map fun q ↦ (n.at? q).map (·.id) := by
  induction place generalizing n with
  | nil => rfl
  | cons s place ih =>
    obtain ⟨k, hk, h⟩ := Option.bind_eq_some_iff.mp h
    have hat (q : List Step) : n.at? (s :: q) = k.at? q := by rw [at?, hk, Option.bind_some]
    rw [way, hk, Option.map_some, Option.getD_some, List.map_cons, ih h, List.inits_cons,
      List.map_cons, List.map_map]
    simp only [Function.comp_def, hat]
    rfl

theorem length_way (h : n.at? place = some m) : (n.way place).length = place.length + 1 := by
  have hlength := congrArg List.length (map_some_way h)
  simpa using hlength

/-- The first place of a node of an id, with the node there. -/
def first? (id : String) (n : Node) : Option (List Step × Node) :=
  n.visits.find? (·.2.id = id)

theorem first?_eq (id : String) (n : Node) : n.first? id =
    if n.id = id then some ([], n) else
      n.steps.findSome? fun x ↦ (x.2.first? id).map fun y ↦ (x.1 :: y.1, y.2) := by
  rw [first?, visits_eq, List.find?_cons]
  split
  · next h => rw [if_pos (of_decide_eq_true h)]
  · next h =>
    rw [if_neg (of_decide_eq_false h), List.find?_flatMap]
    refine congrArg (List.findSome? · n.steps) (funext fun x ↦ ?_)
    rw [List.find?_map]
    rfl

theorem searchList_append (id : String) (xs ys : List Node) (trail : List String) :
    searchList id (xs ++ ys) trail =
      if (searchList id xs trail).1 then searchList id xs trail
      else searchList id ys (searchList id xs trail).2 := by
  induction xs generalizing trail with
  | nil => rfl
  | cons n xs ih =>
    rw [List.cons_append, searchList, searchList]
    rcases n.search id trail with ⟨_ | _, left⟩
    · exact ih left
    · rfl

theorem searchSlots_eq (id : String) (slots : List (String × List Node)) (trail : List String) :
    searchSlots id slots trail = searchList id (slots.flatMap Prod.snd) trail := by
  induction slots generalizing trail with
  | nil => rfl
  | cons s r ih =>
    rw [searchSlots, List.flatMap_cons, searchList_append]
    rcases searchList id s.2 trail with ⟨_ | _, left⟩
    · exact ih left
    · rfl

theorem search_eq (n : Node) (id : String) (trail : List String) :
    n.search id trail =
      if n.id = id then (true, trail ++ [n.id])
      else if (searchList id n.under (trail ++ [n.id])).1 then
        searchList id n.under (trail ++ [n.id])
      else (false, (searchList id n.under (trail ++ [n.id])).2.dropLast) := by
  obtain ⟨own, type, props, style, layout, bindings, events, condition, loop, children, slots,
    info⟩ := n
  simp only [search, under, searchList_append, searchSlots_eq]
  rcases searchList id children (trail ++ [own]) with ⟨_ | _, left⟩
  · rcases searchList id (slots.flatMap Prod.snd) left with ⟨_ | _, left⟩
    all_goals rfl
  · rfl

/-- What a search leaves of its trail is decided by the first place of a node of the id: the way to
it is added where there is one, and else the trail is as before. -/
def Finds (id : String) (n : Node) : Prop := ∀ trail, n.search id trail =
  ((n.first? id).map fun x ↦ (true, trail ++ n.way x.1)).getD (false, trail)

/-- A search below a node goes through the steps down from it. -/
theorem searchList_eq_way {xs : List (Step × Node)} (hstep : ∀ x ∈ xs, n.step? x.1 = some x.2)
    (h : ∀ x ∈ xs, x.2.Finds id) (trail : List String) :
    searchList id (xs.map Prod.snd) (trail ++ [n.id]) =
      ((xs.findSome? fun x ↦ (x.2.first? id).map fun y ↦ (x.1 :: y.1, y.2)).map
        fun x ↦ (true, trail ++ n.way x.1)).getD (false, trail ++ [n.id]) := by
  induction xs with
  | nil => rfl
  | cons x xs ih =>
    rw [List.map_cons, searchList, h x List.mem_cons_self, List.findSome?_cons]
    cases x.2.first? id with
    | none =>
      exact ih (fun y hy ↦ hstep y (List.mem_cons_of_mem x hy))
        fun y hy ↦ h y (List.mem_cons_of_mem x hy)
    | some y =>
      have hway : n.way (x.1 :: y.1) = n.id :: x.2.way y.1 := by
        rw [way, hstep x List.mem_cons_self, Option.map_some, Option.getD_some]
      simp [hway]

theorem finds (n : Node) (id : String) : n.Finds id := by
  induction n using under_induction with
  | step n ih =>
    intro trail
    have hbelow : searchList id (n.steps.map Prod.snd) (trail ++ [n.id]) = _ :=
      searchList_eq_way (fun x hx ↦ mem_steps_iff.mp hx)
        (fun x hx ↦ ih x.2 (mem_under_of_mem_steps hx)) trail
    rw [search_eq, first?_eq, ← map_snd_steps, hbelow]
    split
    · rfl
    · cases n.steps.findSome? fun x ↦ (x.2.first? id).map fun y ↦ (x.1 :: y.1, y.2) with
      | none => simp
      | some x => rfl

end Node

namespace Page

variable {p : Page} {id : String} {place : List Step} {n : Node}

/-- The places of a page in depth-first order, with the nodes there. -/
def visits (p : Page) : List (List Step × Node) := (p.root.map (·.visits)).getD []

theorem sorted_visits (p : Page) : (p.visits.map Prod.fst).Pairwise (List.Lex Step.Precedes) := by
  obtain ⟨_, _, _, _ | root, _⟩ := p
  · exact .nil
  · exact root.sorted_visits

theorem mem_visits_iff : (place, n) ∈ p.visits ↔ p.at? place = some n := by
  obtain ⟨_, _, _, _ | root, _⟩ := p
  · simp [visits, at?]
  · exact root.lists_visits.mem_iff place n

theorem walk_eq_visits (p : Page) : p.walk = p.visits.map fun x ↦ (x.2, x.1.length) := by
  obtain ⟨_, _, _, _ | root, _⟩ := p
  · rfl
  · have hwalk := root.walk_eq_visits 0
    simp only [Nat.zero_add] at hwalk
    exact hwalk

theorem nodes_eq_visits (p : Page) : p.nodes = p.visits.map Prod.snd := by
  rw [nodes, walk_eq_visits, List.map_map]
  rfl

theorem find?_eq_visits (p : Page) (id : String) :
    p.find? id = (p.visits.find? (·.2.id = id)).map Prod.snd := by
  rw [find?_eq_nodes, nodes_eq_visits, List.find?_map]
  rfl

theorem trail?_of_none (h : p.visits.find? (·.2.id = id) = none) : p.trail? id = none := by
  obtain ⟨_, _, _, _ | root, _⟩ := p
  · rfl
  · have hfirst : root.first? id = none := h
    simp [trail?, root.finds id [], hfirst]

/-- The way to the first node of an id has its end there. -/
theorem trail?_of_some (h : p.visits.find? (·.2.id = id) = some (place, n)) :
    ∃ ids, p.trail? id = some ids ∧ ids.length = place.length + 1 ∧
      ids.map some = place.inits.map fun q ↦ (p.at? q).map (·.id) := by
  have hat : p.at? place = some n := mem_visits_iff.mp (List.mem_of_find?_eq_some h)
  obtain ⟨_, _, _, _ | root, _⟩ := p
  · cases hat
  · have hfirst : root.first? id = some (place, n) := h
    refine ⟨root.way place, ?_, Node.length_way hat, Node.map_some_way hat⟩
    simp [trail?, root.finds id [], hfirst]

/-- All that goes through a page tells of one listing: that of its places, each once with the node
there, in depth-first order.  The walk lists the nodes with the lengths of their places as depths;
what is found for an id is the first node of this id in the listing, or nothing where there is none;
the way to it has the ids of the nodes from the root down to that very place; and the analysis tells
of all nodes in the order of the walk. -/
theorem traversals_agree (p : Page) :
    ∃ ps : List (List Step × Node),
      ((ps.map Prod.fst).Pairwise (List.Lex Step.Precedes) ∧
        ∀ place n, (place, n) ∈ ps ↔ p.at? place = some n) ∧
      p.walk = ps.map (fun x ↦ (x.2, x.1.length)) ∧
      p.nodes = ps.map Prod.snd ∧
      (∀ id, p.find? id = p.nodes.find? (·.id = id)) ∧
      (∀ id,
        match ps.find? (·.2.id = id) with
        | none => p.find? id = none ∧ p.trail? id = none
        | some (place, n) => p.find? id = some n ∧ ∃ ids, p.trail? id = some ids ∧
          ids.length = place.length + 1 ∧
          ids.map some = place.inits.map fun q ↦ (p.at? q).map (·.id)) ∧
      p.analysis.Tells p.walk := by
  refine ⟨p.visits, ⟨p.sorted_visits, fun _ _ ↦ mem_visits_iff⟩, p.walk_eq_visits,
    p.nodes_eq_visits, p.find?_eq_nodes, fun id ↦ ?_, p.tells_analysis⟩
  split
  · next h => exact ⟨by rw [find?_eq_visits, h]; rfl, trail?_of_none h⟩
  · next h => exact ⟨by rw [find?_eq_visits, h]; rfl, trail?_of_some h⟩

end Page

end LivePage
