import Mathlib.Data.List.Basic
import Mathlib.Data.List.Induction
import LivePage.Page.Analysis

/-!
# What an analysis tells

An analysis goes through the nodes of a page and adds what it finds at each.  What it says is so
said of the nodes in the order of the walk: its lists are those of the nodes one behind another, and
of types that occur more than once the first occurrence counts.
-/

namespace LivePage

/-- The elements of a list without repetition, in the order in which each occurs first. -/
structure Firsts {α : Type} [BEq α] (xs ys : List α) : Prop where
  mem_iff : ∀ x, x ∈ ys ↔ x ∈ xs
  sorted : ys.Pairwise fun x y ↦ xs.idxOf x < xs.idxOf y

namespace Firsts

variable {α : Type} [BEq α] {xs ys : List α}

theorem nil : Firsts ([] : List α) [] := ⟨fun _ ↦ Iff.rfl, .nil⟩

variable [LawfulBEq α]

/-- Elements occur first where they did before the list went on. -/
theorem sorted_append (h : Firsts xs ys) (zs : List α) :
    ys.Pairwise fun x y ↦ (xs ++ zs).idxOf x < (xs ++ zs).idxOf y := by
  refine h.sorted.imp_of_mem fun {x y} hx hy hlt ↦ ?_
  rwa [List.idxOf_append_of_mem ((h.mem_iff x).mp hx),
    List.idxOf_append_of_mem ((h.mem_iff y).mp hy)]

theorem again (h : Firsts xs ys) {x : α} (hx : x ∈ ys) : Firsts (xs ++ [x]) ys where
  mem_iff y := by
    rw [List.mem_append, List.mem_singleton, h.mem_iff]
    constructor
    · exact .inl
    · rintro (hy | rfl)
      · exact hy
      · exact (h.mem_iff _).mp hx
  sorted := h.sorted_append [x]

theorem snoc (h : Firsts xs ys) {x : α} (hx : x ∉ ys) : Firsts (xs ++ [x]) (ys ++ [x]) where
  mem_iff y := by rw [List.mem_append, List.mem_append, h.mem_iff]
  sorted := by
    refine List.pairwise_append.mpr ⟨h.sorted_append [x], List.pairwise_singleton _ _, ?_⟩
    intro y hy z hz
    obtain rfl := List.mem_singleton.mp hz
    have hmem := (h.mem_iff y).mp hy
    rw [List.idxOf_append_of_mem hmem, List.idxOf_append_of_notMem (hx ∘ (h.mem_iff _).mpr)]
    exact Nat.lt_of_lt_of_le (List.idxOf_lt_length_of_mem hmem) (Nat.le_add_right _ _)

end Firsts

/-- What is said of nodes at their depths: how many they are and how deep the deepest of them is,
their types, and one behind another their bindings and handlers, and which have a condition or are
repeated. -/
structure Analysis.Tells (a : Analysis) (xs : List (Node × Nat)) : Prop where
  total : a.totalNodes = xs.length
  deepest : ∀ x ∈ xs, x.2 ≤ a.maxDepth
  reached : xs = [] ∧ a.maxDepth = 0 ∨ ∃ x ∈ xs, x.2 = a.maxDepth
  components : Firsts (xs.map (·.1.type)) a.components
  bindings : a.bindings = xs.flatMap (·.1.bindings)
  handlers : a.handlers = xs.flatMap (·.1.handlerEntries)
  conditional : a.conditional = (xs.filter (·.1.condition.isSome)).map (·.1.id)
  looping : a.looping = (xs.filter (·.1.loop.isSome)).map (·.1.id)

namespace Analysis

variable {a : Analysis} {xs : List (Node × Nat)}

/-- One more node is told of as the nodes before it are. -/
theorem Tells.visit (h : a.Tells xs) (x : Node × Nat) : (a.visit x).Tells (xs ++ [x]) where
  total := by rw [List.length_append, ← h.total]; rfl
  deepest y hy := by
    rcases List.mem_append.mp hy with hy | hy
    · exact Nat.le_trans (h.deepest y hy) (Nat.le_max_left _ _)
    · obtain rfl := List.mem_singleton.mp hy
      exact Nat.le_max_right _ _
  reached := by
    refine .inr ?_
    rcases Nat.le_total x.2 a.maxDepth with hle | hle
    · rcases h.reached with ⟨-, hzero⟩ | ⟨y, hy, hmax⟩
      · exact ⟨x, by simp, by simp [Analysis.visit, hzero]⟩
      · exact ⟨y, List.mem_append_left _ hy, hmax.trans (Nat.max_eq_left hle).symm⟩
    · exact ⟨x, by simp, (Nat.max_eq_right hle).symm⟩
  components := by
    rw [List.map_append, List.map_singleton]
    by_cases hx : x.1.type ∈ a.components
    · simpa only [Analysis.visit, if_pos hx] using h.components.again hx
    · simpa only [Analysis.visit, if_neg hx] using h.components.snoc hx
  bindings := by simp [Analysis.visit, h.bindings]
  handlers := by simp [Analysis.visit, h.handlers]
  conditional := by cases hx : x.1.condition <;> simp [Analysis.visit, h.conditional, hx]
  looping := by cases hx : x.1.loop <;> simp [Analysis.visit, h.looping, hx]

theorem tells_nil : Tells {} [] where
  total := rfl
  deepest := nofun
  reached := .inl ⟨rfl, rfl⟩
  components := .nil
  bindings := rfl
  handlers := rfl
  conditional := rfl
  looping := rfl

/-- All nodes that are visited are told of. -/
theorem tells_foldl (xs : List (Node × Nat)) : (xs.foldl visit {}).Tells xs := by
  -- from the back, as the last node is visited last
  induction xs using List.reverseRecOn with
  | nil => exact tells_nil
  | append_singleton xs x ih =>
    rw [List.foldl_append]
    exact ih.visit x

end Analysis

/-- The analysis of a page tells of its walk. -/
theorem Page.tells_analysis (p : Page) : p.analysis.Tells p.walk := Analysis.tells_foldl p.walk

end LivePage
