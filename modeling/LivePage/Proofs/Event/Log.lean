import Mathlib.Data.List.Perm.Basic
import LivePage.Event.Registry
import LivePage.Proofs.Fields

/-!
# Registries are logs

A log holds all registrations that were ever made, in their order, and which of them still stand.  A
registry keeps only those that stand, and keeps them by node, where the nodes come in no order that
means anything.  It gives the answers of a log all the same.
-/

namespace LivePage

/-- A registration, and whether it still stands. -/
structure Log.Entry where
  registered : Registered
  stands : Bool := true

/-- All registrations that were ever made, in their order. -/
abbrev Log := List Log.Entry

namespace Log

def standing (log : Log) : List Registered := (log.filter (·.stands)).map (·.registered)

/-- The number of a registration is how many were made before it. -/
def register (log : Log) (nodeId : String) (h : Handler) : Log :=
  log ++ [{ registered := ⟨nodeId, h, log.length⟩ }]

def registerNode (log : Log) (n : Node) : Log := n.events.foldl (·.register n.id ·) log

/-- Some registrations stand no more. -/
def strike (log : Log) (p : Registered → Bool) : Log :=
  log.map fun e ↦ if p e.registered then { e with stands := false } else e

end Log

/-- What can be done to a registry. -/
inductive Registry.Operation where
  | register (nodeId : String) (h : Handler)
  | registerPage (p : Page)
  | unregister (nodeId : String) (event? : Option String)
  | clear

def Registry.after (r : Registry) : Registry.Operation → Registry
  | .register nodeId h => r.register nodeId h
  | .registerPage p => r.registerPage p
  | .unregister nodeId event? => r.unregister nodeId event?
  | .clear => r.clear

def Log.after (log : Log) : Registry.Operation → Log
  | .register nodeId h => log.register nodeId h
  | .registerPage p => p.nodes.foldl registerNode log
  | .unregister nodeId event? =>
    log.strike fun x ↦ x.nodeId == nodeId && Registry.concerns event? x
  | .clear => log.strike fun _ ↦ true

/-- The log of operations one after another. -/
def Log.ofOperations (ops : List Registry.Operation) : Log := ops.foldl Log.after []

namespace Registry

/-- Operations, one after another, lead from an empty registry to this one.  The nodes may change
their order at any time. -/
inductive Reaches : List Operation → Registry → Prop where
  | empty : Reaches [] {}
  | after {ops : List Operation} {r : Registry} (h : Reaches ops r) (op : Operation) :
    Reaches (ops ++ [op]) (r.after op)
  | reorder {ops : List Operation} {r : Registry} {nodes : Fields (List Registered)}
    (h : Reaches ops r) (perm : r.nodes.Perm nodes) : Reaches ops { r with nodes := nodes }

theorem mem_handlersFor_iff {r : Registry} {event : String} {x : Registered} :
    x ∈ r.handlersFor event ↔ x ∈ r.all ∧ x.handler.event = event := by
  rw [handlersFor, List.mem_mergeSort, List.mem_filter, beq_iff_eq]

/-- Handlers of a node, if there are any. -/
def kept : List Registered → Option (List Registered)
  | [] => none
  | xs => some xs

theorem kept_eq_some_iff {xs ys : List Registered} : kept xs = some ys ↔ xs = ys ∧ ys ≠ [] := by
  cases xs with
  | nil =>
    simp only [kept, reduceCtorEq, false_iff]
    rintro ⟨rfl, h⟩
    exact h rfl
  | cons x r =>
    simp only [kept, Option.some.injEq]
    constructor
    · rintro rfl
      exact ⟨rfl, List.cons_ne_nil x r⟩
    · exact And.left

@[simp] theorem getD_kept (xs : List Registered) : (kept xs).getD [] = xs := by
  cases xs with
  | nil => rfl
  | cons x r => rfl

theorem bind_kept (f : List Registered → List Registered) (hf : f [] = []) (xs : List Registered) :
    (kept xs).bind (kept ∘ f) = kept (f xs) := by
  cases xs with
  | nil => rw [hf]; rfl
  | cons x r => rfl

/-- What is left of the handlers of a node when those of another one are removed, or its own. -/
def left (nodeId : String) (event? : Option String) (k : String) (xs : List Registered) :
    Option (List Registered) :=
  if k = nodeId then kept (xs.filter (!concerns event? ·)) else some xs

theorem unregister_nodes (r : Registry) (nodeId : String) (event? : Option String) :
    (r.unregister nodeId event?).nodes = r.nodes.sift (left nodeId event?) := by
  refine List.filterMap_congr fun x _ ↦ ?_
  obtain ⟨k, xs⟩ := x
  simp only [left]
  by_cases hk : k = nodeId
  · rw [if_pos hk, if_pos hk]
    cases xs.filter (!concerns event? ·) with
    | nil => rfl
    | cons x r => rfl
  · rw [if_neg hk, if_neg hk]
    rfl

end Registry

namespace Log

open Registry

variable {log : Log} {r : Registry} {k : String}

/-! ## Registrations that stand -/

theorem standing_register (log : Log) (nodeId : String) (h : Handler) :
    (log.register nodeId h).standing = log.standing ++ [⟨nodeId, h, log.length⟩] := by
  simp [register, standing]

theorem standing_strike (log : Log) (p : Registered → Bool) :
    (log.strike p).standing = log.standing.filter (!p ·) := by
  induction log with
  | nil => rfl
  | cons e r ih =>
    simp only [strike, standing] at ih
    obtain ⟨x, stands⟩ := e
    cases stands with
    | false => cases hp : p x <;> simp [strike, standing, hp, ih]
    | true => cases hp : p x <;> simp [strike, standing, hp, ih]

/-- Each registration has its place as its number, which is so never used again. -/
def Numbered (log : Log) : Prop := ∀ i (e : Entry), log[i]? = some e → e.registered.number = i

theorem numbered_nil : Numbered [] := nofun

theorem Numbered.register (h : log.Numbered) (nodeId : String) (handler : Handler) :
    (log.register nodeId handler).Numbered := by
  intro i e he
  rcases Nat.lt_or_ge i log.length with hi | hi
  · exact h i e (by rwa [Log.register, List.getElem?_append_left hi] at he)
  · rw [Log.register, List.getElem?_append_right hi, List.getElem?_singleton] at he
    split at he
    · cases he
      change log.length = i
      omega
    · cases he

theorem Numbered.strike (h : log.Numbered) (p : Registered → Bool) : (log.strike p).Numbered := by
  intro i e he
  rw [Log.strike, List.getElem?_map] at he
  obtain ⟨f, hf, rfl⟩ := Option.map_eq_some_iff.mp he
  rw [← h i f hf]
  split
  · rfl
  · rfl

theorem Numbered.getElem?_of_mem (h : log.Numbered) {x : Registered} (hx : x ∈ log.standing) :
    ∃ e, log[x.number]? = some e ∧ e.registered = x := by
  obtain ⟨e, he, rfl⟩ := List.mem_map.mp hx
  obtain ⟨i, hi⟩ := List.getElem?_of_mem (List.mem_filter.mp he).1
  exact ⟨e, by rwa [h i e hi], rfl⟩

theorem Numbered.eq_of_number_eq (h : log.Numbered) {x y : Registered} (hx : x ∈ log.standing)
    (hy : y ∈ log.standing) (hn : x.number = y.number) : x = y := by
  obtain ⟨e, he, rfl⟩ := h.getElem?_of_mem hx
  obtain ⟨f, hf, rfl⟩ := h.getElem?_of_mem hy
  rw [hn, hf] at he
  exact congrArg Entry.registered (Option.some.inj he).symm

/-- Registrations that stand are in the order of their numbers. -/
theorem Numbered.ascending (h : log.Numbered) :
    log.standing.Pairwise fun x y ↦ x.number < y.number := by
  refine List.Pairwise.map _ (fun _ _ hlt ↦ hlt) (List.Pairwise.filter _ ?_)
  refine List.pairwise_iff_getElem.mpr fun i j hi hj hlt ↦ ?_
  rw [h i _ (List.getElem?_eq_getElem hi), h j _ (List.getElem?_eq_getElem hj)]
  exact hlt

/-- Things put together by their keys are the same things. -/
theorem perm_flatMap_filter {α : Type} {f : α → String} {ks : List String} {xs : List α}
    (hn : ks.Nodup) (h : ∀ x ∈ xs, f x ∈ ks) : (ks.flatMap fun k ↦ xs.filter (f · == k)).Perm xs := by
  induction ks generalizing xs with
  | nil =>
    rw [List.eq_nil_iff_forall_not_mem.mpr fun x hx ↦ List.not_mem_nil (h x hx)]
    exact .nil
  | cons k r ih =>
    obtain ⟨hk, hr⟩ := List.nodup_cons.mp hn
    have rest : r.flatMap (fun j ↦ xs.filter (f · == j)) =
        r.flatMap fun j ↦ (xs.filter fun x ↦ !(f x == k)).filter (f · == j) := by
      refine List.flatMap_congr fun j hj ↦ ?_
      rw [List.filter_filter]
      refine List.filter_congr fun x _ ↦ ?_
      by_cases hx : f x = j
      · have hjk : j ≠ k := fun e ↦ hk (e ▸ hj)
        simp [hx, hjk]
      · simp [hx]
    rw [List.flatMap_cons, rest]
    refine ((ih hr fun x hx ↦ ?_).append_left _).trans (List.filter_append_perm ..)
    obtain ⟨hx, hne⟩ := List.mem_filter.mp hx
    refine (List.mem_cons.mp (h x hx)).resolve_left fun e ↦ ?_
    simp [e] at hne

/-! ## Logs that grow -/

/-- Nothing is taken from a log, and what is new comes at its end. -/
def Grows (log log' : Log) : Prop := log.map (·.registered) <+: log'.map (·.registered)

/-- A log is related to what it becomes with the handlers of a page, if it is to what it becomes with
each of them. -/
theorem registerPage_rel {R : Log → Log → Prop} (refl : ∀ log, R log log)
    (trans : ∀ {a b c}, R a b → R b c → R a c)
    (hr : ∀ (log : Log) nodeId h, R log (log.register nodeId h)) (p : Page) (log : Log) :
    R log (p.nodes.foldl registerNode log) := by
  have node (n : Node) (l : Log) (hl : R log l) : R log (l.registerNode n) :=
    List.foldlRecOn (motive := R log) n.events _ hl fun b hb h _ ↦ trans hb (hr b n.id h)
  exact List.foldlRecOn (motive := R log) p.nodes _ (refl log) fun b hb n _ ↦ node n b hb

theorem standing_subset_register (log : Log) (nodeId : String) (h : Handler) :
    log.standing ⊆ (log.register nodeId h).standing := by
  rw [standing_register]
  exact List.subset_append_left ..

theorem standing_subset_registerPage (log : Log) (p : Page) :
    log.standing ⊆ (p.nodes.foldl registerNode log).standing :=
  registerPage_rel (R := fun a b ↦ a.standing ⊆ b.standing) (fun _ ↦ List.Subset.refl _)
    List.Subset.trans standing_subset_register p log

theorem grows_register (log : Log) (nodeId : String) (h : Handler) :
    log.Grows (log.register nodeId h) :=
  ⟨[⟨nodeId, h, log.length⟩], by rw [register, List.map_append]; rfl⟩

theorem grows_strike (log : Log) (p : Registered → Bool) : log.Grows (log.strike p) := by
  have h : (log.strike p).map (·.registered) = log.map (·.registered) := by
    rw [strike, List.map_map]
    refine List.map_congr_left fun e _ ↦ ?_
    simp only [Function.comp_apply]
    split
    · rfl
    · rfl
  exact ⟨[], by rw [h, List.append_nil]⟩

theorem grows_after (log : Log) (op : Operation) : log.Grows (log.after op) := by
  cases op with
  | register nodeId h => exact log.grows_register nodeId h
  | registerPage p =>
    exact registerPage_rel (R := Grows) (fun log ↦ ⟨[], List.append_nil _⟩) List.IsPrefix.trans
      grows_register p log
  | unregister nodeId event? =>
    exact log.grows_strike fun x ↦ x.nodeId == nodeId && concerns event? x
  | clear => exact log.grows_strike fun _ ↦ true

/-! ## Registries of logs -/

/-- A registry keeps the registrations of a log that stand, by node and with no node left empty, and
goes on to number where the log ends. -/
structure Represents (log : Log) (r : Registry) : Prop where
  next : r.next = log.length
  numbered : log.Numbered
  nodup : r.nodes.keys.Nodup
  node : ∀ k, r.nodes.get? k = kept (log.standing.filter (·.nodeId == k))

namespace Represents

theorem empty : Represents [] {} where
  next := rfl
  numbered := numbered_nil
  nodup := .nil
  node _ := rfl

theorem register (h : log.Represents r) (nodeId : String) (handler : Handler) :
    (log.register nodeId handler).Represents (r.register nodeId handler) where
  next := by simp [Registry.register, Log.register, h.next]
  numbered := h.numbered.register nodeId handler
  nodup := Fields.nodup_keys_insert h.nodup
  node k := by
    rw [standing_register, List.filter_append, List.filter_singleton]
    by_cases hk : k = nodeId
    · subst hk
      rw [Registry.register, Fields.get?_insert_self, h.node, getD_kept, h.next]
      simp only [BEq.rfl, cond_true]
      exact (kept_eq_some_iff.mpr ⟨rfl, by simp⟩).symm
    · rw [Registry.register, Fields.get?_insert_of_ne _ _ hk, h.node]
      have hne : (nodeId == k) = false := beq_false_of_ne (Ne.symm hk)
      simp [hne]

theorem registerNode (h : log.Represents r) (n : Node) :
    (log.registerNode n).Represents (r.registerNode n) := by
  unfold Log.registerNode Registry.registerNode
  induction n.events generalizing log r with
  | nil => exact h
  | cons handler rest ih => exact ih (h.register n.id handler)

theorem registerPage (h : log.Represents r) (p : Page) :
    (p.nodes.foldl Log.registerNode log).Represents (r.registerPage p) := by
  unfold Registry.registerPage
  induction p.nodes generalizing log r with
  | nil => exact h
  | cons n rest ih => exact ih (h.registerNode n)

theorem unregister (h : log.Represents r) (nodeId : String) (event? : Option String) :
    (log.strike fun x ↦ x.nodeId == nodeId && concerns event? x).Represents
      (r.unregister nodeId event?) where
  next := by simp [h.next, strike]
  numbered := h.numbered.strike _
  nodup := by
    rw [unregister_nodes]
    exact h.nodup.sublist (Fields.keys_sift_sublist ..)
  node k := by
    rw [unregister_nodes, Fields.get?_sift _ h.nodup, h.node, standing_strike, List.filter_filter]
    by_cases hk : k = nodeId
    · subst hk
      have hf : left k event? k = kept ∘ List.filter (!concerns event? ·) := by
        funext xs
        exact if_pos rfl
      rw [hf, bind_kept _ rfl, List.filter_filter]
      congr 1
      refine List.filter_congr fun x _ ↦ ?_
      cases x.nodeId == k <;> simp
    · have hf : left nodeId event? k = some := by
        funext xs
        exact if_neg hk
      rw [hf, Option.bind_fun_some]
      congr 1
      refine List.filter_congr fun x _ ↦ ?_
      by_cases hx : x.nodeId = k
      · simp [hx, hk]
      · simp [hx]

theorem clear (h : log.Represents r) : (log.strike fun _ ↦ true).Represents r.clear where
  next := by simp [h.next, strike]
  numbered := h.numbered.strike _
  nodup := .nil
  node k := by simp [standing_strike, Registry.clear, kept]

theorem after (h : log.Represents r) (op : Operation) : (log.after op).Represents (r.after op) := by
  cases op with
  | register nodeId handler => exact h.register nodeId handler
  | registerPage p => exact h.registerPage p
  | unregister nodeId event? => exact h.unregister nodeId event?
  | clear => exact h.clear

theorem reorder {nodes : Fields (List Registered)} (h : log.Represents r)
    (perm : r.nodes.Perm nodes) : log.Represents { r with nodes := nodes } where
  next := h.next
  numbered := h.numbered
  nodup := (perm.map Prod.fst).nodup_iff.mp h.nodup
  node k := (Fields.get?_of_perm h.nodup perm k).trans (h.node k)

/-! ## Answers -/

theorem ne_nil (h : log.Represents r) {node : String × List Registered} (hn : node ∈ r.nodes) :
    node.2 ≠ [] := by
  have hg := (Fields.mem_iff_get? h.nodup).mp hn
  rw [h.node] at hg
  exact (kept_eq_some_iff.mp hg).2

theorem ofNode (h : log.Represents r) (nodeId : String) (event? : Option String) :
    r.ofNode nodeId event? =
      (log.standing.filter (·.nodeId == nodeId)).filter (concerns event?) := by
  rw [Registry.ofNode, h.node, getD_kept]

/-- All that is registered is what stands, if not in its order. -/
theorem all_perm (h : log.Represents r) : r.all.Perm log.standing := by
  have nodes : r.all = r.nodes.keys.flatMap fun k ↦ log.standing.filter (·.nodeId == k) := by
    rw [Registry.all, Fields.keys, List.flatMap_map]
    refine List.flatMap_congr fun node hn ↦ ?_
    have hg := (Fields.mem_iff_get? h.nodup).mp hn
    rw [h.node] at hg
    exact (kept_eq_some_iff.mp hg).1.symm
  rw [nodes]
  refine perm_flatMap_filter h.nodup fun x hx ↦ ?_
  rw [Fields.mem_keys_iff, h.node, kept_eq_some_iff.mpr ⟨rfl, ?_⟩]
  · rfl
  · exact List.ne_nil_of_mem (List.mem_filter.mpr ⟨hx, BEq.rfl⟩)

theorem size (h : log.Represents r) : r.size = log.standing.length := h.all_perm.length_eq

theorem handlersFor (h : log.Represents r) (event : String) :
    r.handlersFor event = log.standing.filter (·.handler.event == event) := by
  have perm : (r.handlersFor event).Perm (log.standing.filter (·.handler.event == event)) :=
    (List.mergeSort_perm _ _).trans (h.all_perm.filter _)
  have ascending := h.numbered.ascending
  have sorted : (r.handlersFor event).Pairwise fun x y ↦ x.number ≤ y.number := by
    have hs : (r.handlersFor event).Pairwise fun x y ↦ decide (x.number ≤ y.number) = true :=
      List.pairwise_mergeSort (fun _ _ _ ↦ by simpa using Nat.le_trans)
        (fun x y ↦ by simpa using Nat.le_total ..) (r.all.filter (·.handler.event == event))
    exact hs.imp of_decide_eq_true
  refine List.Perm.eq_of_pairwise (fun x y hx hy hle hge ↦ ?_) sorted
    ((ascending.filter _).imp Nat.le_of_lt) perm
  -- no two registrations have one number, so that their order leaves nothing open
  exact h.numbered.eq_of_number_eq (List.mem_filter.mp (perm.mem_iff.mp hx)).1
    (List.mem_filter.mp hy).1 (Nat.le_antisymm hle hge)

theorem mem_all_iff (h : log.Represents r) {x : Registered} : x ∈ r.all ↔ x ∈ log.standing :=
  h.all_perm.mem_iff

/-- No two handlers have one number. -/
theorem eq_of_number_eq (h : log.Represents r) {x y : Registered} (hx : x ∈ r.all) (hy : y ∈ r.all)
    (hn : x.number = y.number) : x = y :=
  h.numbered.eq_of_number_eq (h.mem_all_iff.mp hx) (h.mem_all_iff.mp hy) hn

/-- No two handlers of an event have one number. -/
theorem numbers (h : log.Represents r) (event : String) :
    (r.handlersFor event).Pairwise fun x y ↦ x.number ≠ y.number := by
  rw [h.handlersFor]
  exact (h.numbered.ascending.filter _).imp Nat.ne_of_lt

end Represents

/-- The registry of a log, however its nodes are ordered. -/
theorem represents_of_reaches {ops : List Operation} (h : Registry.Reaches ops r) :
    (ofOperations ops).Represents r := by
  induction h with
  | empty => exact .empty
  | after h op ih =>
    rw [ofOperations, List.foldl_append]
    exact ih.after op
  | reorder h perm ih => exact ih.reorder perm

end Log

end LivePage
