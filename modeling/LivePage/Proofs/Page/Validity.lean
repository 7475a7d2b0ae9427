import LivePage.Proofs.Page.Place
import LivePage.Proofs.Page.Version

/-!
# Validity of pages

What is wrong with a page is reported once for each time that it is wrong.  The ids that are seen on
the way through a page tell the first node of an id from the others, so that an id is reported once
less often than it is there.
-/

namespace LivePage

namespace Node

variable {seen : List String} {n : Node}

theorem count_emptyNodeId (type : String) : (n.violations seen).count (.emptyNodeId type) =
    if n.id = "" ∧ n.type = type then 1 else 0 := by
  unfold violations
  split_ifs <;> simp_all

theorem count_emptyNodeType (id : String) : (n.violations seen).count (.emptyNodeType id) =
    if n.type = "" ∧ n.id = id then 1 else 0 := by
  unfold violations
  split_ifs <;> simp_all

theorem count_duplicateNodeId (id : String) : (n.violations seen).count (.duplicateNodeId id) =
    if n.id = id ∧ id ≠ "" ∧ id ∈ seen then 1 else 0 := by
  unfold violations
  by_cases h : n.id = id
  · subst h
    split_ifs <;> simp_all
  · split_ifs <;> simp_all

theorem of_mem_violations {v : Violation} (h : v ∈ n.violations seen) :
    ∃ s, v = .duplicateNodeId s ∨ v = .emptyNodeId s ∨ v = .emptyNodeType s := by
  unfold violations at h
  split_ifs at h <;> simp at h
  all_goals grind

end Node

namespace Page

variable {p : Page} {seen : List String} {ns : List Node}

theorem count_emptyNodeId (type : String) : (nodeViolations seen ns).count (.emptyNodeId type) =
    ns.countP fun n ↦ n.id = "" ∧ n.type = type := by
  induction ns generalizing seen with
  | nil => rfl
  | cons n r ih =>
    rw [nodeViolations, List.count_append, ih, n.count_emptyNodeId, List.countP_cons, Nat.add_comm]
    simp only [decide_eq_true_eq]

theorem count_emptyNodeType (id : String) : (nodeViolations seen ns).count (.emptyNodeType id) =
    ns.countP fun n ↦ n.type = "" ∧ n.id = id := by
  induction ns generalizing seen with
  | nil => rfl
  | cons n r ih =>
    rw [nodeViolations, List.count_append, ih, n.count_emptyNodeType, List.countP_cons, Nat.add_comm]
    simp only [decide_eq_true_eq]

/-- The first node of an id is no duplicate unless the id was seen before. -/
theorem count_duplicateNodeId {id : String} (h : id ≠ "") :
    (nodeViolations seen ns).count (.duplicateNodeId id) =
      ns.countP (·.id = id) - if id ∈ seen then 0 else 1 := by
  induction ns generalizing seen with
  | nil => simp [nodeViolations]
  | cons n r ih =>
    rw [nodeViolations, List.count_append, ih, n.count_duplicateNodeId, List.countP_cons]
    by_cases same : n.id = id
    · by_cases before : id ∈ seen <;> simp [h, same, before, Nat.add_comm]
    · simp [same, Ne.symm same]

theorem count_duplicateNodeId_empty : (nodeViolations seen ns).count (.duplicateNodeId "") = 0 := by
  induction ns generalizing seen with
  | nil => rfl
  | cons n r ih => simp [nodeViolations, ih, n.count_duplicateNodeId]

theorem of_mem_nodeViolations {v : Violation} (h : v ∈ nodeViolations seen ns) :
    ∃ s, v = .duplicateNodeId s ∨ v = .emptyNodeId s ∨ v = .emptyNodeType s := by
  induction ns generalizing seen with
  | nil => cases h
  | cons n r ih =>
    rw [nodeViolations, List.mem_append] at h
    rcases h with h | h
    · exact n.of_mem_violations h
    · exact ih h

/-- How often there is occasion to report that something is wrong with a page. -/
noncomputable def occasions (p : Page) : Violation → Nat
  | .missingRoot => if p.root = none then 1 else 0
  | .missingVersion => if p.version = "" then 1 else 0
  | .invalidVersion version =>
    if p.version = version ∧ version ≠ "" ∧ ¬Version.Semantic version then 1 else 0
  | .missingId => if p.id = "" then 1 else 0
  | .duplicateNodeId id => if id = "" then 0 else (p.places (·.id = id)).ncard - 1
  | .emptyNodeId type => (p.places fun n ↦ n.id = "" ∧ n.type = type).ncard
  | .emptyNodeType id => (p.places fun n ↦ n.type = "" ∧ n.id = id).ncard

theorem count_headViolations (p : Page) (v : Violation) : p.headViolations.count v =
    match v with
    | .duplicateNodeId _ | .emptyNodeId _ | .emptyNodeType _ => 0
    | v => p.occasions v := by
  unfold headViolations
  cases v with
  | missingRoot => cases h : p.root <;> simp [occasions, h] <;> split_ifs <;> simp
  | missingVersion | missingId => simp [occasions, List.count_append]; split_ifs <;> simp_all
  | invalidVersion version =>
    by_cases same : p.version = version
    · subst same
      simp [occasions, List.count_append, ← Version.isSemantic_iff]
      split_ifs <;> simp_all
    · simp [occasions, List.count_append, same]
      split_ifs <;> simp [same]
  | duplicateNodeId | emptyNodeId | emptyNodeType => split_ifs <;> simp

theorem count_violations (p : Page) (v : Violation) : p.violations.count v = p.occasions v := by
  rw [violations, List.count_append, count_headViolations]
  have apart (h : ∀ s, v ≠ .duplicateNodeId s ∧ v ≠ .emptyNodeId s ∧ v ≠ .emptyNodeType s) :
      (nodeViolations [] p.nodes).count v = 0 := by
    refine List.count_eq_zero.mpr fun hv ↦ ?_
    obtain ⟨s, hv⟩ := of_mem_nodeViolations hv
    exact absurd hv (by simp [h s])
  have tally (P : Node → Prop) [DecidablePred P] := (p.finite_places_and_ncard P).2
  cases v with
  | duplicateNodeId id =>
    by_cases h : id = ""
    · subst h
      simp [occasions, count_duplicateNodeId_empty]
    · simp [occasions, h, count_duplicateNodeId h, tally]
  | emptyNodeId type => simp only [occasions, count_emptyNodeId, tally, Nat.zero_add]
  | emptyNodeType id => simp only [occasions, count_emptyNodeType, tally, Nat.zero_add]
  | _ => exact congrArg _ (apart (by simp))

/-- A page is well formed when it has a root, an id and a semantic version, and all its nodes have
types and ids of their own. -/
structure WellFormed (p : Page) : Prop where
  root : p.root ≠ none
  id : p.id ≠ ""
  version : Version.Semantic p.version
  named : ∀ place n, p.at? place = some n → n.id ≠ "" ∧ n.type ≠ ""
  apart : ∀ place n place' n', p.at? place = some n → p.at? place' = some n' → n.id = n'.id →
    place = place'

theorem ncard_places_eq_zero_iff {P : Node → Prop} :
    (p.places P).ncard = 0 ↔ ∀ place n, p.at? place = some n → ¬P n := by
  classical
  rw [Set.ncard_eq_zero (p.finite_places_and_ncard P).1, Set.eq_empty_iff_forall_notMem]
  simp [places]

theorem ncard_places_le_one_iff {P : Node → Prop} : (p.places P).ncard ≤ 1 ↔
    ∀ place n place' n', p.at? place = some n → p.at? place' = some n' → P n → P n' →
      place = place' := by
  classical
  rw [Set.ncard_le_one (p.finite_places_and_ncard P).1]
  constructor
  · exact fun h place n place' n' hn hn' hp hp' ↦ h place ⟨n, hn, hp⟩ place' ⟨n', hn', hp'⟩
  · rintro h place ⟨n, hn, hp⟩ place' ⟨n', hn', hp'⟩
    exact h place n place' n' hn hn' hp hp'

theorem isValid_iff_occasions : p.isValid = true ↔ ∀ v, p.occasions v = 0 := by
  simp only [isValid, List.isEmpty_iff, List.eq_nil_iff_forall_not_mem, ← count_violations,
    List.count_eq_zero]

theorem isValid_iff_wellFormed : p.isValid = true ↔ p.WellFormed := by
  rw [isValid_iff_occasions]
  constructor
  · intro none
    have version : p.version ≠ "" := by simpa [occasions] using none .missingVersion
    have named place n (hn : p.at? place = some n) : n.id ≠ "" ∧ n.type ≠ "" := by
      constructor
      · exact fun h ↦ ncard_places_eq_zero_iff.mp (none (.emptyNodeId n.type)) place n hn ⟨h, rfl⟩
      · exact fun h ↦ ncard_places_eq_zero_iff.mp (none (.emptyNodeType n.id)) place n hn ⟨h, rfl⟩
    refine ⟨?_, ?_, ?_, named, fun place n place' n' hn hn' same ↦ ?_⟩
    · simpa [occasions] using none .missingRoot
    · simpa [occasions] using none .missingId
    · simpa [occasions, version] using none (.invalidVersion p.version)
    · have once := none (.duplicateNodeId n.id)
      rw [occasions, if_neg (named place n hn).1, Nat.sub_eq_zero_iff_le] at once
      exact ncard_places_le_one_iff.mp once place n place' n' hn hn' rfl same.symm
  · intro h v
    cases v with
    | missingRoot => simp [occasions, h.root]
    | missingVersion =>
      have : p.version ≠ "" := fun e ↦ absurd (e ▸ h.version) (by decide)
      simp [occasions, this]
    | invalidVersion version =>
      rw [occasions, if_neg]
      rintro ⟨rfl, -, wrong⟩
      exact wrong h.version
    | missingId => simp [occasions, h.id]
    | duplicateNodeId id =>
      rw [occasions]
      split
      · rfl
      · rw [Nat.sub_eq_zero_iff_le, ncard_places_le_one_iff]
        exact fun place n place' n' hn hn' e e' ↦ h.apart place n place' n' hn hn' (e.trans e'.symm)
    | emptyNodeId type =>
      exact ncard_places_eq_zero_iff.mpr fun place n hn e ↦ (h.named place n hn).1 e.1
    | emptyNodeType id =>
      exact ncard_places_eq_zero_iff.mpr fun place n hn e ↦ (h.named place n hn).2 e.1

theorem WellFormed.find?_eq {place : List Step} {n : Node} (h : p.WellFormed)
    (hn : p.at? place = some n) : p.find? n.id = some n := by
  rw [find?_eq_nodes]
  have mem : n ∈ p.nodes := mem_nodes_iff.mpr ⟨place, hn⟩
  cases found : p.nodes.find? (·.id = n.id) with
  | none => simpa using List.find?_eq_none.mp found n mem
  | some m =>
    obtain ⟨place', hm⟩ := mem_nodes_iff.mp (List.mem_of_find?_eq_some found)
    have same : m.id = n.id := by simpa using List.find?_some found
    obtain rfl := h.apart place' m place n hm hn same
    rw [Option.some.inj (hm.symm.trans hn)]

/-- A page is reported valid just when it is well formed, and each thing that is wrong with it is
reported as often as there is occasion to.  In a valid page the id of a node leads to this node. -/
theorem validates_exactly (p : Page) :
    (p.isValid = true ↔ p.WellFormed) ∧ (∀ v, p.violations.count v = p.occasions v) ∧
      (p.isValid = true → ∀ place n, p.at? place = some n → p.find? n.id = some n) :=
  ⟨isValid_iff_wellFormed, p.count_violations, fun valid _ _ hn ↦
    (isValid_iff_wellFormed.mp valid).find?_eq hn⟩

theorem validates_exactly_with_slot :
    let title : Node := { id := "title", type := "Text" }
    let footer : Node := { id := "footer", type := "Text" }
    let root : Node :=
      { id := "root", type := "Page", children := [title], slots := [("footer", [footer])] }
    let p : Page := { id := "page", version := "1.0.0", root := some root }
    p.isValid = true ∧ p.at? [.slot 0 0] = some footer ∧ p.find? "footer" = some footer := by
  intro title footer root p
  have valid : p.isValid = true := by decide
  exact ⟨valid, rfl, (validates_exactly p).2.2 valid [.slot 0 0] footer rfl⟩

end Page

end LivePage
