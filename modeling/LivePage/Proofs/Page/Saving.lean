import Mathlib
import LivePage.Page.Digest
import LivePage.Proofs.Json.Text
import LivePage.Proofs.Page.Nesting

/-!
# Saved pages

A page that was read from a document is read again from its own document, and from the text of it
that is saved.  The text of a page may be nested deeper than the one it was read from, since a list
that was not given is saved as an empty one; nested deeper than the reader goes it is not read.
-/

namespace LivePage

open Json (Lossless maxDepth surplusInText Decode.record_ofValue)
open Json.Decode (Yields)

namespace Page

/-- The page of some document or of some text. -/
def Loaded (p : Page) : Prop := (∃ d, ofValue d = .ok p) ∨ ∃ text, ofText text = .ok p

variable {p q : Page}

theorem Loaded.yields (h : p.Loaded) : ∃ surplus, Yields (ofTree surplus) p := by
  obtain ⟨d, h⟩ | ⟨text, h⟩ := h
  · exact ⟨.shape, _, h⟩
  · obtain ⟨q, read, h⟩ := bind_eq_ok_iff.mp h
    obtain ⟨-, -, h⟩ := bind_eq_ok_iff.mp h
    cases h
    exact ⟨surplusInText, _, read⟩

theorem Loaded.ofTree_toValue (h : p.Loaded) (surplus : Json.DecodeError) :
    ofTree surplus (.ofValue p.toValue) = .ok p := by
  obtain ⟨_, h⟩ := h.yields
  exact Page.ofTree_toValue h

/-- The text of a value is read as far as the value is not nested too deep. -/
theorem ofText_compact {v : Value} (numbers : ∀ n ∈ v.numbers, Lossless n) :
    ofText (Json.compact v) = ofTree surplusInText (.within 0 v) := by
  rw [ofText, Json.read_compact numbers, Json.Source.decode]
  exact bind_pure _

theorem ofText_compact_of_depth_le {v : Value} (numbers : ∀ n ∈ v.numbers, Lossless n)
    (shallow : v.depth ≤ maxDepth) :
    ofText (Json.compact v) = ofTree surplusInText (.ofValue v) := by
  rw [ofText_compact numbers, Json.within_eq_ofValue v (by omega)]

/-- The saved text of a loaded page is that of the page and of no other one, and of none at all
where it is nested deeper than the reader goes. -/
theorem Loaded.ofText_canonical_iff (h : p.Loaded)
    (numbers : ∀ n ∈ p.toValue.numbers, Lossless n) :
    ofText p.canonical = .ok q ↔ q = p ∧ p.toValue.depth ≤ maxDepth := by
  have again (shallow : p.toValue.depth ≤ maxDepth) : ofText p.canonical = .ok p := by
    rw [canonical, ofText_compact_of_depth_le numbers shallow, h.ofTree_toValue]
  constructor
  · intro read
    have shallow : 0 + p.toValue.depth ≤ maxDepth := by
      rw [canonical, ofText_compact numbers] at read
      exact p.readsAll (Nat.zero_le _) read
    rw [Nat.zero_add] at shallow
    rw [again shallow] at read
    exact ⟨(Except.ok.inj read).symm, shallow⟩
  · rintro ⟨rfl, shallow⟩
    exact again shallow

/-- A loaded page is the page of its document, and of the text that is saved for it if this is not
nested too deep; then the same text is saved for it, under the same digest. -/
theorem saved_is_loaded (h : p.Loaded) : ofValue p.toValue = .ok p ∧
    ((∀ n ∈ p.toValue.numbers, Lossless n) →
      (∀ q, ofText p.canonical = .ok q ↔ q = p ∧ p.toValue.depth ≤ maxDepth) ∧
      (p.toValue.depth ≤ maxDepth →
        (ofText p.canonical).map canonical = .ok p.canonical ∧
        (ofText p.canonical).map digest = .ok p.digest)) := by
  refine ⟨h.ofTree_toValue .shape, fun numbers ↦ ?_⟩
  refine ⟨fun q ↦ h.ofText_canonical_iff numbers, fun shallow ↦ ?_⟩
  rw [(h.ofText_canonical_iff numbers).mpr ⟨rfl, shallow⟩]
  exact ⟨rfl, rfl⟩

/-- A condition and a slot of a document that leaves out lists are saved with empty ones, and are
the same when they are loaded. -/
theorem form_saved :
    let d : Value := .obj [("root", .obj [("id", .str "name"), ("type", .str "input"),
      ("condition", .obj [("type", .str "complex"), ("logic", .str "or")]),
      ("events", .arr [.obj [("event", .str "change"), ("debounce", .nat 300)]]),
      ("slots", .obj [("help", .arr [.obj [("id", .str "hint"), ("type", .str "text")]])])])]
    let hint : Node := { id := "hint", type := "text" }
    let name : Node :=
      { id := "name", type := "input", condition := some (.complex .or []),
        events := [{ event := "change", debounce := some 300 }], slots := [("help", [hint])] }
    let p : Page := { root := some name }
    ofValue d = .ok p ∧ p.toValue.numbers = [.int 300] ∧ ofText p.canonical = .ok p ∧
      (ofText p.canonical).map canonical = .ok p.canonical := by
  intro d hint name p
  have loaded : ofValue d = .ok p := by
    subst d p name hint
    cbv
  have numbers : p.toValue.numbers = [.int 300] := by
    subst p name hint
    cbv
  have shallow : p.toValue.depth ≤ maxDepth := by
    subst p name hint
    cbv
  have lossless : ∀ n ∈ p.toValue.numbers, Lossless n := by
    rw [numbers, List.forall_mem_singleton, Lossless]
    rfl
  obtain ⟨-, again⟩ := saved_is_loaded (.inl ⟨d, loaded⟩)
  obtain ⟨again, same⟩ := again lossless
  exact ⟨loaded, numbers, (again p).mpr ⟨rfl, shallow⟩, (same shallow).1⟩

end Page

/-! ## A page that is saved too deep -/

namespace Condition

/-- Conditions in each other, of which the innermost has no others. -/
def nest : Nat → Condition
  | 0 => .complex .and []
  | n + 1 => .complex .and [nest n]

/-- A document of these conditions that says no more than is needed. -/
def nestDocument : Nat → Value
  | 0 => .obj [("type", .str "complex")]
  | n + 1 => .obj [("type", .str "complex"), ("conditions", .arr [nestDocument n])]

theorem decode_nestDocument (n : Nat) (nested : Bool) :
    decode nested (.ofValue (nestDocument n)) = .ok (nest n) := by
  induction n generalizing nested with
  | zero => rfl
  | succ n ih =>
    refine decode_joined (by simp [Fields.keys]) ?_
    calc
      _ = (decodeItems [.ofValue (nestDocument n)] >>= fun cs ↦ .ok (Logic.and, cs)) := rfl
      _ = .ok (.and, [nest n]) := by
        rw [decodeItems_eq_mapM, List.mapM_cons, ih]
        rfl

theorem depth_nestDocument (n : Nat) : (nestDocument n).depth = 2 * n + 1 := by
  induction n with
  | zero => rfl
  | succ n ih =>
    simp only [nestDocument, Value.depth, Value.depthOfMembers, Value.depthOfItems, ih]
    omega

theorem depth_nest (n : Nat) : (nest n).toValue.depth = 2 * n + 2 := by
  induction n with
  | zero => rfl
  | succ n ih =>
    simp only [nest, toValue, conditionValues, Value.depth, Value.depthOfMembers,
      Value.depthOfItems, ih]
    omega

theorem numbers_nestDocument (n : Nat) : (nestDocument n).numbers = [] := by
  induction n with
  | zero => rfl
  | succ n ih =>
    simp [nestDocument, Value.numbers, Value.numbersOfMembers, Value.numbersOfItems, ih]

theorem numbers_nest (n : Nat) : (nest n).toValue.numbers = [] := by
  induction n with
  | zero => rfl
  | succ n ih =>
    simp [nest, toValue, conditionValues, Value.numbers, Value.numbersOfMembers,
      Value.numbersOfItems, ih]

end Condition

namespace Page

/-- A page of one node with `n` conditions inside of one. -/
def nest (n : Nat) : Page :=
  { root := some { id := "a", type := "t", condition := some (.nest n) } }

def nestDocument (n : Nat) : Value :=
  .obj [("root", .obj [("id", .str "a"), ("type", .str "t"),
    ("condition", Condition.nestDocument n)])]

variable {n : Nat}

theorem ofTree_nestDocument (surplus : Json.DecodeError) (n : Nat) :
    ofTree surplus (.ofValue (nestDocument n)) = .ok (nest n) := by
  have condition : Json.Decode.option Condition.ofTree (.ofValue (Condition.nestDocument n)) =
      .ok (some (.nest n)) := by
    rw [Json.Decode.option_ofValue (by cases n <;> simp [Condition.nestDocument]), Condition.ofTree,
      Condition.decode_nestDocument]
    rfl
  have root : Node.ofTree surplus (.ofValue (.obj [("id", .str "a"), ("type", .str "t"),
      ("condition", Condition.nestDocument n)])) =
      .ok { id := "a", type := "t", condition := some (.nest n) } := by
    rw [Node.ofTree_eq_record]
    refine Decode.record_ofValue ?_ (by simp [Node.spec, Node.fieldNames])
      (List.forall_mem_nil _)
    refine .member Json.Decode.string (fun id ↦ ({ id } : Node)) rfl rfl ?_
    refine .member Json.Decode.string (fun type ↦ ({ id := "a", type } : Node)) rfl rfl ?_
    refine .skip (.skip (.skip (.skip (.skip ?_))))
    refine .member (Json.Decode.option Condition.ofTree)
      (fun condition ↦ ({ id := "a", type := "t", condition } : Node)) condition rfl ?_
    exact .skip (.skip (.skip (.skip .nil)))
  refine Decode.record_ofValue ?_ (by simp [spec]) (List.forall_mem_nil _)
  refine .skip (.skip (.skip (.member (Json.Decode.option (Node.ofTree surplus))
    (fun root ↦ ({ root } : Page)) ?_ rfl (.skip .nil))))
  rw [Json.Decode.option_ofValue (v := .obj _) (by simp), root]
  rfl

theorem depth_nestDocument (n : Nat) : (nestDocument n).depth = 2 * n + 3 := by
  simp only [nestDocument, Value.depth, Value.depthOfMembers, Condition.depth_nestDocument]
  omega

theorem numbers_nestDocument (n : Nat) : (nestDocument n).numbers = [] := by
  simp [nestDocument, Value.numbers, Value.numbersOfMembers, Condition.numbers_nestDocument]

theorem toValue_nest (n : Nat) : (nest n).toValue = .obj [("id", .str ""), ("version", .str ""),
    ("root", .obj [("id", .str "a"), ("type", .str "t"), ("props", .obj []),
      ("condition", (Condition.nest n).toValue)])] := rfl

theorem depth_nest (n : Nat) : (nest n).toValue.depth = 2 * n + 4 := by
  simp only [toValue_nest, Value.depth, Value.depthOfMembers, Condition.depth_nest]
  omega

theorem numbers_nest (n : Nat) : (nest n).toValue.numbers = [] := by
  simp [toValue_nest, Value.numbers, Value.numbersOfMembers, Condition.numbers_nest]

/-- With 62 conditions inside of one, a text of 127 lists and objects in each other is loaded, and
what is saved for it is a list too deep. -/
theorem saved_too_deep :
    ofText (Json.compact (nestDocument 62)) = .ok (nest 62) ∧ (nestDocument 62).numbers = [] ∧
      (nest 62).toValue.numbers = [] ∧ ∀ q, ofText (nest 62).canonical ≠ .ok q := by
  have numbers : ∀ m ∈ (nestDocument 62).numbers, Lossless m := by
    rw [numbers_nestDocument]
    exact List.forall_mem_nil _
  have numbers' : ∀ m ∈ (nest 62).toValue.numbers, Lossless m := by
    rw [numbers_nest]
    exact List.forall_mem_nil _
  have loaded : ofText (Json.compact (nestDocument 62)) = .ok (nest 62) := by
    rw [ofText_compact_of_depth_le numbers (by rw [depth_nestDocument]; decide),
      ofTree_nestDocument]
  refine ⟨loaded, numbers_nestDocument 62, numbers_nest 62, fun q read ↦ ?_⟩
  obtain ⟨-, shallow⟩ := (Loaded.ofText_canonical_iff (.inr ⟨_, loaded⟩) numbers').mp read
  rw [depth_nest] at shallow
  exact absurd shallow (by decide)

end Page

end LivePage
