import LivePage.Page.Decode
import LivePage.Path
import LivePage.Proofs.Json.Member
import LivePage.Proofs.Page.Reload

/-!
# Tags in documents

A document of a page is made of records, lists of them and tags, and a path leads from the document
to each of these.  A tag says which binding, comparison, action or condition stands there.  A tag
that is known has a name, and some may be written otherwise as well.
-/

namespace LivePage

open Json (Tree)

/-- What a tag says the kind of. -/
inductive Subject where
  | binding
  | comparison
  | action
  | condition
deriving DecidableEq, Repr

/-- A tag as it is written: its name, or its place among all tags. -/
inductive Spelling where
  | text (name : String)
  | number (n : Nat)
deriving DecidableEq, Repr

def Spelling.ofTree? : Tree → Option Spelling
  | .str s => some (.text s)
  | .num (.int n) => if 0 ≤ n then some (.number n.toNat) else none
  | _ => none

namespace Subject

/-- The names of the tags that are known, and how else each is written. -/
def known : Subject → List (String × List Spelling)
  | binding =>
    [("static", []), ("expression", []), ("datasource", []), ("state", []), ("variable", []),
      ("context", []), ("computed", [])]
  | comparison =>
    [("equals", [.text "=="]), ("notEquals", [.text "!="]), ("contains", []), ("notContains", []),
      ("greaterThan", [.text ">"]), ("lessThan", [.text "<"]),
      ("greaterThanOrEqual", [.text ">="]), ("lessThanOrEqual", [.text "<="]), ("isEmpty", []),
      ("isNotEmpty", []), ("in", []), ("notIn", []), ("startsWith", []), ("endsWith", []),
      ("matches", [])]
  | action =>
    [("setState", []), ("setVariable", []), ("callApi", [.text "callAPI"]), ("navigate", []),
      ("showMessage", []), ("openModal", []), ("closeModal", []),
      ("executeCode", [.text "customCode"]), ("triggerEvent", []), ("callFunction", []),
      ("condition", []), ("loop", []), ("parallel", []), ("sequence", []), ("updateComponent", []),
      ("showComponent", []), ("hideComponent", []), ("showNotification", []), ("callWorkflow", [])]
  | condition => [("simple", [.number 0]), ("complex", [.number 1]), ("raw", [.number 2])]

/-- The name of a tag that is known. -/
def name? (f : Subject) (spelling : Spelling) : Option String :=
  (f.known.find? fun x ↦ spelling == .text x.1 || x.2.contains spelling).map Prod.fst

/-- A tag that is known goes by its name, and any other one as it is. -/
def canonical (f : Subject) (spelling : Spelling) : Spelling :=
  (f.name? spelling).elim spelling .text

/-- What is written for a tag: a condition that is not known has lost its tag. -/
def written (f : Subject) (spelling : Spelling) : Spelling :=
  match f, f.name? spelling with
  | _, some name => .text name
  | condition, none => .text "unknown"
  | _, none => spelling

variable {f : Subject} {spelling : Spelling}

/-- What is written for a tag is its canonical form, but for conditions that are not known. -/
theorem written_eq_canonical_iff :
    f.written spelling = f.canonical spelling ↔
      (f = condition → f.name? spelling = none → spelling = .text "unknown") := by
  unfold written canonical
  cases f.name? spelling with
  | some name => exact ⟨fun _ _ ↦ nofun, fun _ ↦ rfl⟩
  | none =>
    cases f with
    | condition => exact ⟨fun h _ _ ↦ h.symm, fun h ↦ (h rfl rfl).symm⟩
    | _ => exact ⟨fun _ ↦ nofun, fun _ ↦ rfl⟩

/-- Where kinds that are known are written by their names, and any other one as it is, a tag is
written as it should be. -/
theorem written_of_known {κ : Type} {tag : κ → String} {known : List κ} {spells : κ → Bool}
    {unknown : κ} {s : String} (h : f ≠ condition) (others : κ → List Spelling)
    (table : known.map (fun k ↦ (tag k, others k)) = f.known)
    (spelled : ∀ k, spells k = (Spelling.text s == .text (tag k) || (others k).contains (.text s)))
    (kept : tag unknown = s) :
    Spelling.text (tag ((known.find? spells).getD unknown)) = f.written (.text s) := by
  have same : (fun x : String × List Spelling ↦
      Spelling.text s == .text x.1 || x.2.contains (.text s)) ∘
      (fun k ↦ (tag k, others k)) = spells := funext fun k ↦ (spelled k).symm
  rw [written_eq_canonical_iff.mpr fun here ↦ absurd here h, canonical, name?, ← table,
    List.find?_map, same]
  cases known.find? spells with
  | none => exact congrArg Spelling.text kept
  | some k => rfl

theorem text_beq (s t : String) : (Spelling.text s == .text t) = (t == s) := by
  rw [Bool.eq_iff_iff, beq_iff_eq, beq_iff_eq, Spelling.text.injEq, eq_comm]

theorem contains_toList (s : String) (t? : Option String) :
    ((t?.map Spelling.text).toList.contains (.text s)) = (t? == some s) := by
  cases t? with
  | none => rfl
  | some t =>
    rw [Option.map_some, Option.toList_some, List.contains_cons, text_beq, List.contains_nil,
      Bool.or_false]
    rfl

theorem written_binding (s : String) :
    Spelling.text (BindingKind.ofTag s).tag = binding.written (.text s) :=
  written_of_known (by decide) (fun _ ↦ []) rfl (fun k ↦ by simp [text_beq]) rfl

theorem written_comparison (s : String) :
    Spelling.text (Comparison.ofTag s).tag = comparison.written (.text s) :=
  written_of_known (by decide) (fun c ↦ (c.symbol?.map Spelling.text).toList) rfl
    (fun k ↦ by rw [text_beq, contains_toList]) rfl

theorem written_action (s : String) :
    Spelling.text (ActionKind.ofTag s).tag = action.written (.text s) :=
  written_of_known (by decide) (fun k ↦ (k.alias?.map Spelling.text).toList) rfl
    (fun k ↦ by rw [text_beq, contains_toList]) rfl

end Subject

/-- What a document of a page is made of. -/
inductive Shape where
  | page
  | node
  | binding
  | handler
  | action
  | condition
  | tag (f : Subject)
  | list (items : Shape)
  | named (members : Shape)
deriving DecidableEq, Repr

namespace Shape

/-- The kind of a condition, if it is known. -/
def kind? (t : Tree) : Option String :=
  (Spelling.ofTree? (t.member ["type"] "type")).bind Subject.condition.name?

/-- The fields of a condition, which its kind decides. -/
def fieldsOfKind : Option String → List (String × Option Shape)
  | some "simple" => [("field", none), ("operator", some (.tag .comparison)), ("value", none)]
  | some "complex" => [("logic", none), ("conditions", some (.list .condition))]
  | some "raw" => [("expression", none)]
  | _ => []

/-- The fields of a record in their order, with the parts that may hold tags. -/
def fields (t : Tree) : Shape → List (String × Option Shape)
  | page => [("id", none), ("version", none), ("name", none), ("root", some node), ("meta", none)]
  | node =>
    [("id", none), ("type", none), ("props", none), ("style", none), ("layout", none),
      ("bindings", some (list binding)), ("events", some (list handler)),
      ("condition", some condition), ("loop", none), ("children", some (list node)),
      ("slots", some (named (list node))), ("meta", none)]
  | binding =>
    [("target", none), ("type", some (tag .binding)), ("source", none), ("transform", none),
      ("defaultValue", none), ("mode", none)]
  | handler =>
    [("event", none), ("actions", some (list action)), ("condition", some condition),
      ("debounce", none), ("throttle", none)]
  | action =>
    [("type", some (tag .action)), ("config", none), ("condition", some condition),
      ("onError", some (list action)), ("onSuccess", some (list action))]
  | condition => ("type", some (tag .condition)) :: fieldsOfKind (kind? t)
  | tag _ | list _ | named _ => []

/-- A field of a record that may hold tags. -/
def field? (record : Shape) (t : Tree) (k : String) : Option (Shape × Tree) :=
  ((record.fields t).lookup k).join.map (·, t.member ((record.fields t).map Prod.fst) k)

/-- The part of a document that is one step below another one. -/
def below? : Shape → Tree → Segment → Option (Shape × Tree)
  | list shape, t, .index i => t.items[i]?.map (shape, ·)
  | named shape, t, .key k => some (shape, t.named k)
  | record, t, .key k => record.field? t k
  | _, _, .index _ => none

def at? : Shape → Tree → Path → Option (Shape × Tree)
  | shape, t, [] => some (shape, t)
  | shape, t, s :: place => (shape.below? t s).bind fun x ↦ x.1.at? x.2 place

end Shape

/-- The tag at a place of a document of a page. -/
def Page.spellingAt? (document : Tree) (place : Path) : Option (Subject × Spelling) :=
  match Shape.page.at? document place with
  | some (.tag f, t) => (Spelling.ofTree? t).map (f, ·)
  | _ => none

end LivePage
