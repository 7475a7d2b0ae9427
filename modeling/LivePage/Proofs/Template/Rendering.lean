import Mathlib
import LivePage.Proofs.Template.Interpolation

/-!
# Values with templates in them

Lists and objects are rendered member by member: the texts in a value give way to what they are
rendered to, and the first of them that fails ends the whole.
-/

namespace LivePage

namespace Value

mutual

/-- The texts in a value, in their order. -/
def texts : Value → List String
  | str s => [s]
  | arr items => textsOfItems items
  | obj members => textsOfMembers members
  | _ => []

def textsOfItems : List Value → List String
  | [] => []
  | v :: r => v.texts ++ textsOfItems r

def textsOfMembers : Fields Value → List String
  | [] => []
  | (_, v) :: r => v.texts ++ textsOfMembers r

end

mutual

/-- The same value with other ones in the places of its texts. -/
def replaceTexts (f : String → Value) : Value → Value
  | str s => f s
  | arr items => arr (replaceItems f items)
  | obj members => obj (replaceMembers f members)
  | v => v

def replaceItems (f : String → Value) : List Value → List Value
  | [] => []
  | v :: r => v.replaceTexts f :: replaceItems f r

def replaceMembers (f : String → Value) : Fields Value → Fields Value
  | [] => []
  | (k, v) :: r => (k, v.replaceTexts f) :: replaceMembers f r

end

end Value

namespace Template

variable {env : Env} {f : String → Value}

mutual

/-- A value whose texts are rendered has what they are rendered to in their places. -/
theorem render_replaceTexts : (v : Value) → (∀ s ∈ v.texts, renderText env s = .ok (f s)) →
    render env v = .ok (v.replaceTexts f)
  | .null, _ | .bool _, _ | .num _, _ => rfl
  | .str s, h => h s List.mem_cons_self
  | .arr items, h => by rw [render, renderItems_replaceItems items h]; rfl
  | .obj members, h => by rw [render, renderMembers_replaceMembers members h]; rfl

theorem renderItems_replaceItems : (items : List Value) →
    (∀ s ∈ Value.textsOfItems items, renderText env s = .ok (f s)) →
    renderItems env items = .ok (Value.replaceItems f items)
  | [], _ => rfl
  | v :: r, h => by
    have head := render_replaceTexts v fun s hs ↦ h s (List.mem_append_left _ hs)
    have tail := renderItems_replaceItems r fun s hs ↦ h s (List.mem_append_right _ hs)
    rw [renderItems, head, tail]
    rfl

theorem renderMembers_replaceMembers : (members : Fields Value) →
    (∀ s ∈ Value.textsOfMembers members, renderText env s = .ok (f s)) →
    renderMembers env members = .ok (Value.replaceMembers f members)
  | [], _ => rfl
  | (k, v) :: r, h => by
    have head := render_replaceTexts v fun s hs ↦ h s (List.mem_append_left _ hs)
    have tail := renderMembers_replaceMembers r fun s hs ↦ h s (List.mem_append_right _ hs)
    rw [renderMembers, head, tail]
    rfl

end

mutual

/-- A value fails as the first of its texts that fails. -/
theorem failure?_render : (v : Value) →
    failure? (render env v) = v.texts.findSome? fun s ↦ failure? (renderText env s)
  | .null | .bool _ | .num _ => rfl
  | .str s => by
    rw [render, Value.texts, List.findSome?_singleton]
  | .arr items => by rw [render, failure?_map, failure?_renderItems, Value.texts]
  | .obj members => by rw [render, failure?_map, failure?_renderMembers, Value.texts]

theorem failure?_renderItems : (items : List Value) → failure? (renderItems env items) =
    (Value.textsOfItems items).findSome? fun s ↦ failure? (renderText env s)
  | [] => rfl
  | v :: r => by
    rw [renderItems, Value.textsOfItems, List.findSome?_append, ← failure?_render v,
      ← failure?_renderItems r]
    exact failure?_bind fun _ ↦ failure?_map _ _

theorem failure?_renderMembers : (members : Fields Value) → failure? (renderMembers env members) =
    (Value.textsOfMembers members).findSome? fun s ↦ failure? (renderText env s)
  | [] => rfl
  | (k, v) :: r => by
    rw [renderMembers, Value.textsOfMembers, List.findSome?_append, ← failure?_render v,
      ← failure?_renderMembers r]
    exact failure?_bind fun _ ↦ failure?_map _ _

end

/-- Templates are rendered in one pass.  A text without braces but those around its expressions is
what `valueOfWritten` says: the text itself without expressions, the value of the expression with
nothing but blanks around it, and else the text with the values of the expressions in their places
as they are displayed, or the first failure of one.  In any other value the texts give way to what
they are rendered to, and nothing else changes; it fails as the first of them that fails. -/
theorem renders_in_one_pass (env : Env) :
    (∀ (l : List Char) (parts : List (List Char × List Char)), Plain l →
      (∀ q ∈ parts, IsCode q.1 ∧ Plain q.2) →
      render env (.str (String.ofList (written l parts))) = valueOfWritten env l parts) ∧
    (∀ (v : Value) (f : String → Value), (∀ s ∈ v.texts, render env (.str s) = .ok (f s)) →
      render env v = .ok (v.replaceTexts f)) ∧
    ∀ (v : Value) (before after : List String) (s : String) (e : ExprError),
      v.texts = before ++ s :: after → (∀ t ∈ before, ∃ w, render env (.str t) = .ok w) →
      render env (.str s) = .error e → render env v = .error e := by
  refine ⟨fun l parts ↦ renderText_written, fun v f ↦ render_replaceTexts v, ?_⟩
  intro v before after s e hv hbefore hs
  refine failure?_eq_some_iff.mp ((failure?_render v).trans (List.findSome?_eq_some_iff.mpr ?_))
  exact ⟨before, s, after, hv, failure?_eq_some_iff.mpr hs, fun t ht ↦
    failure?_eq_none_iff.mpr (hbefore t ht)⟩

/-- A name that looks like a template stands in the text as it is, an expression keeps its type
where it is alone, and what is no text stays; of two names without a value the first one fails. -/
theorem renders_name_once :
    let env : Env := ⟨[("id", .int 7), ("name", .str "{{ id }}")], 0⟩
    let card := Value.obj [("id", .str " {{id}}\n"),
      ("lines", .arr [.str "Hi {{ name }}, you are {{ id }}.", .bool true])]
    let broken := Value.arr [.str "{{ id }}", .str "a {{ none }}", .str "{{ nil }}"]
    render env card = .ok (.obj [("id", .int 7),
      ("lines", .arr [.str "Hi {{ id }}, you are 7.", .bool true])]) ∧
    render env broken = .error (.evaluation "none" (.undefinedVariable "none")) := by
  intro env card broken
  obtain ⟨written, replaced, failed⟩ := renders_in_one_pass env
  have alone : render env (.str " {{id}}\n") = .ok (.int 7) :=
    (written [' '] [("id".toList, ['\n'])] (by decide) (by decide)).trans (by cbv)
  have line : render env (.str "Hi {{ name }}, you are {{ id }}.") =
      .ok (.str "Hi {{ id }}, you are 7.") :=
    (written "Hi ".toList [(" name ".toList, ", you are ".toList), (" id ".toList, ['.'])]
      (by decide) (by decide)).trans (by cbv)
  have first : render env (.str "{{ id }}") = .ok (.int 7) :=
    (written [] [(" id ".toList, [])] (by decide) (by decide)).trans (by cbv)
  have second : render env (.str "a {{ none }}") =
      .error (.evaluation "none" (.undefinedVariable "none")) :=
    (written "a ".toList [(" none ".toList, [])] (by decide) (by decide)).trans (by cbv)
  constructor
  · refine replaced card (fun s ↦ if s = " {{id}}\n" then .int 7
      else .str "Hi {{ id }}, you are 7.") fun s hs ↦ ?_
    rcases List.mem_cons.mp hs with rfl | hs
    · exact alone
    · obtain rfl := List.mem_singleton.mp hs
      exact line
  · exact failed broken ["{{ id }}"] ["{{ nil }}"] _ _ rfl
      (fun t ht ↦ ⟨_, List.mem_singleton.mp ht ▸ first⟩) second

end Template

end LivePage
