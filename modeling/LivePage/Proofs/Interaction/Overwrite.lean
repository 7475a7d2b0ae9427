import LivePage.Interaction.Run
import LivePage.Proofs.Context.Document
import LivePage.Proofs.Path.Lens

/-!
# What is read can be written

Reading and writing follow the same paths, but for two things: a key selects an item of a list when
it is read and never when it is written, and a part of a context is read as a whole by a path
without segments, at which nothing is written.
-/

namespace LivePage

namespace Context

variable {c : Context} {k : Namespace} {v w : Value} {p : Path}

/-- Where a member of a part is found without naming an item by a key, a write succeeds. -/
theorem write_of_get?_eq_some (hk : k.Writable) (hp : p ≠ [])
    (hw : (c.snapshot k).get? p = some w) (hn : ¬(c.snapshot k).NamesItem p) :
    (c.write k v p).2 = none := by
  obtain ⟨m, -, hs⟩ := exists_entries_of_writable (c := c) hk
  match p with
  | [] => exact absurd rfl hp
  | .index i :: rest => simp [hs, Value.step?] at hw
  | .key key :: rest =>
    rw [(snapshot_write_key hk v key rest).2.1]
    exact Value.write_of_get?_eq_some hw hn

/-- A path without segments reads a part as a whole, and nothing is written at it. -/
theorem assign_of_parse_eq_nil {path : String} (hk : k.Writable) (hp : Path.parse path = []) :
    c.lookup k path = c.snapshot k ∧ c.assign k path v = (c, some .empty) := by
  obtain ⟨m, hm, -⟩ := exists_entries_of_writable (c := c) hk
  rw [lookup, resolve_eq_getD, assign, hp, write, hm]
  exact ⟨rfl, rfl⟩

end Context

namespace Interaction

theorem write_of_assign {s : Interaction} {k : Namespace} {kind : EventKind} {path : String}
    {v : Value} (h : (s.context.assign k path v).2 = none) :
    (s.write k kind path v).2 = .ok () := by
  unfold write
  split
  · rfl
  · next hc => simp [hc] at h

end Interaction

namespace Order

variable {env : Env} {a : Action} {config : Fields Value} {kind : ActionKind} {path : String}

theorem ofAction_of_render (ha : isRendered a.kind = true)
    (hr : Template.renderMembers env a.config = .ok config) :
    ofAction env a = ofConfig a.kind config := by
  unfold ofAction
  split
  · next h => cases h ▸ ha
  · rw [if_pos ha, hr]
    rfl

theorem requiredText_of_empty (h : config.get? "key" = some (.str "")) :
    requiredText kind config "key" = .error (.missing kind.tag "key") := by
  rw [requiredText, required, h]
  rfl

theorem requiredText_of_get? (h : config.get? "key" = some (.str path)) (hpath : path ≠ "") :
    requiredText kind config "key" = .ok path := by
  unfold requiredText required
  rw [h]
  split
  · next h => cases h
  · next h => cases h
  · next h => exact absurd (Value.str.inj (Option.some.inj h)) hpath
  · next h => cases h; rfl

end Order

namespace Action

/-- The part of a context that an action of a kind writes at its key. -/
inductive Sets : ActionKind → Namespace → Prop
  | state : Sets .setState .state
  | vars : Sets .setVariable .vars

variable {st : Setting} {below : Option Below} {a : Action} {data : Value} {s : Interaction}
  {k : Namespace} {path : String} {config : Fields Value}

theorem Sets.writable {kind : ActionKind} (h : Sets kind k) : k.Writable := by
  cases h <;> exact ⟨nofun, nofun⟩

section

variable (ha : Sets a.kind k)
  (hr : Template.renderMembers (s.env st.host.clock data) a.config = .ok config)

include ha hr

/-- An action that sets a value is a write of it at the key. -/
theorem exists_perform_eq (below : Option Below) (hkey : config.get? "key" = some (.str path))
    (hpath : path ≠ "") : ∃ kind v, a.perform st below data s = s.write k kind path v := by
  generalize hkind : a.kind = kind at ha
  cases ha with
  | state =>
    rw [perform, Order.ofAction_of_render (by rw [hkind]; rfl) hr, hkind, Order.ofConfig,
      Order.requiredText_of_get? hkey hpath]
    exact ⟨_, _, rfl⟩
  | vars =>
    rw [perform, Order.ofAction_of_render (by rw [hkind]; rfl) hr, hkind, Order.ofConfig,
      Order.requiredText_of_get? hkey hpath]
    exact ⟨_, _, rfl⟩

/-- An action that sets a value needs a key that is not empty. -/
theorem perform_of_empty (hkey : config.get? "key" = some (.str "")) :
    a.perform st below data s = (s, .error (.missing a.kind.tag "key")) := by
  generalize hkind : a.kind = kind at ha
  cases ha with
  | state =>
    rw [perform, Order.ofAction_of_render (by rw [hkind]; rfl) hr, hkind, Order.ofConfig,
      Order.requiredText_of_empty hkey]
    rfl
  | vars =>
    rw [perform, Order.ofAction_of_render (by rw [hkind]; rfl) hr, hkind, Order.ofConfig,
      Order.requiredText_of_empty hkey]
    rfl

end

/-- What is read can be written, where no key names an item of a list.  A write at a path at which a
value is found succeeds; and at a path of the state or of the variables that has segments and leads
to a value, so does the write of another value with the same text, and with it an action that sets
the state or a variable.  A path without segments reads its part as a whole, while every write at it
fails and changes nothing, and so does every such action. -/
theorem readable_is_writable :
    (∀ (root : Value) (p : Path) (w v : Value), root.get? p = some w → ¬root.NamesItem p →
      (Value.write v p root).2 = none) ∧
    (∀ (s : Interaction) (k : Namespace) (kind : ActionKind) (path : String) (w : Value),
      Sets kind k → Path.parse path ≠ [] →
      (s.context.snapshot k).get? (Path.parse path) = some w →
      ¬(s.context.snapshot k).NamesItem (Path.parse path) →
      s.context.lookup k path = w ∧ (∀ v, (s.context.assign k path v).2 = none) ∧
      ∀ (st : Setting) (below : Option Below) (a : Action) (data : Value) (config : Fields Value),
        a.kind = kind → Template.renderMembers (s.env st.host.clock data) a.config = .ok config →
        config.get? "key" = some (.str path) → (a.perform st below data s).2 = .ok ()) ∧
    ∀ (s : Interaction) (k : Namespace) (kind : ActionKind) (path : String),
      Sets kind k → Path.parse path = [] →
      s.context.lookup k path = s.context.snapshot k ∧
      (∀ v, s.context.assign k path v = (s.context, some .empty)) ∧
      ∀ (st : Setting) (below : Option Below) (a : Action) (data : Value) (config : Fields Value),
        a.kind = kind → Template.renderMembers (s.env st.host.clock data) a.config = .ok config →
        config.get? "key" = some (.str path) → a.perform st below data s =
          (s, .error (if path = "" then .missing kind.tag "key" else .assign path .empty)) := by
  refine ⟨fun root p w v ↦ Value.write_of_get?_eq_some, fun s k kind path w hk hp hw hn ↦ ?_,
    fun s k kind path hk hp ↦ ?_⟩
  · have hassign (v : Value) : (s.context.assign k path v).2 = none :=
      Context.write_of_get?_eq_some hk.writable hp hw hn
    have hpath : path ≠ "" := by
      rintro rfl
      exact hp (by decide)
    refine ⟨?_, hassign, ?_⟩
    · rw [Context.lookup, Context.resolve_eq_getD, Value.getD, hw]
      rfl
    · rintro st below a data config rfl hr hkey
      obtain ⟨kind, v, he⟩ := exists_perform_eq hk hr below hkey hpath
      rw [he]
      exact Interaction.write_of_assign (hassign v)
  · have hassign (v : Value) := Context.assign_of_parse_eq_nil (c := s.context) (v := v)
      hk.writable hp
    refine ⟨(hassign .null).1, fun v ↦ (hassign v).2, ?_⟩
    rintro st below a data config rfl hr hkey
    by_cases hpath : path = ""
    · subst hpath
      rw [if_pos rfl, perform_of_empty hk hr hkey]
    · obtain ⟨kind, v, he⟩ := exists_perform_eq hk hr below hkey hpath
      rw [if_neg hpath, he, Interaction.write, (hassign v).2]

/-- A tag that is read can be written by an action with the same text, while the state as a whole,
which is read at a lone dot, is not written there. -/
theorem tag_is_writable :
    let c : Context := { state := [("tags", .arr [.str "new", .null])] }
    let a : Action := { kind := .setState, config := [("key", .str "tags[1]"), ("value", .int 1)] }
    let b : Action := { kind := .setState, config := [("key", .str "."), ("value", .int 1)] }
    (Value.write (.int 1) [.key "tags", .index 1] (c.snapshot .state)).2 = none ∧
    c.lookup .state "tags[1]" = .null ∧ (c.assign .state "tags[1]" (.int 1)).2 = none ∧
    (a.perform ⟨.alone 0, {}, 0, 8⟩ none .null { context := c }).2 = .ok () ∧
    c.lookup .state "." = .obj [("tags", .arr [.str "new", .null])] ∧
    b.perform ⟨.alone 0, {}, 0, 8⟩ none .null { context := c } =
      ({ context := c }, .error (.assign "." .empty)) := by
  intro c a b
  have hp : Path.parse "tags[1]" = [.key "tags", .index 1] := by decide
  have hn : ¬(c.snapshot .state).NamesItem [.key "tags", .index 1] := by
    rintro ⟨q, k, rest, items, h, hq⟩
    match q with
    | [] => cases hq
    | [_] => cases h
    | _ :: _ :: _ => simp at h
  obtain ⟨value, part, whole⟩ := readable_is_writable
  obtain ⟨hl, hw, hperform⟩ := part { context := c } .state .setState "tags[1]" .null .state
    (by simp [hp]) (by rw [hp]; rfl) (by rw [hp]; exact hn)
  obtain ⟨hl', -, hrefused⟩ := whole { context := c } .state .setState "." .state (by decide)
  exact ⟨value _ _ .null _ rfl hn, hl, hw _, hperform _ none a .null _ rfl (by cbv) rfl, hl',
    hrefused _ none b .null _ rfl (by cbv) rfl⟩

/-- The value of a list that is read by a key cannot be written, and neither can a part as a whole,
which is read by a path without segments. -/
theorem readable_not_writable :
    let root := Value.obj [("list", .arr [.int 1])]
    let s : Interaction := { context := { state := [("list", .arr [.int 1])] } }
    (root.lookup "list.0" = .int 1 ∧
      (Value.write (.int 2) (Path.parse "list.0") root).2 = some (.notContainer "0" "array")) ∧
    (s.context.lookup .state "list.0" = .int 1 ∧
      (s.setState "list.0" (.int 2)).2 = .error (.assign "list.0" (.notContainer "0" "array"))) ∧
    s.context.lookup .state "." = root ∧
    (s.setState "." (.obj [])).2 = .error (.assign "." .empty) := by
  have hp : Path.parse "list.0" = [.key "list", .key "0"] := by decide
  have he : Path.parse "." = [] := by decide
  simp only [Value.lookup, Context.lookup, Interaction.setState, Interaction.write, Context.assign,
    hp, he]
  exact ⟨⟨rfl, rfl⟩, ⟨rfl, rfl⟩, rfl, rfl⟩

end Action

end LivePage
