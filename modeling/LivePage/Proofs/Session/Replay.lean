import Mathlib
import LivePage.Proofs.Context.Document
import LivePage.Proofs.Session.Course

/-!
# What is announced of writes is all that is written

Whoever follows the announcements of writes, and writes the same into what the state and the
variables were before, has what they are afterwards.  Nothing else of the context is ever written.
-/

namespace LivePage

variable {s t u : Interaction} {k : Namespace} {ns ms : List Notice}

/-! ## Replaying -/

/-- Does the write that an event tells of, if that is in this part of the context. -/
def Event.replay (k : Namespace) (root : Value) (e : Event) : Value :=
  match e.update? with
  | some (j, path) =>
    if j = k then (Value.write (e.parameter "value") (Path.parse path) root).1 else root
  | none => root

/-- What the events among announcements make of a part of the context, one after another. -/
def replay (k : Namespace) (ns : List Notice) (root : Value) : Value :=
  (ns.filterMap Notice.event?).foldl (Event.replay k) root

@[simp] theorem replay_nil (k : Namespace) (root : Value) : replay k [] root = root := rfl

theorem replay_append (k : Namespace) (ns ms : List Notice) (root : Value) :
    replay k (ns ++ ms) root = replay k ms (replay k ns root) := by
  rw [replay, List.filterMap_append, List.foldl_append]
  rfl

@[simp] theorem replay_error (k : Namespace) (e : ErrorEvent) (root : Value) :
    replay k [.error e] root = root := rfl

@[simp] theorem replay_event (k : Namespace) (e : Event) (root : Value) :
    replay k [.event e] root = e.replay k root := rfl

/-- Events tell of writes of the state and the variables only. -/
theorem Event.replay_of_ne (hs : k ≠ .state) (hv : k ≠ .vars) (root : Value) (e : Event) :
    e.replay k root = root := by
  unfold replay update?
  cases e.kind with
  | stateUpdated key => exact if_neg hs.symm
  | variableUpdated key => exact if_neg hv.symm
  | _ => rfl

theorem replay_of_ne (hs : k ≠ .state) (hv : k ≠ .vars) (ns : List Notice) (root : Value) :
    replay k ns root = root := by
  unfold replay
  induction ns.filterMap Notice.event? generalizing root with
  | nil => rfl
  | cons e r ih => rw [List.foldl_cons, Event.replay_of_ne hs hv, ih]

/-! ## Writes -/

/-- A write that does not fail is the write at the same path of its part, and of no other. -/
theorem Context.snapshot_write {c : Context} {p : Path} {v : Value} (hk : k.Writable)
    (h : (c.write k v p).2 = none) (j : Namespace) :
    (c.write k v p).1.snapshot j =
      if k = j then (Value.write v p (c.snapshot j)).1 else c.snapshot j := by
  have late (hp : p = [] ∨ ∃ i rest, p = .index i :: rest) : False := by
    obtain ⟨-, hf⟩ := write_fails_at_once (c := c) (k := k) v (.inr hp)
    rw [h] at hf
    cases hf
  match p with
  | [] => exact (late (.inl rfl)).elim
  | .index i :: rest => exact (late (.inr ⟨i, rest, rfl⟩)).elim
  | .key key :: rest =>
    obtain ⟨hs, -, hne⟩ := snapshot_write_key (c := c) hk v key rest
    split
    · next he => exact he ▸ hs
    · next he => exact hne j (Ne.symm he)

/-! ## Logs -/

/-- These are announced between two interactions, and tell of all that is written between them. -/
structure Logs (s : Interaction) (ns : List Notice) (t : Interaction) : Prop where
  notices : t.notices = s.notices ++ ns
  replay : ∀ k, replay k ns (s.context.snapshot k) = t.context.snapshot k

namespace Logs

/-- Nothing is written or announced. -/
theorem silent (hc : t.context = s.context) (hn : t.notices = s.notices) : Logs s [] t where
  notices := by rw [hn, List.append_nil]
  replay k := by rw [hc, replay_nil]

/-- Something that tells of no write is announced, and nothing is written. -/
theorem announced {n : Notice} (hc : t.context = s.context) (hn : t.notices = s.notices ++ [n])
    (he : ∀ e, n.event? = some e → e.update? = none) : Logs s [n] t where
  notices := hn
  replay k := by
    rw [hc]
    cases n with
    | error e => exact replay_error k e _
    | event e => rw [replay_event, Event.replay, he e rfl]

theorem trans (h : Logs s ns t) (h' : Logs t ms u) : Logs s (ns ++ ms) u where
  notices := by rw [h'.notices, h.notices, List.append_assoc]
  replay k := by rw [replay_append, h.replay, h'.replay]

/-- A write that does not fail is announced as it is done. -/
theorem write {kind : EventKind} {path : String} {v : Value} (hk : k.Writable)
    (hu : Event.update? ⟨kind, [("value", v)]⟩ = some (k, path))
    (h : (s.context.assign k path v).2 = none) :
    Logs s [.event ⟨kind, [("value", v)]⟩] (s.write k kind path v).1 := by
  have hw : (s.write k kind path v).1 =
      { s with context := (s.context.assign k path v).1 }.notify kind [("value", v)] := by
    unfold Interaction.write
    split
    · next hc => rw [hc]
    · next hc =>
      rw [hc] at h
      cases h
  have hv : Event.parameter ⟨kind, [("value", v)]⟩ "value" = v := rfl
  rw [hw]
  refine ⟨rfl, fun j ↦ ?_⟩
  rw [replay_event, Event.replay, hu]
  simp only [hv]
  exact (Context.snapshot_write hk h j).symm

end Logs

namespace Moment

variable {st : Setting} {m : Moment}

/-- A write of the state or the variables fails. -/
def Fails (m : Moment) : Prop :=
  match m.deed with
  | .setState key v => (m.before.context.assign .state key v).2 ≠ none
  | .setVariable key v => (m.before.context.assign .vars key v).2 ≠ none
  | _ => False

/-- A moment in which no write fails announces what it writes, and writes nothing else. -/
theorem exists_logs (hp : m.deed.Plain) (hf : ¬m.Fails) :
    ∃ ns, Logs m.before ns (m.after st) := by
  obtain ⟨depth, deed, s⟩ := m
  cases deed with
  | decide event data =>
    obtain ⟨_, _, _, h, -⟩ := Dispatch.exists_decide_eq st (st.limit - depth) event data s
    have hc := congrArg Interaction.context h
    have hn := congrArg Interaction.notices h
    refine ⟨_, .announced hc hn ?_⟩
    rintro e ⟨⟩
    rfl
  | pass | perform => exact ⟨[], .silent rfl rfl⟩
  | setState key v =>
    exact ⟨_, .write (k := .state) ⟨nofun, nofun⟩ rfl (Classical.not_not.mp hf)⟩
  | setVariable key v =>
    exact ⟨_, .write (k := .vars) ⟨nofun, nofun⟩ rfl (Classical.not_not.mp hf)⟩
  | ask r =>
    simp only [after, Deed.act, Interaction.ask]
    split
    · refine ⟨_, .announced rfl rfl ?_⟩
      rintro e ⟨⟩
      rfl
    · exact ⟨[], .silent rfl rfl⟩
  | call c =>
    simp only [after, Deed.act, Interaction.call]
    split
    · exact ⟨[], .silent rfl rfl⟩
    · exact ⟨[], .silent rfl rfl⟩
  | announce e =>
    refine ⟨_, .announced rfl rfl ?_⟩
    rintro e ⟨⟩
    exact hp
  | fail x id e => exact ⟨_, .announced rfl rfl nofun⟩

/-- Moments in which no write fails announce what they write, and write nothing else. -/
theorem Joined.exists_logs {ms : List Moment} (h : Joined st s ms t)
    (hp : ∀ m ∈ ms, m.deed.Plain) (hf : ∀ m ∈ ms, ¬m.Fails) : ∃ ns, Logs s ns t := by
  refine h.invariant (R := fun i j ↦ ∃ ns, Logs i ns j) (fun i ↦ ⟨[], .silent rfl rfl⟩) ?_
    fun m hm ↦ Moment.exists_logs (hp m hm) (hf m hm)
  rintro i j k ⟨ns, h⟩ ⟨ms, h'⟩
  exact ⟨ns ++ ms, h.trans h'⟩

end Moment

namespace Session

/-- A dispatch comes about in some course.  In each of its courses in which no write fails, the
announcements of writes, replayed one after another on what the state and the variables were before,
give what they are afterwards; the other parts of the context are as they were. -/
theorem replay_dispatch (s : Session) (event : String) (data : Value) :
    (∃ ms t, s.Dispatches event data ms t ∧ (s.dispatch event data).1 = s.absorb t) ∧
    ∀ ms t, s.Dispatches event data ms t → (∀ m ∈ ms, ¬m.Fails) →
      ∃ ns, (s.absorb t).interaction.notices = s.interaction.notices ++ ns ∧
        replay .state ns (s.context.snapshot .state) = (s.absorb t).context.snapshot .state ∧
        replay .vars ns (s.context.snapshot .vars) = (s.absorb t).context.snapshot .vars ∧
        ∀ k, k ≠ .state → k ≠ .vars → (s.absorb t).context.snapshot k = s.context.snapshot k := by
  refine ⟨s.exists_dispatches event data, ?_⟩
  rintro ms t ⟨course, joined⟩ hf
  obtain ⟨ns, hn, hr⟩ := joined.exists_logs (fun m hm ↦ (course.bound m hm).plain) hf
  refine ⟨ns, hn, hr .state, hr .vars, fun k hs hv ↦ ?_⟩
  rw [← replay_of_ne hs hv ns (s.context.snapshot k)]
  exact (hr k).symm

/-- A button that switches a light on announces that it did. -/
theorem replays_switch :
    let a : Action := { kind := .setState, config := [("key", .str "on"), ("value", .bool true)] }
    let s := (start {} [] (.alone 0) {}).register "button" { event := "press", actions := [a] }
    ∃ ms t, s.Dispatches "press" .null ms t ∧ (∀ m ∈ ms, ¬m.Fails) ∧
      t.context.snapshot .state = .obj [("on", .bool true)] ∧
      ∃ ns, t.notices = s.interaction.notices ++ ns ∧
        replay .state ns (.obj []) = .obj [("on", .bool true)] := by
  intro a s
  have handlers : Dispatch.admitted s.setting 32 "press" .null s.interaction =
      [⟨"button", { event := "press", actions := [a] }, 0⟩] := by
    cbv
  have order (env : Env) : Order.ofAction env a = .ok (.setState "on" (.bool true)) := by
    cbv
  have path : Path.parse "on" = [.key "on"] := by decide
  generalize hi : (Dispatch.decide s.setting 32 "press" .null s.interaction).2 = i
  have context : i.context = {} := by
    obtain ⟨_, _, _, h, -⟩ := Dispatch.exists_decide_eq s.setting 32 "press" .null s.interaction
    rw [← hi, h]
    rfl
  have written : i.context.assign .state "on" (.bool true) =
      ({ state := [("on", .bool true)] }, none) := by
    rw [Context.assign, path, context]
    rfl
  have done : i.setState "on" (.bool true) =
      ({ i with context := { state := [("on", .bool true)] } }.notify (.stateUpdated "on")
        [("value", .bool true)], .ok ()) := by
    rw [Interaction.setState, Interaction.write, written]
  have actions : Course s.setting 0 (.actions [a] .null)
      [⟨0, .perform a, i⟩, ⟨0, .setState "on" (.bool true), i⟩] (.ok ()) := by
    have set : Course s.setting 0 (.order (.setState "on" (.bool true)) .null)
        [⟨0, .setState "on" (.bool true), i⟩] (i.setState "on" (.bool true)).2 := .setState
    rw [done] at set
    have performed : Course s.setting 0 (.perform a .null) _ (.ok ()) :=
      .performed (s := i) rfl (order _) set
    exact .moreActions (Nat.zero_le _) (.unfailed (.done performed rfl)) (.noActions (Nat.zero_le _))
  have course : s.Dispatches "press" .null [⟨0, .decide "press" .null, s.interaction⟩,
      ⟨0, .perform a, i⟩, ⟨0, .setState "on" (.bool true), i⟩]
      (i.setState "on" (.bool true)).1 := by
    refine ⟨.event ?_, rfl, hi.symm, rfl, rfl⟩
    rw [show s.setting.limit - 0 = 32 from rfl, handlers]
    exact .moreHandlers (.handled actions) .noHandlers (.append _ [])
  have unfailed : ∀ m ∈ [(⟨0, .decide "press" .null, s.interaction⟩ : Moment),
      ⟨0, .perform a, i⟩, ⟨0, .setState "on" (.bool true), i⟩], ¬m.Fails := by
    simp [Moment.Fails, written]
  obtain ⟨ns, notices, state, -⟩ :=
    (replay_dispatch s "press" .null).2 _ _ course unfailed
  have final : (i.setState "on" (.bool true)).1.context.snapshot .state =
      .obj [("on", .bool true)] := by
    rw [done]
    rfl
  exact ⟨_, _, course, unfailed, final, ns, notices, state.trans final⟩

end Session

end LivePage
