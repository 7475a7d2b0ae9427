import Mathlib
import LivePage.Proofs.Event.Log
import LivePage.Proofs.Interaction.Account
import LivePage.Proofs.Interaction.Waiting
import LivePage.Proofs.Session.Course
import LivePage.Proofs.Session.History

/-!
# Events have finitely many consequences

Handlers may trigger the events of one another, and their own.  But every step of a chain of actions
goes deeper, also where a run waits for its time in between, and no action is performed too deep.
-/

namespace LivePage

/-! ## What is put off -/

namespace Moment

/-- Only a decision puts runs off.  They are of handlers of its event, and go on at its depth. -/
theorem exists_deferrals (st : Setting) (m : Moment) :
    ∃ ds, (m.after st).deferrals = m.before.deferrals ++ ds ∧ ∀ d ∈ ds, ∃ event data,
      m.deed = .decide event data ∧ d.target ∈ st.registry.handlersFor event ∧
        d.level = st.limit - m.depth := by
  by_cases hd : m.deed.Decides
  · obtain ⟨depth, event, data, s, rfl⟩ := exists_decide_of_decides hd
    obtain ⟨_, _, ds, h, hd⟩ := Dispatch.exists_decide_eq st (st.limit - depth) event data s
    exact ⟨ds, congrArg Interaction.deferrals h, fun d hm ↦ ⟨event, data, rfl, hd d hm⟩⟩
  · obtain ⟨_, _, _, _, h, -⟩ := exists_after_eq st hd
    refine ⟨[], ?_, List.forall_mem_nil _⟩
    rw [h, List.append_nil]

end Moment

/-- What is put off in a course is of handlers of the events that are decided on in it. -/
theorem Moment.Joined.exists_deferrals {st : Setting} {s t : Interaction} {ms : List Moment}
    (h : Moment.Joined st s ms t) :
    ∃ ds, t.deferrals = s.deferrals ++ ds ∧ ∀ d ∈ ds, ∃ m ∈ ms, ∃ event data,
      m.deed = .decide event data ∧ d.target ∈ st.registry.handlersFor event ∧
        d.level = st.limit - m.depth := by
  refine h.invariant (R := fun i j ↦ ∃ ds, j.deferrals = i.deferrals ++ ds ∧ ∀ d ∈ ds,
    ∃ m ∈ ms, ∃ event data, m.deed = .decide event data ∧
      d.target ∈ st.registry.handlersFor event ∧ d.level = st.limit - m.depth)
    (fun i ↦ ⟨[], by rw [List.append_nil], List.forall_mem_nil _⟩) ?_ fun m hm ↦ ?_
  · rintro i j k ⟨ds, h, hd⟩ ⟨es, h', he⟩
    exact ⟨ds ++ es, by rw [h', h, List.append_assoc], List.forall_mem_append.mpr ⟨hd, he⟩⟩
  · obtain ⟨ds, h, hd⟩ := m.exists_deferrals st
    exact ⟨ds, h, fun d hm' ↦ ⟨m, hm, hd d hm'⟩⟩

/-- What happens at a depth that is in bounds is in bounds, and what is put off stays at its depth. -/
theorem Course.Bound.within {st : Setting} {d : Nat} {p : Part} {m : Moment}
    (h : Course.Bound st d p m) (hd : d ≤ st.limit) :
    m.depth ≤ st.limit ∧ ∀ x ∈ (m.after st).deferrals,
      x ∈ m.before.deferrals ∨ st.limit - x.level = m.depth := by
  have hm := h.depth_le hd
  refine ⟨hm, fun x hx ↦ ?_⟩
  obtain ⟨ds, he, hd⟩ := m.exists_deferrals st
  rw [he] at hx
  refine (List.mem_append.mp hx).imp id fun hx ↦ ?_
  obtain ⟨-, -, -, -, hl⟩ := hd x hx
  omega

namespace Session

variable {s t : Session} {i : Interaction} {ms : List Moment} {w : Waiting} {limit : Nat}

/-! ## What waits -/

/-- Nothing waits that is too deep, and all that was put off waits. -/
structure Orderly (limit : Nat) (s : Session) : Prop where
  config : s.config.executor.maxDepth = limit
  settled : s.interaction.deferrals = []
  levels : ∀ w ∈ s.waiting, w.run.level ≤ limit

namespace Orderly

theorem of_subset (h : Orderly limit s) (hc : t.config = s.config)
    (hd : t.interaction.deferrals = s.interaction.deferrals) (hw : t.waiting ⊆ s.waiting) :
    Orderly limit t where
  config := hc ▸ h.config
  settled := hd.trans h.settled
  levels w hm := h.levels w (hw hm)

theorem absorb (h : Orderly limit s) (hd : ∀ d ∈ i.deferrals, d.level ≤ limit) :
    Orderly limit (s.absorb i) where
  config := h.config
  settled := rfl
  levels w hm := (Waiting.mem_foldl_add hm).elim (h.levels w) (hd w.run)

theorem begin (h : Orderly limit s) (w : Waiting) : Orderly limit (s.begin w) :=
  h.of_subset rfl rfl List.filter_sublist.subset

/-- What a course puts off is not too deep. -/
theorem absorb_joined (h : Orderly limit s) (hj : Moment.Joined s.setting s.interaction ms i) :
    Orderly limit (s.absorb i) := by
  obtain ⟨ds, hi, hd⟩ := hj.exists_deferrals
  refine h.absorb fun d hm ↦ ?_
  rw [hi, h.settled] at hm
  obtain ⟨m, -, -, -, -, -, hl⟩ := hd d hm
  rw [hl]
  exact (Nat.sub_le ..).trans (Nat.le_of_eq h.config)

theorem exists_fires (h : Orderly limit s) (hw : w ∈ s.waiting) :
    ∃ ms i, s.Fires w ms i ∧ s.fire w = (s.begin w).absorb i :=
  Session.exists_fires ((h.levels w hw).trans (Nat.le_of_eq h.config.symm))

theorem fire (h : Orderly limit s) (hw : w ∈ s.waiting) : Orderly limit (s.fire w) := by
  obtain ⟨ms, i, ⟨-, hj⟩, hf⟩ := h.exists_fires hw
  rw [hf]
  exact (h.begin w).absorb_joined hj

theorem advance (h : Orderly limit s) (target : Nat) : Orderly limit (s.advance target) := by
  fun_induction Session.advance s target with
  | case1 s w hn ih => exact ih (h.fire (Waiting.mem_of_next? hn).1)
  | case2 s => exact h.of_subset rfl rfl (List.Subset.refl _)

end Orderly

theorem Orderly.after (h : Orderly limit s) (op : Operation) : Orderly limit (s.after op) := by
  cases op with
  | render c cancelled p o =>
    obtain ⟨_, _, _, he⟩ := s.exists_renderIn_eq c cancelled p o
    rw [Session.after, he]
    exact h.of_subset rfl rfl (List.Subset.refl _)
  | mount p =>
    obtain ⟨registry, he⟩ := s.exists_mount_eq p
    rw [Session.after, he]
    exact h.of_subset rfl rfl (List.Subset.refl _)
  | unmount p =>
    obtain ⟨registry, waiting, he, hw⟩ := s.exists_unregisterAll_eq p.nodes
    rw [Session.after, unmount, he]
    exact h.of_subset rfl rfl hw
  | unregister | clearHandlers => exact h.of_subset rfl rfl (cancel_subset ..)
  | advance duration => exact h.advance _
  | dispatch event data =>
    obtain ⟨ms, i, ⟨-, hj⟩, hd⟩ := s.exists_dispatches event data
    rw [Session.after, hd]
    exact h.absorb_joined hj
  | clearCache | register | assign | deliver => exact h.of_subset rfl rfl (List.Subset.refl _)

theorem orderly_run (config : Config) (components : Components) (host : Host) (context : Context)
    (ops : List Operation) :
    Orderly config.executor.maxDepth ((start config components host context).run ops) := by
  have h : Orderly config.executor.maxDepth (start config components host context) :=
    ⟨rfl, rfl, List.forall_mem_nil _⟩
  generalize start config components host context = s at h
  induction ops generalizing s with
  | nil => exact h
  | cons op r ih => exact ih _ (h.after op)

/-! ## Firings -/

/-- One of the runs that wait starts, whichever it is, and comes to its end in one of its courses. -/
inductive Firing (s : Session) : Session → Prop where
  | fire {w : Waiting} {ms : List Moment} {i : Interaction} (waits : w ∈ s.waiting)
      (fires : s.Fires w ms i) : Firing s ((s.begin w).absorb i)

/-- So many runs start, one after another. -/
inductive Firings : Nat → Session → Session → Prop where
  | none {s : Session} : Firings 0 s s
  | more {n : Nat} {s t u : Session} (first : Firing s t) (rest : Firings n t u) :
    Firings (n + 1) s u

/-- How much waits, where each level weighs more than all handlers on the level below it. -/
def weight (s : Session) : Nat := Waiting.weight s.registry.size s.waiting

theorem Firing.orderly (h : Firing s t) (hs : Orderly limit s) : Orderly limit t := by
  obtain ⟨-, ⟨-, hj⟩⟩ := h
  exact (hs.begin _).absorb_joined hj

/-- A run that starts puts off others only at greater depths. -/
theorem Firing.weight_lt (h : Firing s t) (hs : Orderly limit s) : t.weight < s.weight := by
  cases h with
  | @fire w ms i waits fires =>
    obtain ⟨course, joined⟩ := fires
    obtain ⟨ds, hi, hd⟩ := joined.exists_deferrals
    have hi : i.deferrals = ds := by rw [hi, hs.settled, List.nil_append]
    have hl := hs.levels w waits
    have hlimit : s.setting.limit = limit := hs.config
    refine Waiting.weight_foldl_add_lt waits (fun d hm ↦ ?_) fun d hm ↦ ?_
    · obtain ⟨-, -, event, -, -, ht, -⟩ := hd d (hi ▸ hm)
      exact (Registry.mem_handlersFor_iff.mp ht).1
    obtain ⟨m, hm, event, data, hdecides, -, he⟩ := hd d (hi ▸ hm)
    -- the run itself decides nothing at its own depth, only the events that it triggers do
    have hb := course.bound m hm
    have hlt := hb.lt_depth id (by rw [hdecides]; trivial)
    have hle := hb.depth_le (Nat.sub_le ..)
    have hst : (s.begin w).setting.limit = s.setting.limit := rfl
    rw [depthOf] at hlt
    omega

theorem Firings.orderly {n : Nat} (h : Firings n s t) (hs : Orderly limit s) : Orderly limit t := by
  induction h with
  | none => exact hs
  | more first _ ih => exact ih (first.orderly hs)

theorem Firings.add_weight_le {n : Nat} (h : Firings n s t) (hs : Orderly limit s) :
    n + t.weight ≤ s.weight := by
  induction h with
  | none => exact Nat.le_of_eq (Nat.zero_add _)
  | more first _ ih =>
    have := first.weight_lt hs
    have := ih (first.orderly hs)
    omega

/-- A run that waits can start. -/
theorem Orderly.firing (h : Orderly limit s) (hw : w ∈ s.waiting) : Firing s (s.fire w) := by
  obtain ⟨ms, i, hf, he⟩ := h.exists_fires hw
  rw [he]
  exact .fire hw hf

theorem advance_of_next? {target : Nat} (h : Waiting.next? target s.waiting = some w) :
    s.advance target = (s.fire w).advance target := by
  rw [advance]
  split
  · next he =>
    cases h.symm.trans he
    rfl
  · next he => cases h.symm.trans he

theorem advance_of_waiting_eq_nil (h : s.waiting = []) (target : Nat) :
    (s.advance target).waiting = [] := by
  rw [advance]
  split
  · next hn =>
    rw [h] at hn
    cases hn
  · exact h

/-- Once enough time has passed, nothing waits any more. -/
theorem Orderly.exists_advance (h : Orderly limit s) :
    ∃ enough, ∀ target, enough ≤ target → (s.advance target).waiting = [] := by
  induction hn : s.weight using Nat.strong_induction_on generalizing s with
  | _ n ih =>
    cases he : Waiting.earliest? s.waiting with
    | none => exact ⟨0, fun target _ ↦ advance_of_waiting_eq_nil (Waiting.eq_nil_of_earliest? he) _⟩
    | some w =>
      -- the earliest run is the first to start, however far the time goes on behind it
      have hw := Waiting.mem_of_earliest? he
      obtain ⟨enough, ha⟩ := ih _ (hn ▸ (h.firing hw).weight_lt h) (h.fire hw) rfl
      refine ⟨max w.due enough, fun target ht ↦ ?_⟩
      obtain ⟨hd, ht⟩ := Nat.max_le.mp ht
      have hnext : Waiting.next? target s.waiting = some w := by
        simp [Waiting.next?, he, hd]
      rw [advance_of_next? hnext]
      exact ha target ht

/-- A part that starts at some depth goes on to its end, whatever others do.  In each of its courses
it does not go back above that depth nor below the limit, and what is put off is to go on at the depth
at which it is put off. -/
structure Bounded (limit : Nat) (st : Setting) (d : Nat) (p : Part) : Prop where
  goes : ∀ others, ∃ ms, Course st d p ms (.ok ()) ∧ Found others [] ms
  within : ∀ ms o, Course st d p ms o → o = .ok () ∧ ∀ m ∈ ms, d ≤ m.depth ∧ m.depth ≤ limit ∧
    ∀ x ∈ (m.after st).deferrals, x ∈ m.before.deferrals ∨ limit - x.level = m.depth

theorem bounded_of_ok {st : Setting} {d : Nat} {p : Part}
    (hp : ∀ {ms o}, Course st d p ms o → o = .ok ())
    (go : ∀ others, Goes st others [] d p) (hd : d ≤ st.limit) : Bounded st.limit st d p where
  goes others := by
    obtain ⟨ms, o, course, found⟩ := go others
    cases hp course
    exact ⟨ms, course, found⟩
  within ms o course :=
    ⟨hp course, fun m hm ↦ ⟨(course.bound m hm).le_depth, (course.bound m hm).within hd⟩⟩

theorem bounded_event (st : Setting) (event : String) (data : Value) :
    Bounded st.limit st 0 (.event event data) := by
  refine bounded_of_ok (fun course ↦ ?_)
    (fun others ↦ goes_event (actionsGo st others 0) [] event data) (Nat.zero_le _)
  cases course
  rfl

theorem bounded_handler {st : Setting} {d : Nat} (hd : d ≤ st.limit) (x : Registered) (id : String)
    (data : Value) : Bounded st.limit st d (.handler x id data) :=
  bounded_of_ok Course.handler_ok
    (fun others ↦ goes_handler (actionsGo st others d) [] x id data) hd

/-- At any time in the history of a session, an event has finitely many consequences.  The dispatch
itself comes to its end, whatever others do; nothing in any of its courses is too deep, and what is
put off is to go on at the depth at which it is put off.  Runs that wait are started, in whatever
order, only so many times; each starts at the depth at which it was put off, comes to its end as well
and is never too deep; and once enough time has passed, none of them waits. -/
theorem consequences_finite (config : Config) (components : Components) (host : Host)
    (context : Context) (ops : List Operation) (event : String) (data : Value) :
    let s := (start config components host context).run ops
    let limit := config.executor.maxDepth
    (∃ ms i, s.Dispatches event data ms i ∧ (s.dispatch event data).1 = s.absorb i) ∧
    Bounded limit s.setting 0 (.event event data) ∧
    ∀ ms i, s.Dispatches event data ms i →
      (∀ n t, Firings n (s.absorb i) t → n ≤ (s.absorb i).weight ∧ ∀ w ∈ t.waiting,
        Firing t (t.fire w) ∧ Bounded limit (t.begin w).setting (limit - w.run.level)
          (.handler w.run.target w.run.executionId w.run.data)) ∧
      ∃ enough, ∀ target, enough ≤ target → ((s.absorb i).advance target).waiting = [] := by
  intro s limit
  have hs : Orderly limit s := orderly_run config components host context ops
  have hlimit : s.setting.limit = limit := hs.config
  refine ⟨s.exists_dispatches event data, hlimit ▸ bounded_event s.setting event data, ?_⟩
  rintro ms i ⟨-, joined⟩
  have hi : Orderly limit (s.absorb i) := hs.absorb_joined joined
  refine ⟨fun n t hf ↦ ⟨?_, fun w hw ↦ ⟨(hf.orderly hi).firing hw, ?_⟩⟩, hi.exists_advance⟩
  · exact (Nat.le_add_right ..).trans (hf.add_weight_le hi)
  · have ht : (t.begin w).setting.limit = limit := (hf.orderly hi).config
    rw [← ht]
    exact bounded_handler (Nat.sub_le ..) ..

/-- A clock that starts itself again and again comes to its end. -/
theorem clock_ends :
    let a : Action := { kind := .triggerEvent, config := [("event", .str "tick")] }
    let ops : List Operation :=
      [.register "clock" { event := "tick", actions := [a], debounce := some 10 }]
    let s := (start {} [] (.alone 0) {}).run ops
    (s.dispatch "tick" .null).1.waiting.length = 1 ∧
      ∃ enough, ∀ target, enough ≤ target →
        ((s.dispatch "tick" .null).1.advance target).waiting = [] := by
  intro a ops s
  refine ⟨by cbv, ?_⟩
  obtain ⟨⟨ms, i, hd, he⟩, -, all⟩ := consequences_finite {} [] (.alone 0) {} ops "tick" .null
  obtain ⟨-, hend⟩ := all ms i hd
  rwa [← he] at hend

end Session

end LivePage
