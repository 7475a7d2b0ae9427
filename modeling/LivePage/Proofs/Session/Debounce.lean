import LivePage.Proofs.Session.Account
import LivePage.Proofs.Session.Job
import LivePage.Proofs.Session.Pending

/-!
# Handlers that are run when events have stopped

A handler with a debounce window runs a window of time after it was reached last, if it is still
there by then.  That is told here by the history alone: by when it was reached, and when it was
removed.
-/

namespace LivePage

/-! ## What is put off -/

namespace Dispatch

variable {st : Setting} {s : Interaction} {x : Registered}

/-- A handler with a debounce window and no throttle window is put off whenever its condition holds. -/
theorem verdict_eq_scheduled_iff {w : { w : Nat // 0 < w }} (hd : window? x.handler.debounce = some w)
    (ht : window? x.handler.throttle = none) :
    verdict st s x = .scheduled ↔
      Condition.holds? s.context st.host.clock x.handler.condition = true := by
  unfold verdict
  cases Condition.holds? s.context st.host.clock x.handler.condition <;> simp [hd, ht]

end Dispatch

namespace Session

variable {s t : Session} {i : Interaction} {v : Waiting} {x : Registered} {event : String}
  {data : Value} {ms : List Moment} {w : { w : Nat // 0 < w }}

/-- The run of a handler that is put off when an event reaches it. -/
def scheduled (s : Session) (x : Registered) (data : Value) (w : { w : Nat // 0 < w }) : Waiting :=
  ⟨s.now + w, ⟨x, data, s.executionId, s.setting.limit, w.1, w.2⟩⟩

namespace Dispatches

/-- What is put off of a handler whose event no action triggers is put off by the event itself. -/
theorem mem_deferrals_iff (h : s.Dispatches event data ms i) (hs : Sound s) {d : Deferral}
    (hu : ∀ m ∈ ms, ∀ data, m.deed = .decide d.target.handler.event data → m.depth = 0) :
    d ∈ i.deferrals ↔ d.target ∈ s.registry.handlersFor event ∧
      Dispatch.verdict s.setting s.interaction d.target = .scheduled ∧
      Dispatch.deferral? s.setting.limit s.executionId data d.target = some d := by
  obtain ⟨course, joined⟩ := h
  cases course with
  | event handlers =>
    obtain ⟨rfl, joined⟩ := joined
    obtain ⟨log, hl⟩ := hs.represented
    have numbers : (s.setting.registry.handlersFor event).Pairwise fun x y ↦ x.number ≠ y.number :=
      hl.numbers event
    obtain ⟨_, _, decided⟩ := Dispatch.decide_eq (s.setting.limit - 0) data numbers s.interaction
    have own : (Dispatch.decide s.setting (s.setting.limit - 0) event data s.interaction).2.deferrals =
        (s.registry.handlersFor event).flatMap fun y ↦
          Dispatch.deferred s.setting.limit s.executionId data y
            (Dispatch.verdict s.setting s.interaction y) := by
      rw [decided]
      exact congrArg (· ++ _) hs.settled
    obtain ⟨ds, hd, nested⟩ := joined.exists_deferrals
    rw [Moment.after_decide, own] at hd
    have none : d ∉ ds := by
      intro hm
      obtain ⟨m, hm, event', data', he, ht, -⟩ := nested d hm
      rw [← (Registry.mem_handlersFor_iff.mp ht).2] at he
      have hpos := (handlers.bound m hm).lt_depth id (by rw [he]; trivial)
      have := hu m (.tail _ hm) data' he
      omega
    rw [hd, List.mem_append, or_iff_left none, List.mem_flatMap]
    simp only [Dispatch.mem_deferred_iff]
    constructor
    · rintro ⟨y, hy, hv, hd⟩
      obtain rfl := Dispatch.target_of_deferral? hd
      exact ⟨hy, hv, hd⟩
    · exact fun ⟨hy, hv, hd⟩ ↦ ⟨_, hy, hv, hd⟩

theorem target_mem_all (h : s.Dispatches event data ms i) (hs : Sound s) :
    ∀ d ∈ i.deferrals, d.target ∈ s.registry.all := by
  obtain ⟨ds, hd, put⟩ := h.2.exists_deferrals
  rw [hs.settled, List.nil_append] at hd
  intro d hm
  obtain ⟨-, -, _, -, -, ht, -⟩ := put d (hd ▸ hm)
  exact (Registry.mem_handlersFor_iff.mp ht).1

section

variable (h : s.Dispatches event data ms i) (hs : Sound s)
  (hu : ∀ m ∈ ms, ∀ data, m.deed = .decide x.handler.event data → m.depth = 0)
  (hd : Dispatch.window? x.handler.debounce = some w)
  (ht : Dispatch.window? x.handler.throttle = none)

include h hs hu hd ht

/-- An event that reaches a handler puts it off, in place of what has waited of it. -/
theorem mem_iff_of_reaches (hx : x ∈ s.registry.handlersFor event)
    (hc : Condition.holds? s.context s.host.clock x.handler.condition = true)
    (hv : v.run.target = x) : v ∈ (s.absorb i).waiting ↔ v = s.scheduled x data w := by
  have hall := (Registry.mem_handlersFor_iff.mp hx).1
  have hs' : Dispatch.verdict s.setting s.interaction x = .scheduled :=
    (Dispatch.verdict_eq_scheduled_iff hd ht).mpr hc
  have hw : Dispatch.deferral? s.setting.limit s.executionId data x = some (s.scheduled x data w).run := by
    rw [Dispatch.deferral?, hd]
    rfl
  refine Waiting.mem_foldl_add_iff_of_mem (d := (s.scheduled x data w).run) ?_ ?_
    (congrArg Registered.number hv)
  · exact (h.mem_deferrals_iff hs (d := (s.scheduled x data w).run) hu).mpr ⟨hx, hs', hw⟩
  · intro e he hn
    obtain rfl : e.target = x := hs.eq_of_number_eq (h.target_mem_all hs e he) hall hn
    obtain ⟨-, -, he⟩ := (h.mem_deferrals_iff hs hu).mp he
    exact Option.some.inj (he.symm.trans hw)

/-- An event that does not reach a handler leaves alone what waits of it. -/
theorem mem_iff_of_not_reaches (hx : ¬(x ∈ s.registry.handlersFor event ∧
      Condition.holds? s.context s.host.clock x.handler.condition = true))
    (hv : v.run.target = x) : v ∈ (s.absorb i).waiting ↔ v ∈ s.waiting := by
  have others (hall : x ∈ s.registry.all) : ∀ d ∈ i.deferrals, d.target.number ≠ v.number := by
    intro d hm hn
    obtain rfl : d.target = x :=
      hs.eq_of_number_eq (h.target_mem_all hs d hm) hall (hn.trans (congrArg Registered.number hv))
    obtain ⟨hh, hs', -⟩ := (h.mem_deferrals_iff hs hu).mp hm
    exact hx ⟨hh, (Dispatch.verdict_eq_scheduled_iff hd ht).mp hs'⟩
  constructor
  · intro hm
    have hall := (hs.absorb h.2).targets v hm
    exact (Waiting.mem_foldl_add_iff_of_ne (others (hv ▸ hall))).mp hm
  · intro hm
    exact (Waiting.mem_foldl_add_iff_of_ne (others (hv ▸ hs.targets v hm))).mpr hm

end

end Dispatches

/-! ## Entries -/

/-- An event that no action triggers is not decided on while time passes. -/
theorem Passes.undecided {target : Nat} {rs : List Started} (p : Passes target s rs t)
    (hu : ∀ m ∈ rs.flatMap (·.moments), ∀ data, m.deed = .decide event data → m.depth = 0) :
    ∀ r ∈ rs, Undecided event r.moments := by
  intro r hr m hm data he
  have hpos := p.pos_of_decides r hr m hm (by rw [he]; trivial)
  have := hu m (List.mem_flatMap.mpr ⟨r, hr, hm⟩) data he
  omega

theorem Passes.undecided_of_avoids {target : Nat} {rs : List Started} (p : Passes target s rs t)
    (h : Sound s) (ha : ∀ x ∈ s.registry.all, x.handler.Avoids event) :
    ∀ r ∈ rs, Undecided event r.moments := by
  induction p with
  | arrived => exact List.forall_mem_nil _
  | started next fires _ ih =>
    obtain ⟨hw, -, least⟩ := next?_spec next
    refine List.forall_mem_cons.mpr ⟨?_, ih (fires.sound h least) ha⟩
    exact fires.1.decides ha (ha _ (h.targets _ hw))

namespace Entry

variable {e : Entry}

/-- The host dispatches the event of a handler while the handler is registered and its condition
holds. -/
def Reaches (e : Entry) (x : Registered) (data : Value) : Prop :=
  e.operation = .dispatch x.handler.event data ∧ x ∈ e.before.registry.all ∧
    Condition.holds? e.before.context e.before.host.clock x.handler.condition = true

def Removes (e : Entry) (x : Registered) : Prop :=
  x ∈ e.before.registry.all ∧ x ∉ e.after.registry.all

/-- A handler is neither reached nor removed. -/
def Leaves (e : Entry) (x : Registered) : Prop := (∀ data, ¬e.Reaches x data) ∧ ¬e.Removes x

/-- No action triggers an event: all that decides on it is what the host does. -/
def Untriggered (e : Entry) (event : String) : Prop :=
  ∀ m ∈ e.moments, ∀ data, m.deed = .decide event data → m.depth = 0

/-- While no handler that is registered can ask for an event, no action triggers it. -/
theorem untriggered_of_avoids (h : Ready e.before)
    (ha : ∀ x ∈ e.before.registry.all, x.handler.Avoids event) : e.Untriggered event := by
  obtain ⟨s, op, rs, ms, t, step⟩ := e
  cases step with
  | dispatch dispatches => exact fun m hm data he ↦ (dispatches.1.decides ha trivial m hm data he).2
  | advance passes =>
    intro m hm data he
    obtain ⟨r, hr, hm⟩ := List.mem_flatMap.mp hm
    exact absurd he (passes.undecided_of_avoids h.toSound ha r hr m hm data)
  | still => exact List.forall_mem_nil _

theorem not_reaches_of_not_runs {op : Operation} (hop : ¬op.Runs) (he : e.operation = op) :
    ¬e.Reaches x data := by
  rintro ⟨h, -⟩
  rw [he] at h
  subst h
  exact hop trivial

section

variable (h : Ready e.before) (hu : e.Untriggered x.handler.event)

include h hu

/-- What waits of a handler behind an entry: what was put off in it, or else what has waited before
and is not due. -/
theorem mem_after_iff (hd : Dispatch.window? x.handler.debounce = some w)
    (ht : Dispatch.window? x.handler.throttle = none) (hv : v.run.target = x) :
    v ∈ e.after.waiting ↔ (∃ data, e.Reaches x data ∧ v = e.before.scheduled x data w) ∨
      (v ∈ e.before.waiting ∧ e.Leaves x ∧ e.after.now < v.due) := by
  obtain ⟨s, op, rs, ms, t, step⟩ := e
  have hs : Sound s := h.toSound
  cases step with
  | @dispatch event data ms i dispatches =>
    have stays (hx : x ∈ s.registry.all) : x ∈ (s.absorb i).registry.all := hx
    by_cases reached : x ∈ s.registry.handlersFor event ∧
        Condition.holds? s.context s.host.clock x.handler.condition = true
    · obtain ⟨hx, hc⟩ := reached
      obtain ⟨hall, rfl⟩ := Registry.mem_handlersFor_iff.mp hx
      refine (dispatches.mem_iff_of_reaches hs hu hd ht hx hc hv).trans ?_
      constructor
      · exact fun he ↦ .inl ⟨data, ⟨rfl, hall, hc⟩, he⟩
      · rintro (⟨data', ⟨he, -⟩, rfl⟩ | ⟨-, leaves, -⟩)
        · cases he
          rfl
        · exact absurd ⟨rfl, hall, hc⟩ (leaves.1 data)
    · refine (dispatches.mem_iff_of_not_reaches hs hu hd ht reached hv).trans ?_
      constructor
      · refine fun hm ↦ .inr ⟨hm, ⟨?_, fun ⟨hx, hn⟩ ↦ hn (stays hx)⟩, h.current v hm⟩
        rintro data' ⟨he, hall, hc⟩
        cases he
        exact reached ⟨Registry.mem_handlersFor_iff.mpr ⟨hall, rfl⟩, hc⟩
      · rintro (⟨data', ⟨he, hall, hc⟩, -⟩ | ⟨hm, -⟩)
        · cases he
          exact absurd ⟨Registry.mem_handlersFor_iff.mpr ⟨hall, rfl⟩, hc⟩ reached
        · exact hm
  | @advance duration rs t passes =>
    have undecided := hv ▸ passes.undecided hu
    rw [passes.mem_iff hs undecided, ← passes.now_add]
    constructor
    · refine fun ⟨hm, hlt⟩ ↦ .inr ⟨hm, ⟨fun _ ⟨he, _⟩ ↦ (by cases he), fun ⟨hx, hn⟩ ↦ ?_⟩, hlt⟩
      rw [passes.registry_eq] at hn
      exact hn hx
    · rintro (⟨_, ⟨he, -⟩, -⟩ | ⟨hm, -, hlt⟩)
      · cases he
      · exact ⟨hm, hlt⟩
  | still hop =>
    have keeps := hs.keeps_after hop
    have unreached (data : Value) : ¬Reaches ⟨s, op, [], [], s.after op, .still hop⟩ x data :=
      not_reaches_of_not_runs hop rfl
    rw [keeps.mem_iff, hv]
    constructor
    · exact fun ⟨hm, hx⟩ ↦ .inr ⟨hm, ⟨unreached, fun ⟨_, hn⟩ ↦ hn hx⟩, keeps.now ▸ h.current v hm⟩
    · rintro (⟨data, he, -⟩ | ⟨hm, ⟨-, stays⟩, -⟩)
      · exact absurd he (unreached data)
      · exact ⟨hm, not_not.mp fun hn ↦ stays ⟨hv ▸ hs.targets v hm, hn⟩⟩

/-- The runs of a handler that start in an entry: those that have waited before and are due. -/
theorem mem_started_iff (hv : v.run.target = x) :
    v ∈ e.started.map Started.waiting ↔ v ∈ e.before.waiting ∧ v.due ≤ e.after.now := by
  obtain ⟨s, op, rs, ms, t, step⟩ := e
  have later (hm : v ∈ s.waiting) (hle : v.due ≤ s.now) : False :=
    absurd (h.current v hm) (Nat.not_lt.mpr hle)
  cases step with
  | dispatch => exact ⟨fun hm ↦ (List.not_mem_nil hm).elim, fun ⟨hm, hle⟩ ↦ (later hm hle).elim⟩
  | @advance duration rs t passes =>
    rw [passes.now_add]
    exact passes.mem_started_iff h.toSound (hv ▸ passes.undecided hu)
  | still hop =>
    rw [(h.keeps_after hop).now]
    exact ⟨fun hm ↦ (List.not_mem_nil hm).elim, fun ⟨hm, hle⟩ ↦ (later hm hle).elim⟩

theorem pairwise_started :
    e.started.Pairwise fun r r' ↦ ¬(r.run.target = x ∧ r'.run.target = x) := by
  obtain ⟨s, op, rs, ms, t, step⟩ := e
  cases step with
  | advance passes => exact passes.pairwise h.toSound (passes.undecided hu)
  | dispatch | still => exact .nil

end

end Entry

/-! ## Histories -/

/-- An entry puts off a handler, and nothing behind it does so again or removes the handler. -/
structure Last (es : List Entry) (x : Registered) (a : Entry) (mid : List Entry) (data : Value) :
    Prop where
  split : ∃ before, es = before ++ a :: mid
  reaches : a.Reaches x data
  leaves : ∀ e ∈ mid, e.Leaves x

namespace Timeline

variable {es : List Entry}

/-- What waits of a handler is told by the entry that has reached it last. -/
theorem mem_waiting_iff (h : Timeline s es t) (hs : Ready s) (hnil : s.waiting = [])
    (hu : ∀ e ∈ es, e.Untriggered x.handler.event)
    (hd : Dispatch.window? x.handler.debounce = some w)
    (ht : Dispatch.window? x.handler.throttle = none) (hv : v.run.target = x) :
    v ∈ t.waiting ↔ t.now < v.due ∧
      ∃ a mid data, Last es x a mid data ∧ v = a.before.scheduled x data w := by
  induction es using List.reverseRecOn generalizing t with
  | nil =>
    cases h
    rw [hnil]
    refine ⟨fun hm ↦ (List.not_mem_nil hm).elim, ?_⟩
    rintro ⟨-, a, mid, data, ⟨⟨before, he⟩, -, -⟩, -⟩
    cases before <;> cases he
  | append_singleton es e ih =>
    obtain ⟨u, first, rfl, rfl⟩ := timeline_append.mp h
    have hb : Ready e.before := first.ready hs
    have hue := hu e (List.mem_append_right _ (.head _))
    have ih := ih first fun f hf ↦ hu f (List.mem_append_left _ hf)
    have hm := Entry.mem_after_iff hb hue hd ht hv
    constructor
    · intro hw
      refine ⟨(Entry.ready hb).current v hw, ?_⟩
      rcases hm.mp hw with ⟨data, reaches, rfl⟩ | ⟨hw, left, -⟩
      · exact ⟨e, [], data, ⟨⟨es, rfl⟩, reaches, List.forall_mem_nil _⟩, rfl⟩
      · obtain ⟨-, a, mid, data, ⟨⟨before, rfl⟩, reaches, leaves⟩, hv⟩ := ih.mp hw
        refine ⟨a, mid ++ [e], data, ⟨⟨before, ?_⟩, reaches, ?_⟩, hv⟩
        · rw [List.append_assoc, List.cons_append]
        · exact List.forall_mem_append.mpr ⟨leaves, List.forall_mem_singleton.mpr left⟩
    · rintro ⟨hlt, a, mid, data, ⟨⟨before, he⟩, reaches, leaves⟩, hv⟩
      rcases List.eq_nil_or_concat mid with rfl | ⟨mid, f, rfl⟩
      · obtain ⟨-, he⟩ := List.append_inj' he rfl
        obtain rfl := List.singleton_inj.mp he
        exact hm.mpr (.inl ⟨data, reaches, hv⟩)
      · rw [List.concat_eq_append] at he leaves
        rw [← List.cons_append, ← List.append_assoc] at he
        obtain ⟨rfl, hef⟩ := List.append_inj' he rfl
        obtain rfl := List.singleton_inj.mp hef
        obtain ⟨leaves, left⟩ := List.forall_mem_append.mp leaves
        have waits : v ∈ e.before.waiting := by
          refine ih.mpr ⟨Nat.lt_of_le_of_lt (Entry.now_le hb) hlt, a, mid, data, ?_, hv⟩
          exact ⟨⟨before, rfl⟩, reaches, leaves⟩
        exact hm.mpr (.inr ⟨waits, left e (.head _), hlt⟩)

/-- An event that was dispatched is found again by its id. -/
theorem eq_of_executionId {before before' mid mid' : List Entry} {a a' : Entry}
    {event event' : String} {data data' : Value} (h : Timeline s (before ++ a :: mid) t)
    (hs : Ready s) (he : before ++ a :: mid = before' ++ a' :: mid')
    (ha : a.operation = .dispatch event data) (ha' : a'.operation = .dispatch event' data')
    (hid : a'.before.executionId = a.before.executionId) : a' = a ∧ mid' = mid := by
  have executions : a'.before.interaction.executions = a.before.interaction.executions :=
    not_not.mp fun hne ↦ execution_ne hne hid
  rcases List.append_eq_append_iff.mp he with ⟨l, rfl, hl⟩ | ⟨l, rfl, hl⟩
  · cases l with
    | nil =>
      cases hl
      exact ⟨rfl, rfl⟩
    | cons c l =>
      obtain ⟨rfl, rfl⟩ := List.cons_eq_cons.mp hl
      have := h.executions_lt hs ha
      omega
  · cases l with
    | nil =>
      cases hl
      exact ⟨rfl, rfl⟩
    | cons c l =>
      obtain ⟨rfl, rfl⟩ := List.cons_eq_cons.mp hl
      rw [List.append_assoc, List.cons_append] at h
      have := h.executions_lt hs ha'
      omega

end Timeline

/-- What has started is a course of its handler, from its beginning to its end. -/
theorem Passes.courses {target : Nat} {rs : List Started} (p : Passes target s rs t) :
    ∀ r ∈ rs, Course r.session.setting r.depth
      (.handler r.run.target r.run.executionId r.run.data) r.moments (.ok ()) := by
  induction p with
  | arrived => exact List.forall_mem_nil _
  | started _ fires _ ih => exact List.forall_mem_cons.mpr ⟨fires.1, ih⟩

theorem Entry.courses {e : Entry} {r : Started} (hr : r ∈ e.started) :
    Course r.session.setting r.depth (.handler r.run.target r.run.executionId r.run.data)
      r.moments (.ok ()) ∧ r.moments <:+: e.moments := by
  obtain ⟨s, op, rs, ms, t, step⟩ := e
  cases step with
  | advance passes =>
    refine ⟨passes.courses r hr, ?_⟩
    obtain ⟨before, behind, rfl⟩ := List.append_of_mem hr
    have all : (before ++ r :: behind).flatMap (·.moments) =
        before.flatMap (·.moments) ++ r.moments ++ behind.flatMap (·.moments) := by
      rw [List.flatMap_append, List.flatMap_cons, List.append_assoc]
    exact ⟨_, _, all.symm⟩
  | dispatch | still => cases hr

/-- A handler with a debounce window whose event no action triggers, as where no handler that is
registered can ask for it, in any history of a session.  When an event has reached the handler, a run
follows if and only if the window passes before the handler is reached again or removed.  The run
then starts at the end of the window, with the data of the event; there is no other run of the
handler, and no two runs of one event.  A run that has started goes on to its end, whatever others
do; and it is a job of its own, which nothing that is put off, cancelled or started while it goes on
cuts short. -/
theorem debounced_runs (config : Config) (components : Components) (host : Host)
    (context : Context) :
    let s := start config components host context
    (∀ ops, ∃ es, es.map (·.operation) = ops ∧ Timeline s es (s.run ops)) ∧
    ∀ es t, Timeline s es t →
      (∀ e ∈ es, ∀ event, (∀ y ∈ e.before.registry.all, y.handler.Avoids event) →
        e.Untriggered event) ∧
      (∃ ops, (Jobs.run {} ops).waiting = t.waiting ∧ (Jobs.run {} ops).runs =
        (es.flatMap (·.started)).map fun r ↦ (r.run, r.moments)) ∧
      ∀ (x : Registered) (w : Nat), x.handler.debounce = some w → 0 < w →
      Dispatch.window? x.handler.throttle = none → (∀ e ∈ es, e.Untriggered x.handler.event) →
      (∀ (before : List Entry) (a : Entry) (mid : List Entry) (b : Entry) (behind : List Entry)
          (data : Value), es = before ++ a :: (mid ++ b :: behind) → a.Reaches x data →
        ((∃ r ∈ b.started, r.run.target = x ∧ r.run.executionId = a.before.executionId) ↔
          b.before.now < a.before.now + w ∧ a.before.now + w ≤ b.after.now ∧
            ∀ e ∈ mid, e.Leaves x) ∧
        ∀ r ∈ b.started, r.run.target = x → r.run.executionId = a.before.executionId →
          r.time = a.before.now + w ∧ r.run.data = data) ∧
      (∀ (before : List Entry) (b : Entry) (behind : List Entry), es = before ++ b :: behind →
        ∀ r ∈ b.started, r.run.target = x →
          ∃ (earlier : List Entry) (a : Entry) (mid : List Entry), before = earlier ++ a :: mid ∧
            a.Reaches x r.run.data ∧ r.run.executionId = a.before.executionId ∧
            r.time = a.before.now + w) ∧
      (∀ e ∈ es, e.started.Pairwise fun r r' ↦ ¬(r.run.target = x ∧ r'.run.target = x)) ∧
      (∀ st level event data i, x ∉ Dispatch.admitted st level event data i) ∧
      ∀ e ∈ es, ∀ r ∈ e.started,
        Course r.session.setting r.depth (.handler r.run.target r.run.executionId r.run.data)
          r.moments (.ok ()) ∧
        r.moments <:+: e.moments ∧ (∀ others, ∃ ns,
          Course r.session.setting r.depth (.handler r.run.target r.run.executionId r.run.data)
            ns (.ok ()) ∧ Found others [] ns) ∧
        ∃ id ops, (Jobs.run {} ops).waiting = r.session.waiting ∧
          ∀ more, (id, .run r.run (Jobs.own id more)) ∈ (Jobs.run {} (ops ++ more)).alive := by
  intro s
  have ready : Ready s := ⟨Sound.start config components host context, List.forall_mem_nil _⟩
  have orderly : Orderly config.executor.maxDepth s := ⟨rfl, rfl, List.forall_mem_nil _⟩
  refine ⟨orderly.exists_timeline, ?_⟩
  intro es t timeline
  have all_ready : ∀ e ∈ es, Ready e.before := by
    intro e he
    obtain ⟨before, behind, rfl⟩ := List.append_of_mem he
    exact timeline.until.ready ready
  have carried := CarriedBy.start config components host context
  refine ⟨fun e he event ↦ Entry.untriggered_of_avoids (all_ready e he), ?_, ?_⟩
  · obtain ⟨ops, held, runs⟩ := timeline.reachedFrom carried
    exact ⟨ops, held.waiting_eq, runs⟩
  intro x w hd hw ht hu
  have hd : Dispatch.window? x.handler.debounce = some ⟨w, hw⟩ := by
    rw [hd, Dispatch.window?_of_pos hw]
  -- the runs that start in an entry are told by the history before it
  have starts {before behind : List Entry} {b : Entry} (he : es = before ++ b :: behind)
      {v : Waiting} (hv : v.run.target = x) : v ∈ b.started.map Started.waiting ↔
        b.before.now < v.due ∧ v.due ≤ b.after.now ∧
          ∃ a mid data, Last before x a mid data ∧ v = a.before.scheduled x data ⟨w, hw⟩ := by
    subst he
    have first := timeline.until
    have hub := hu b (List.mem_append_right _ (.head _))
    rw [Entry.mem_started_iff (first.ready ready) hub hv,
      first.mem_waiting_iff ready rfl (fun e he ↦ hu e (List.mem_append_left _ he)) hd ht hv]
    exact ⟨fun ⟨⟨h, ha⟩, h'⟩ ↦ ⟨h, h', ha⟩, fun ⟨h, h', ha⟩ ↦ ⟨⟨h, ha⟩, h'⟩⟩
  refine ⟨?_, ?_, ?_, ?_, ?_⟩
  · rintro before a mid b behind data rfl reaches
    have he : before ++ a :: (mid ++ b :: behind) = (before ++ a :: mid) ++ b :: behind := by
      rw [List.append_assoc, List.cons_append]
    have follows (r : Started) (hr : r ∈ b.started) (hx : r.run.target = x)
        (hid : r.run.executionId = a.before.executionId) :
        r.waiting = a.before.scheduled x data ⟨w, hw⟩ ∧ b.before.now < a.before.now + w ∧
          a.before.now + w ≤ b.after.now ∧ ∀ e ∈ mid, e.Leaves x := by
      obtain ⟨lt, le, a', mid', data', last, hv⟩ :=
        (starts he (v := r.waiting) hx).mp (List.mem_map_of_mem hr)
      obtain ⟨earlier, split⟩ := last.split
      have hid' : r.run.executionId = a'.before.executionId :=
        congrArg (fun v : Waiting ↦ v.run.executionId) hv
      obtain ⟨rfl, rfl⟩ := Timeline.eq_of_executionId (he ▸ timeline).until ready split
        reaches.1 last.reaches.1 (hid'.symm.trans hid)
      cases last.reaches.1.symm.trans reaches.1
      have due : r.waiting.due = a'.before.now + w := congrArg Waiting.due hv
      exact ⟨hv, due ▸ lt, due ▸ le, last.leaves⟩
    refine ⟨⟨fun ⟨r, hr, hx, hid⟩ ↦ (follows r hr hx hid).2, ?_⟩, fun r hr hx hid ↦ ?_⟩
    · rintro ⟨lt, le, leaves⟩
      have hv := (starts he (v := a.before.scheduled x data ⟨w, hw⟩) rfl).mpr
        ⟨lt, le, a, mid, data, ⟨⟨before, rfl⟩, reaches, leaves⟩, rfl⟩
      obtain ⟨r, hr, hv⟩ := List.mem_map.mp hv
      have hrun : r.run = (a.before.scheduled x data ⟨w, hw⟩).run := congrArg Waiting.run hv
      exact ⟨r, hr, by rw [hrun]; rfl, by rw [hrun]; rfl⟩
    · have hv := (follows r hr hx hid).1
      exact ⟨congrArg Waiting.due hv, congrArg (fun v : Waiting ↦ v.run.data) hv⟩
  · rintro before b behind he r hr rfl
    obtain ⟨-, -, a, mid, data, last, hv⟩ :=
      (starts he (v := r.waiting) rfl).mp (List.mem_map_of_mem hr)
    obtain ⟨earlier, split⟩ := last.split
    have hdata : r.run.data = data := congrArg (fun v : Waiting ↦ v.run.data) hv
    refine ⟨earlier, a, mid, split, hdata ▸ last.reaches, ?_, congrArg Waiting.due hv⟩
    exact congrArg (fun v : Waiting ↦ v.run.executionId) hv
  · exact fun e he ↦ Entry.pairwise_started (all_ready e he) (hu e he)
  · intro st level event data i hx
    cases (Dispatch.debounce_eq_none_of_mem_admitted hx).symm.trans hd
  · intro e he r hr
    obtain ⟨course, inside⟩ := Entry.courses hr
    exact ⟨course, inside, fun others ↦ exists_handler_course .., timeline.exists_job carried he hr⟩

/-- Of two inputs in a field only the second leads to a run. -/
theorem runs_second_input :
    let x : Registered := ⟨"field", { event := "input", debounce := some 100 }, 0⟩
    let s := start {} [] (.alone 0) {}
    ∃ e₀ e₁ e₂ e₃ t, Timeline s [e₀, e₁, e₂, e₃] t ∧
      [e₀, e₁, e₂, e₃].map (·.operation) = [.register x.nodeId x.handler,
        .dispatch "input" (.str "a"), .dispatch "input" (.str "ab"), .advance 100] ∧
      (∃ r ∈ e₃.started, r.run.target = x ∧ r.run.executionId = e₂.before.executionId) ∧
      ¬∃ r ∈ e₃.started, r.run.target = x ∧ r.run.executionId = e₁.before.executionId := by
  intro x s
  obtain ⟨exist, all⟩ := debounced_runs {} [] (.alone 0) {}
  obtain ⟨es, operations, timeline⟩ := exist [.register x.nodeId x.handler,
    .dispatch "input" (.str "a"), .dispatch "input" (.str "ab"), .advance 100]
  obtain ⟨e₀, es, rfl, h₀, rest⟩ := List.map_eq_cons_iff.mp operations
  obtain ⟨e₁, es, rfl, h₁, rest⟩ := List.map_eq_cons_iff.mp rest
  obtain ⟨e₂, es, rfl, h₂, rest⟩ := List.map_eq_cons_iff.mp rest
  obtain ⟨e₃, es, rfl, h₃, rest⟩ := List.map_eq_cons_iff.mp rest
  obtain rfl := List.map_eq_nil_iff.mp rest
  obtain ⟨b₀, b₁, b₂, b₃, -⟩ := id timeline
  have a₀ : e₁.before = s.register x.nodeId x.handler := by
    rw [b₁, Entry.after_eq_of_not_runs h₀ id, b₀]
    rfl
  obtain ⟨n₁, r₁⟩ := Entry.frame_of_dispatch h₁
  obtain ⟨n₂, r₂⟩ := Entry.frame_of_dispatch h₂
  have n₃ := Entry.now_of_advance h₃
  rw [← b₂, a₀] at n₁ r₁
  rw [← b₃, n₁] at n₂
  rw [← b₃, r₁] at r₂
  have first : (s.register x.nodeId x.handler).registry.all = [x] := rfl
  have registered : ∀ e ∈ [e₁, e₂, e₃], e.before.registry.all = [x] := by
    simp [a₀, r₁, r₂, first]
  obtain ⟨avoided, -, debounced⟩ := all _ _ timeline
  have untriggered : ∀ e ∈ [e₀, e₁, e₂, e₃], e.Untriggered "input" := by
    intro e he
    refine avoided e he "input" fun y hy ↦ ?_
    have : y = x := by
      rcases List.mem_cons.mp he with rfl | he
      · rw [b₀] at hy
        cases hy
      · rw [registered e he] at hy
        exact List.mem_singleton.mp hy
    rw [this]
    exact List.forall_mem_nil _
  obtain ⟨leads, -⟩ := debounced x 100 rfl (by decide) rfl untriggered
  have reaches₁ : e₁.Reaches x (.str "a") := by
    refine ⟨h₁, ?_, rfl⟩
    rw [registered e₁ (by simp)]
    exact .head _
  have reaches₂ : e₂.Reaches x (.str "ab") := by
    refine ⟨h₂, ?_, rfl⟩
    rw [registered e₂ (by simp)]
    exact .head _
  refine ⟨e₀, e₁, e₂, e₃, _, timeline, operations, ?_, ?_⟩
  · have now₂ : e₂.before.now = 0 := n₁
    have now₃ : e₃.before.now = 0 := n₂
    refine (leads [e₀, e₁] e₂ [] e₃ [] _ rfl reaches₂).1.mpr ⟨?_, ?_, List.forall_mem_nil _⟩
    · omega
    · omega
  · intro runs
    obtain ⟨-, -, leaves⟩ := (leads [e₀] e₁ [e₂] e₃ [] _ rfl reaches₁).1.mp runs
    exact (leaves e₂ (.head _)).1 _ reaches₂

end Session

end LivePage
