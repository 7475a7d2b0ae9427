import Mathlib
import LivePage.Proofs.Event.Log
import LivePage.Proofs.Interaction.Account
import LivePage.Proofs.Session.Course

/-!
# Every handler of an event is accounted for

The report on an event tells what was decided on its handlers, and which of them have failed.
-/

namespace LivePage

/-- The report on an event, from what was decided on its handlers and from their failures. -/
def Report.ofVerdicts (event id : String) (verdicts : List (Registered × Admission))
    (failures : List Failure) : Report where
  event := event
  executionId := id
  handled := (Dispatch.chosen .admitted verdicts).length
  skipped := (Dispatch.chosen .skipped verdicts).length
  scheduled := (Dispatch.chosen .scheduled verdicts).length
  suppressed := (Dispatch.chosen .suppressed verdicts).length
  failures := failures

namespace Session

variable {s : Session} {event : String} {data : Value} {ms : List Moment} {t : Interaction}
  {rs : List Ran} {r : Report}

/-- The id of the next event. -/
def executionId (s : Session) : String := s!"execution-{s.interaction.executions}"

/-- What is decided on the handlers of an event. -/
def verdicts (s : Session) (event : String) (data : Value) : List (Registered × Admission) :=
  (Dispatch.decide s.setting s.setting.limit event data s.interaction).1

/-- An event is answered: it is decided on its handlers, those that are admitted run side by side,
and a report is given when all of them have come to their end. -/
structure Answers (s : Session) (event : String) (data : Value) (ms : List Moment)
    (t : Interaction) (rs : List Ran) (r : Report) : Prop where
  moments : ∃ own, ms = ⟨0, .decide event data, s.interaction⟩ :: own ∧
    Account s.setting 0 s.executionId data rs own
  joined : Moment.Joined s.setting s.interaction ms t
  ran : rs.map (·.registered) = Dispatch.chosen .admitted (s.verdicts event data)
  report : r = .ofVerdicts event s.executionId (s.verdicts event data)
    (rs.filterMap Ran.failure?)

/-- Different events have different ids. -/
theorem execution_ne {m n : Nat} (h : m ≠ n) : s!"execution-{m}" ≠ s!"execution-{n}" := by
  intro he
  exact h (Nat.repr_inj.mp ((String.append_right_inj _).mp he))

namespace Answers

theorem dispatches (h : s.Answers event data ms t rs r) : s.Dispatches event data ms t := by
  obtain ⟨own, rfl, account⟩ := h.moments
  have course := account.course
  rw [h.ran] at course
  exact ⟨.event course, h.joined⟩

/-- The failures are announced with the id of the event, and nothing else is. -/
theorem exists_notices (h : s.Answers event data ms t rs r) :
    ∃ ns, t.notices = s.interaction.notices ++ ns ∧
      ((ns.filterMap Notice.error?).filter (ErrorEvent.carries s.executionId)).Perm
        (r.failures.map (Failure.announcement s.executionId)) := by
  obtain ⟨ns, hn, he⟩ := h.joined.exists_notices
  refine ⟨ns, hn, ?_⟩
  obtain ⟨own, rfl, account⟩ := h.moments
  obtain ⟨-, joined⟩ := h.joined
  have later : ∀ m ∈ own, m.deed.Decides →
      s!"execution-{m.before.executions}" ≠ s.executionId := by
    intro m hm _
    have hle := joined.executions_le hm
    obtain ⟨_, _, _, hd, -⟩ := Dispatch.exists_decide_eq s.setting (s.setting.limit - 0) event data
      s.interaction
    rw [Moment.after_decide, hd] at hle
    exact execution_ne (Nat.ne_of_gt hle)
  have perm := account.failuresOf_perm later
  rw [he, h.report]
  exact perm

end Answers

/-- What follows from an event can be accounted for. -/
theorem Dispatches.exists_answers (h : s.Dispatches event data ms t) :
    ∃ rs r, s.Answers event data ms t rs r := by
  obtain ⟨course, joined⟩ := h
  cases course with
  | event handlers =>
    obtain ⟨rfl, -⟩ := id joined
    obtain ⟨rs, account, ran⟩ := handlers.exists_account
    exact ⟨rs, _, ⟨_, rfl, account⟩, joined, ran, rfl⟩

/-- What a session answers to an event is one of the answers that there can be. -/
theorem exists_answers (s : Session) (event : String) (data : Value) :
    ∃ ms t rs, s.Answers event data ms t rs (s.dispatch event data).2 ∧
      (s.dispatch event data).1 = s.absorb t := by
  have hd : 0 + s.setting.limit = s.setting.limit := Nat.zero_add _
  obtain ⟨rs, own, account, ran, joined, failures⟩ := exists_account
    (reaches_run hd) (Dispatch.chosen .admitted (s.verdicts event data)) s.executionId data
    (Dispatch.decide s.setting s.setting.limit event data s.interaction).2
  refine ⟨_, _, rs, ⟨⟨own, rfl, account⟩, ⟨rfl, joined⟩, ran, ?_⟩, rfl⟩
  rw [← failures]
  rfl

/-- Every handler of an event is accounted for.  It is decided on each by its condition, its throttle
window and its debounce window as everything is before any of them runs, and it is counted with
those of the same verdict.  The handlers that are admitted come to their end or to a failure that is
not caught, whatever others do; and those that fail are reported, in the order of registration, and
announced, once each, with the id of the event. -/
theorem dispatch_accounts {ops : List Registry.Operation} {s : Session}
    (h : Registry.Reaches ops s.registry) (event : String) (data : Value) :
    let xs := s.registry.handlersFor event
    let verdict := Dispatch.verdict s.setting s.interaction
    (∃ ms t rs, s.Answers event data ms t rs (s.dispatch event data).2 ∧
      (s.dispatch event data).1 = s.absorb t) ∧
    (∀ ms t, s.Dispatches event data ms t ↔ ∃ rs r, s.Answers event data ms t rs r) ∧
    ∀ ms t rs r, s.Answers event data ms t rs r →
      r.handled + r.skipped + r.suppressed + r.scheduled = xs.length ∧
      (r.handled = xs.countP (verdict · == .admitted) ∧
        r.skipped = xs.countP (verdict · == .skipped) ∧
        r.suppressed = xs.countP (verdict · == .suppressed) ∧
        r.scheduled = xs.countP (verdict · == .scheduled)) ∧
      rs.map (·.registered) = xs.filter (verdict · == .admitted) ∧
      (∀ x ∈ rs,
        Course s.setting 0 (.actions x.registered.handler.actions data) x.moments x.outcome ∧
        x.moments.Sublist ms ∧ ∀ others, ∃ ns,
          Course s.setting 0 (.handler x.registered s.executionId data) ns (.ok ()) ∧
          Found others [] ns) ∧
      r.failures = rs.filterMap Ran.failure? ∧ r.executionId = s.executionId ∧
      ∃ ns, (s.absorb t).interaction.notices = s.interaction.notices ++ ns ∧
        ((ns.filterMap Notice.error?).filter (ErrorEvent.carries s.executionId)).Perm
          (r.failures.map (Failure.announcement s.executionId)) := by
  intro xs verdict
  have verdicts : s.verdicts event data = xs.map fun x ↦ (x, verdict x) := by
    have numbers : (s.setting.registry.handlersFor event).Pairwise fun x y ↦ x.number ≠ y.number :=
      (Log.represents_of_reaches h).numbers event
    obtain ⟨_, _, hd⟩ := Dispatch.decide_eq s.setting.limit data numbers s.interaction
    rw [Session.verdicts, hd]
    rfl
  have counts (a : Admission) :
      (Dispatch.chosen a (s.verdicts event data)).length = xs.countP (verdict · == a) := by
    rw [verdicts, Dispatch.chosen_map, List.countP_eq_length_filter]
  refine ⟨s.exists_answers event data,
    fun ms t ↦ ⟨fun hd ↦ hd.exists_answers, fun ⟨_, _, ha⟩ ↦ ha.dispatches⟩, ?_⟩
  rintro ms t rs r answers
  obtain ⟨own, moments, account⟩ := answers.moments
  have report := answers.report
  subst report
  refine ⟨?_, ⟨counts _, counts _, counts _, counts _⟩, ?_, fun x hx ↦ ?_, rfl, rfl,
    answers.exists_notices⟩
  · simp only [Report.ofVerdicts, counts]
    exact Dispatch.length_eq_sum_countP verdict xs
  · rw [answers.ran, verdicts, Dispatch.chosen_map]
  · obtain ⟨course, sub⟩ := account.ran hx
    refine ⟨course, moments ▸ sub.cons _, fun others ↦ ?_⟩
    exact exists_handler_course s.setting others 0 x.registered s.executionId data

/-- Of three handlers one fails, one has nothing to do, and one is put off. -/
theorem accounts_for_three :
    let a : Action := { kind := .callFunction }
    let ops : List Registry.Operation := [.register "a" { event := "press", actions := [a] },
      .register "b" { event := "press" }, .register "c" { event := "press", debounce := some 10 }]
    let s := { start {} [] (.alone 0) {} with registry := ops.foldl Registry.after {} }
    let failure : Failure := ⟨"a", "press", (ActionError.missing "callFunction" "function").chain⟩
    (s.dispatch "press" .null).2.handled = 2 ∧ (s.dispatch "press" .null).2.scheduled = 1 ∧
      (s.dispatch "press" .null).2.failures = [failure] ∧
      ∃ ns, (s.dispatch "press" .null).1.interaction.notices = ns ∧
        ((ns.filterMap Notice.error?).filter (ErrorEvent.carries s.executionId)).Perm
          [failure.announcement s.executionId] := by
  intro a ops s failure
  have reached : Registry.Reaches ops s.registry :=
    ((Registry.Reaches.empty.after (.register "a" { event := "press", actions := [a] })).after
      (.register "b" { event := "press" })).after
        (.register "c" { event := "press", debounce := some 10 })
  obtain ⟨⟨ms, t, rs, answers, after⟩, -, all⟩ := dispatch_accounts reached "press" .null
  obtain ⟨-, ⟨handled, -, -, scheduled⟩, -, -, -, -, ns, notices, perm⟩ := all ms t rs _ answers
  have admitted : Dispatch.chosen .admitted (s.verdicts "press" .null) =
      [⟨"a", { event := "press", actions := [a] }, 0⟩, ⟨"b", { event := "press" }, 1⟩] := by
    cbv
  have order (env : Env) : Order.ofAction env a = .error (.missing "callFunction" "function") := by
    cbv
  have run (i : Interaction) : Action.run s.setting 32 [a] .null i =
      (i, .error (.missing "callFunction" "function")) := by
    have ha : a.condition = none ∧ a.onError = none := ⟨rfl, rfl⟩
    simp [Action.run, Action.runList, Action.attempt, Action.perform, order, ha, Condition.holds?]
  have failures : (s.dispatch "press" .null).2.failures = [failure] := by
    change (Dispatch.runAll (Action.run s.setting 32) s.executionId .null
      (Dispatch.chosen .admitted (s.verdicts "press" .null)) _).2 = _
    rw [admitted, Dispatch.runAll, Registered.run, run]
    rfl
  refine ⟨handled.trans ?_, scheduled.trans ?_, failures, ns, ?_, ?_⟩
  · cbv
  · cbv
  · rw [after, notices]
    rfl
  · rw [failures] at perm
    exact perm

end Session

end LivePage
