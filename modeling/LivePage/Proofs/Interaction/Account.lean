import Mathlib.Data.List.Perm.Basic
import LivePage.Proofs.Interaction.Progress
import LivePage.Proofs.Interaction.Verdict

/-!
# What becomes of the handlers of an event

Handlers that run side by side are accounted for one by one: what happened in each, and how it ended.
A handler that has failed is reported twice, in the report on its event and by an announcement.  An
announcement has the id of the event, so that failures of handlers of other events in between are
told from it.
-/

namespace LivePage

variable {st : Setting} {s t : Interaction} {d : Nat} {id : String} {data : Value} {p : Part}
  {m : Moment} {ms ns : List Moment} {o : Except ActionError Unit}

/-! ## Accounts -/

/-- A handler that has run: what happened in it, and how its actions ended. -/
structure Ran where
  registered : Registered
  moments : List Moment
  outcome : Except ActionError Unit

/-- What is reported of a handler, if it has failed. -/
def Ran.failure? (r : Ran) : Option Failure :=
  match r.outcome with
  | .ok _ => none
  | .error e => some ⟨r.registered.nodeId, r.registered.handler.event, e.chain⟩

/-- What can follow from handlers that run side by side, with what follows from each of them. -/
inductive Account (st : Setting) (d : Nat) (id : String) (data : Value) :
    List Ran → List Moment → Prop where
  | none : Account st d id data [] []
  | finished {x : Registered} {r : List Ran} {ms ns all : List Moment}
      (actions : Course st d (.actions x.handler.actions data) ms (.ok ()))
      (rest : Account st d id data r ns) (merge : Interleave ms ns all) :
    Account st d id data (⟨x, ms, .ok ()⟩ :: r) all
  | failed {x : Registered} {r : List Ran} {ms ns all : List Moment} {e : ActionError}
      {s : Interaction} (actions : Course st d (.actions x.handler.actions data) ms (.error e))
      (rest : Account st d id data r ns) (merge : Interleave (ms ++ [⟨d, .fail x id e, s⟩]) ns all) :
    Account st d id data (⟨x, ms, .error e⟩ :: r) all

namespace Account

variable {rs : List Ran}

theorem course (h : Account st d id data rs ms) :
    Course st d (.handlers (rs.map (·.registered)) id data) ms (.ok ()) := by
  induction h with
  | none => exact .noHandlers
  | finished actions _ merge ih => exact .moreHandlers (.handled actions) ih merge
  | failed actions _ merge ih => exact .moreHandlers (.aborted actions) ih merge

/-- What happened in a handler is a course of its actions, and happened in its order. -/
theorem ran (h : Account st d id data rs ms) {r : Ran} (hr : r ∈ rs) :
    Course st d (.actions r.registered.handler.actions data) r.moments r.outcome ∧
      r.moments.Sublist ms := by
  induction h with
  | none => cases hr
  | finished actions _ merge ih =>
    rcases List.mem_cons.mp hr with rfl | hr
    · exact ⟨actions, merge.sublist_left⟩
    · exact (ih hr).imp_right (·.trans merge.sublist_right)
  | failed actions _ merge ih =>
    rcases List.mem_cons.mp hr with rfl | hr
    · exact ⟨actions, (List.sublist_append_left ..).trans merge.sublist_left⟩
    · exact (ih hr).imp_right (·.trans merge.sublist_right)

end Account

theorem Course.exists_account {xs : List Registered} (h : Course st d (.handlers xs id data) ms o) :
    ∃ rs, Account st d id data rs ms ∧ rs.map (·.registered) = xs := by
  induction xs generalizing ms o with
  | nil =>
    cases h
    exact ⟨[], .none, rfl⟩
  | cons x r ih =>
    cases h with
    | moreHandlers first rest merge =>
      obtain ⟨rs, account, rfl⟩ := ih rest
      cases first with
      | handled actions => exact ⟨_, .finished actions account merge, rfl⟩
      | aborted actions => exact ⟨_, .failed actions account merge, rfl⟩

section

variable {run : Runner} (hrun : ∀ as data s, Reaches st d (.actions as data) s (run as data s))

include hrun

/-- Handlers that run one after another have an account, with the failures that are reported. -/
theorem exists_account (xs : List Registered) (id : String) (data : Value) (s : Interaction) :
    ∃ rs ms, Account st d id data rs ms ∧ rs.map (·.registered) = xs ∧
      Moment.Joined st s ms (Dispatch.runAll run id data xs s).1 ∧
      (Dispatch.runAll run id data xs s).2 = rs.filterMap Ran.failure? := by
  induction xs generalizing s with
  | nil => exact ⟨[], [], .none, rfl, rfl, rfl⟩
  | cons x r ih =>
    obtain ⟨ms, actions, joined⟩ := hrun x.handler.actions data s
    simp only [Dispatch.runAll, Registered.run]
    cases hr : run x.handler.actions data s with
    | mk t o =>
      rw [hr] at actions joined
      cases o with
      | ok _ =>
        obtain ⟨rs, ns, account, rfl, rest, failures⟩ := ih t
        exact ⟨_, _, .finished actions account (.append ms ns), rfl, joined.append rest, failures⟩
      | error e =>
        have fail : Moment.Joined st t [⟨d, .fail x id e, t⟩] ((Deed.fail x id e).act st d t) :=
          ⟨rfl, rfl⟩
        obtain ⟨rs, ns, account, rfl, rest, failures⟩ := ih ((Deed.fail x id e).act st d t)
        exact ⟨_, _, .failed actions account (.append _ ns), rfl,
          (joined.append fail).append rest, congrArg _ failures⟩

end

/-! ## Announcements of failures -/

/-- How a failure is announced. -/
def Failure.announcement (id : String) (f : Failure) : ErrorEvent where
  type := "HandlerFailed"
  message := f.error
  severity := .error
  parameters := [("event", .str f.event), ("executionId", .str id), ("nodeId", .str f.nodeId)]

/-- Whether this announces the failure of a handler, with the id of its event. -/
def ErrorEvent.carries (id : String) (e : ErrorEvent) : Bool :=
  e.type == "HandlerFailed" && (e.parameters.get? "executionId").bind Value.text? == some id

@[simp] theorem Failure.carries_announcement (id id' : String) (f : Failure) :
    (f.announcement id').carries id = (id' == id) := by
  simp [announcement, ErrorEvent.carries, Fields.get?, Value.text?]

/-- The failure that a deed announces. -/
def Deed.error? : Deed → Option ErrorEvent
  | fail x id e => some (Failure.announcement id ⟨x.nodeId, x.handler.event, e.chain⟩)
  | _ => none

namespace Moment

theorem exists_decide_of_decides (h : m.deed.Decides) :
    ∃ d event data s, m = ⟨d, .decide event data, s⟩ := by
  obtain ⟨d, deed, s⟩ := m
  cases deed with
  | decide event data => exact ⟨d, event, data, s, rfl⟩
  | _ => cases h

/-- Where nothing is decided, a moment changes the context, and adds to what was asked, called and
announced. -/
theorem exists_after_eq (st : Setting) {m : Moment} (h : ¬m.deed.Decides) :
    ∃ c requests calls ns, m.after st = { m.before with
        context := c, requests := requests, calls := calls, notices := m.before.notices ++ ns } ∧
      ns.filterMap Notice.error? = m.deed.error?.toList := by
  obtain ⟨depth, deed, s⟩ := m
  cases deed with
  | decide => exact absurd trivial h
  | pass | perform => exact ⟨_, _, _, [], by rw [List.append_nil]; rfl, rfl⟩
  | announce | fail => exact ⟨_, _, _, _, rfl, rfl⟩
  | setState | setVariable | ask =>
    simp only [after, Deed.act, Interaction.setState, Interaction.setVariable, Interaction.write,
      Interaction.ask]
    split
    · exact ⟨_, _, _, _, rfl, rfl⟩
    · exact ⟨_, _, _, [], by rw [List.append_nil], rfl⟩
  | call =>
    simp only [after, Deed.act, Interaction.call]
    split
    · exact ⟨_, _, _, [], by rw [List.append_nil], rfl⟩
    · exact ⟨_, _, _, [], by rw [List.append_nil], rfl⟩

theorem after_decide (st : Setting) (d : Nat) (event : String) (data : Value) (s : Interaction) :
    after st ⟨d, .decide event data, s⟩ =
      (Dispatch.decide st (st.limit - d) event data s).2 := rfl

theorem exists_notices (st : Setting) (m : Moment) :
    ∃ ns, (m.after st).notices = m.before.notices ++ ns ∧
      ns.filterMap Notice.error? = m.deed.error?.toList := by
  by_cases hd : m.deed.Decides
  · obtain ⟨d, event, data, s, rfl⟩ := exists_decide_of_decides hd
    obtain ⟨_, _, _, h, -⟩ := Dispatch.exists_decide_eq st (st.limit - d) event data s
    exact ⟨_, congrArg Interaction.notices h, rfl⟩
  · obtain ⟨_, _, _, ns, h, he⟩ := exists_after_eq st hd
    exact ⟨ns, congrArg Interaction.notices h, he⟩

/-- The errors that are announced in a row of moments are the failures in them. -/
theorem Joined.exists_notices (h : Joined st s ms t) :
    ∃ ns, t.notices = s.notices ++ ns ∧
      ns.filterMap Notice.error? = ms.filterMap (·.deed.error?) := by
  induction ms generalizing s with
  | nil =>
    cases h
    exact ⟨[], (List.append_nil _).symm, rfl⟩
  | cons m r ih =>
    obtain ⟨rfl, h⟩ := h
    obtain ⟨ns, hn, he⟩ := m.exists_notices st
    obtain ⟨ns', hn', he'⟩ := ih h
    refine ⟨ns ++ ns', by rw [hn', hn, List.append_assoc], ?_⟩
    rw [List.filterMap_append, he, he', List.filterMap_cons]
    cases m.deed.error? <;> rfl

theorem executions_le (st : Setting) (m : Moment) :
    m.before.executions ≤ (m.after st).executions := by
  by_cases hd : m.deed.Decides
  · obtain ⟨d, event, data, s, rfl⟩ := exists_decide_of_decides hd
    obtain ⟨_, _, _, h, -⟩ := Dispatch.exists_decide_eq st (st.limit - d) event data s
    rw [after_decide, h]
    exact Nat.le_succ _
  · obtain ⟨_, _, _, ns, h, -⟩ := exists_after_eq st hd
    exact Nat.le_of_eq (congrArg Interaction.executions h).symm

/-- Events are never counted back. -/
theorem Joined.executions_le (h : Joined st s ms t) (hm : m ∈ ms) :
    s.executions ≤ m.before.executions := by
  induction ms generalizing s with
  | nil => cases hm
  | cons n r ih =>
    obtain ⟨rfl, h⟩ := h
    rcases List.mem_cons.mp hm with rfl | hm
    · exact Nat.le_refl _
    · exact Nat.le_trans (n.executions_le st) (ih h hm)

theorem Joined.executions_le_after (h : Joined st s ms t) : s.executions ≤ t.executions :=
  h.invariant (R := fun i j ↦ i.executions ≤ j.executions) (fun _ ↦ Nat.le_refl _) Nat.le_trans
    fun m _ ↦ m.executions_le st

end Moment

/-- The id of the event to whose handlers a part belongs. -/
def Part.executionId? : Part → Option String
  | handlers _ id _ | handler _ id _ => some id
  | _ => none

/-- Failures among these moments are announced with this id, or with that of an event among them. -/
def Attributed (id? : Option String) (ms : List Moment) : Prop :=
  ∀ m ∈ ms, ∀ x id e, m.deed = .fail x id e →
    id? = some id ∨ ∃ n ∈ ms, n.deed.Decides ∧ id = s!"execution-{n.before.executions}"

namespace Attributed

variable {id? : Option String}

theorem nil : Attributed id? [] := List.forall_mem_nil _

theorem of_none (h : Attributed none ms) : Attributed id? ms :=
  fun m hm x id e he ↦ .inr ((h m hm x id e he).resolve_left nofun)

theorem merge {all : List Moment} (h : Attributed id? ms) (h' : Attributed id? ns)
    (hm : ∀ m, m ∈ all ↔ m ∈ ms ∨ m ∈ ns) : Attributed id? all := by
  intro m hmem x id e he
  rcases (hm m).mp hmem with hmem | hmem
  · refine (h m hmem x id e he).imp_right ?_
    rintro ⟨n, hn, hd⟩
    exact ⟨n, (hm n).mpr (.inl hn), hd⟩
  · refine (h' m hmem x id e he).imp_right ?_
    rintro ⟨n, hn, hd⟩
    exact ⟨n, (hm n).mpr (.inr hn), hd⟩

theorem append (h : Attributed id? ms) (h' : Attributed id? ns) : Attributed id? (ms ++ ns) :=
  h.merge h' fun _ ↦ List.mem_append

theorem single (h : m.deed.error? = none) : Attributed id? [m] := by
  intro n hn x id e he
  obtain rfl := List.mem_singleton.mp hn
  rw [he] at h
  cases h

theorem cons (hm : m.deed.error? = none) (h : Attributed id? ms) : Attributed id? (m :: ms) :=
  append (single hm) h

end Attributed

/-- Handlers fail with the id of their event. -/
theorem Course.attributed (h : Course st d p ms o) : Attributed p.executionId? ms := by
  induction h with
  | noHandlers | tooDeep | noActions | unkept | untriggered | nothing => exact .nil
  | disordered | setState | setVariable | announced | kept | unanswered | unreturned =>
    exact .single rfl
  | handled _ ih => exact ih.of_none
  | stopped _ _ ih | unfailed _ ih | uncaught _ _ ih | failed _ ih | done _ _ ih
    | triggered _ _ ih => exact ih
  | passed _ _ _ ih | performed _ _ _ ih | answered _ _ ih | returned _ _ ih => exact .cons rfl ih
  | moreHandlers _ _ merge ihx ihr => exact ihx.merge ihr fun _ ↦ merge.mem_iff
  | moreActions _ _ _ ihx ihr | caught _ _ _ _ ihx ihr | followed _ _ _ ihx ihr =>
    exact ihx.append ihr
  | @aborted d x id data ms e s _ ih =>
    refine ih.of_none.append fun m hm y id' e' he ↦ .inl ?_
    obtain rfl := List.mem_singleton.mp hm
    cases he
    rfl
  | @event d s ms name data _ ih =>
    -- the handlers of the event have its id, and the moment that decides on it is the first
    intro m hm x id e he
    rcases List.mem_cons.mp hm with rfl | hm
    · cases he
    · right
      rcases ih m hm x id e he with hid | ⟨n, hn, hd⟩
      · cases hid
        exact ⟨_, .head _, trivial, rfl⟩
      · exact ⟨n, .tail _ hn, hd⟩

/-- The announcements of failures with an id, in the order of the moments. -/
def failuresOf (id : String) (ms : List Moment) : List ErrorEvent :=
  (ms.filterMap (·.deed.error?)).filter (ErrorEvent.carries id)

theorem failuresOf_append (id : String) (ms ns : List Moment) :
    failuresOf id (ms ++ ns) = failuresOf id ms ++ failuresOf id ns := by
  rw [failuresOf, List.filterMap_append, List.filter_append]
  rfl

theorem Interleave.failuresOf_perm {all : List Moment} (h : Interleave ms ns all) (id : String) :
    (failuresOf id all).Perm (failuresOf id ms ++ failuresOf id ns) := by
  rw [← failuresOf_append]
  exact (h.perm.filterMap _).filter _

/-- No action announces a failure with an id that no event has had in between. -/
theorem Course.failuresOf_actions {as : List Action} (h : Course st d (.actions as data) ms o)
    (hid : ∀ m ∈ ms, m.deed.Decides → s!"execution-{m.before.executions}" ≠ id) :
    failuresOf id ms = [] := by
  refine List.filter_eq_nil_iff.mpr fun e he ↦ ?_
  obtain ⟨m, hm, he⟩ := List.mem_filterMap.mp he
  cases hd : m.deed with
  | fail x id' fault =>
    rw [hd] at he
    cases he
    rcases h.attributed m hm x id' fault hd with h | ⟨n, hn, hdecides, rfl⟩
    · cases h
    · simpa using hid n hn hdecides
  | _ =>
    rw [hd] at he
    cases he

/-- The failures of handlers are announced once each, in the order in which they come about. -/
theorem Account.failuresOf_perm {rs : List Ran} (h : Account st d id data rs ms)
    (hid : ∀ m ∈ ms, m.deed.Decides → s!"execution-{m.before.executions}" ≠ id) :
    (failuresOf id ms).Perm ((rs.filterMap Ran.failure?).map (Failure.announcement id)) := by
  induction h with
  | none => exact .nil
  | @finished x r ms ns all actions rest merge ih =>
    have own := actions.failuresOf_actions fun m hm ↦ hid m (merge.sublist_left.mem hm)
    have perm := merge.failuresOf_perm id
    rw [own, List.nil_append] at perm
    exact perm.trans (ih fun m hm ↦ hid m (merge.sublist_right.mem hm))
  | @failed x r ms ns all e s actions rest merge ih =>
    have own := actions.failuresOf_actions fun m hm ↦
      hid m (merge.sublist_left.mem (List.mem_append_left _ hm))
    have fail : failuresOf id [⟨d, .fail x id e, s⟩] =
        [Failure.announcement id ⟨x.nodeId, x.handler.event, e.chain⟩] := by
      simp [failuresOf, Deed.error?]
    have perm := merge.failuresOf_perm id
    rw [failuresOf_append, own, fail, List.nil_append] at perm
    exact perm.trans ((ih fun m hm ↦ hid m (merge.sublist_right.mem hm)).cons _)

end LivePage
