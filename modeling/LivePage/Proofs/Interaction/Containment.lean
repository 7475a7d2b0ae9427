import LivePage.Proofs.Interaction.Account

/-!
# Failures that are caught

What follows the failure of an action takes its place.  So actions fail only where nothing follows
their failure, or where a chain of them is too deep; and how deep they go can be told before they run,
since what goes wrong in an event that they trigger is nothing to them.
-/

namespace LivePage

variable {st : Setting} {d : Nat} {data : Value} {p : Part} {ms : List Moment}
  {o : Except ActionError Unit} {a : Action} {as : List Action}

namespace Action

/-! ## How deep actions go -/

mutual

/-- How many steps an action goes down: to what follows it, or to the handlers of an event. -/
def nesting : Action → Nat
  | { kind, onError, onSuccess, .. } =>
    max (if kind = .triggerEvent then 1 else 0)
      (max (nestingOption onError) (nestingOption onSuccess))

def nestingOption : Option (List Action) → Nat
  | none => 0
  | some as => nestingList as + 1

def nestingList : List Action → Nat
  | [] => 0
  | a :: r => max a.nesting (nestingList r)

end

theorem nesting_eq (a : Action) :
    a.nesting = max (if a.kind = .triggerEvent then 1 else 0)
      (max (nestingOption a.onError) (nestingOption a.onSuccess)) := by
  cases a
  rw [nesting]

theorem lt_nesting_of_onError (h : a.onError = some as) : nestingList as < a.nesting := by
  rw [nesting_eq, h, nestingOption]
  omega

theorem lt_nesting_of_onSuccess (h : a.onSuccess = some as) : nestingList as < a.nesting := by
  rw [nesting_eq, h, nestingOption]
  omega

theorem nesting_pos_of_trigger (h : a.kind = .triggerEvent) : 0 < a.nesting := by
  rw [nesting_eq, if_pos h]
  omega

theorem nesting_le_cons (a : Action) (r : List Action) :
    a.nesting ≤ nestingList (a :: r) ∧ nestingList r ≤ nestingList (a :: r) := by
  rw [nestingList]
  omega

/-! ## Safe actions -/

/-- An action of a kind that does nothing. -/
def IsIdle (a : Action) : Prop := a.kind.isReserved = true ∨ ∃ tag, a.kind = .unknown tag

/-- Where an action may fail, something follows its failure that does not. -/
inductive Safe : Action → Prop where
  | caught {a : Action} {as : List Action} (onError : a.onError = some as)
      (safe : ∀ b ∈ as, Safe b) : Safe a
  | idle {a : Action} (idle : a.IsIdle)
      (onSuccess : ∀ as, a.onSuccess = some as → ∀ b ∈ as, Safe b) : Safe a

end Action

/-! ## Errors that are not too deep -/

/-- Nothing is too deep. -/
def Shallow {α : Type} (o : Except ActionError α) : Prop := ∀ e, o = .error e → ¬e.IsTooDeep

namespace Shallow

variable {α β ε : Type}

theorem ok (a : α) : Shallow (.ok a) := nofun

theorem error {e : ActionError} (h : ¬e.IsTooDeep) : Shallow (.error e : Except ActionError α) := by
  rintro _ ⟨⟩
  exact h

theorem bind {x : Except ActionError α} {f : α → Except ActionError β} (hx : Shallow x)
    (hf : ∀ a, Shallow (f a)) : Shallow (x >>= f) := by
  cases x with
  | ok a => exact hf a
  | error e => exact error (hx e rfl)

theorem mapError {f : ε → ActionError} (h : ∀ e, ¬(f e).IsTooDeep) (x : Except ε α) :
    Shallow (x.mapError f) := by
  cases x with
  | ok a => exact ok a
  | error e => exact error (h e)

theorem required (kind : ActionKind) (config : Fields Value) (field : String) :
    Shallow (Order.required kind config field) := by
  unfold Order.required
  split
  · exact error nofun
  · exact error nofun
  · exact error nofun
  · exact ok _

theorem requiredText (kind : ActionKind) (config : Fields Value) (field : String) :
    Shallow (Order.requiredText kind config field) := by
  have h := required kind config field
  unfold Order.requiredText
  cases hr : Order.required kind config field with
  | ok v => exact ok _
  | error e => exact error (h e hr)

theorem ofConfig (kind : ActionKind) (config : Fields Value) :
    Shallow (Order.ofConfig kind config) := by
  cases kind with
  | setState | setVariable | callApi | navigate | triggerEvent | callFunction =>
    exact (requiredText _ _ _).bind fun _ ↦ ok _
  | showMessage | openModal => exact (required _ _ _).bind fun _ ↦ ok _
  | _ => exact ok _

/-- To make an order of an action is no step down. -/
theorem ofAction (env : Env) (a : Action) : Shallow (Order.ofAction env a) := by
  unfold Order.ofAction
  split
  · exact (requiredText _ _ _).bind fun _ ↦ (mapError nofun _).bind fun _ ↦ ok _
  · split
    · exact (mapError nofun _).bind fun _ ↦ ofConfig _ _
    · exact ok _

theorem write (s : Interaction) (k : Namespace) (kind : EventKind) (path : String) (v : Value) :
    Shallow (s.write k kind path v).2 := by
  unfold Interaction.write
  split
  · exact ok _
  · exact error nofun

theorem ask (s : Interaction) (h : Host) (r : Request) : Shallow (s.ask h r).2 := by
  unfold Interaction.ask
  cases h.answer s.requests r with
  | ok v => exact ok _
  | error e => exact error (by rintro ⟨_, _, ⟨⟩⟩)

theorem call (s : Interaction) (h : Host) (c : Call) : Shallow (s.call h c).2 := by
  unfold Interaction.call
  split
  · exact error nofun
  · exact mapError nofun _

end Shallow

namespace Order

/-- An order to trigger an event. -/
def Triggers (x : Order) : Prop := ∃ event payload, x = .trigger event payload

/-- Only one kind of action triggers events. -/
theorem kind_of_triggers {env : Env} {x : Order} (h : ofAction env a = .ok x) (hx : x.Triggers) :
    a.kind = .triggerEvent := by
  obtain ⟨event, payload, rfl⟩ := hx
  unfold ofAction at h
  split at h
  · obtain ⟨code, -, h⟩ := bind_eq_ok_iff.mp h
    obtain ⟨v, -, h⟩ := bind_eq_ok_iff.mp h
    cases h
  · split at h
    · obtain ⟨config, -, h⟩ := bind_eq_ok_iff.mp h
      cases hk : a.kind with
      | triggerEvent => rfl
      | setState | setVariable | callApi | navigate | showMessage | openModal | callFunction =>
        rw [hk] at h
        obtain ⟨v, -, h⟩ := bind_eq_ok_iff.mp h
        cases h
      | _ =>
        rw [hk] at h
        cases h
    · cases h

theorem ofAction_of_isIdle (env : Env) (h : a.IsIdle) : ofAction env a = .ok .nothing := by
  unfold ofAction
  rcases h with h | ⟨tag, h⟩
  · cases hk : a.kind with
    | _ =>
      rw [hk] at h
      first
      | rfl
      | cases h
  · rw [h]
    rfl

end Order

/-! ## Parts that come to their end -/

namespace Part

/-- No step down from a part goes below the limit, but for what events are triggered. -/
def Fits (limit d : Nat) : Part → Prop
  | actions as _ => d + Action.nestingList as ≤ limit
  | action a _ | forward a _ | perform a _ => d + a.nesting ≤ limit
  | order x _ => x.Triggers → d < limit
  | _ => True

namespace Fits

variable {limit : Nat} {data' : Value} {r : List Action}

theorem head (h : Fits limit d (actions (a :: r) data)) : Fits limit d (action a data) :=
  Nat.le_trans (Nat.add_le_add_left (Action.nesting_le_cons a r).1 d) h

theorem tail (h : Fits limit d (actions (a :: r) data)) : Fits limit d (actions r data) :=
  Nat.le_trans (Nat.add_le_add_left (Action.nesting_le_cons a r).2 d) h

theorem onError (h : Fits limit d (action a data)) (ha : a.onError = some as) :
    Fits limit (d + 1) (actions as data') := by
  have := Action.lt_nesting_of_onError ha
  simp only [Fits] at h ⊢
  omega

theorem onSuccess (h : Fits limit d (forward a data)) (ha : a.onSuccess = some as) :
    Fits limit (d + 1) (actions as data') := by
  have := Action.lt_nesting_of_onSuccess ha
  simp only [Fits] at h ⊢
  omega

theorem order {env : Env} {x : Order} (h : Fits limit d (perform a data))
    (hx : Order.ofAction env a = .ok x) : Fits limit d (order x data') := by
  intro ht
  have := Action.nesting_pos_of_trigger (Order.kind_of_triggers hx ht)
  simp only [Fits] at h
  omega

end Fits

/-- A part comes to its end, as far as it fits. -/
def Safe : Part → Prop
  | actions as _ => ∀ a ∈ as, a.Safe
  | action a _ => a.Safe
  | forward a _ => a.IsIdle ∧ ∀ as, a.onSuccess = some as → ∀ b ∈ as, b.Safe
  | perform a _ => a.IsIdle
  | order x _ => x = .nothing
  | _ => True

end Part

namespace Course

/-- What fits is not too deep. -/
theorem shallow (h : Course st d p ms o) (fits : p.Fits st.limit d) : Shallow o := by
  induction h with
  | event | noHandlers | moreHandlers | handled | aborted | noActions | unfailed | announced
    | unkept | triggered | nothing | done => exact .ok _
  | tooDeep deep =>
    have : _ ≤ st.limit := Nat.le_trans (Nat.le_add_right ..) fits
    omega
  | passed _ _ _ ih | moreActions _ _ _ _ ih => exact ih fits.tail
  | stopped _ _ ih => exact ih fits.head
  | uncaught _ _ ih | failed _ ih => exact ih fits
  | caught _ _ onError _ _ ih => exact ih (fits.onError onError)
  | followed _ onSuccess _ _ ih => exact ih (fits.onSuccess onSuccess)
  | disordered _ order => exact .error (Shallow.ofAction _ _ _ order)
  | performed _ order _ ih => exact ih (fits.order order)
  | setState | setVariable | kept => exact Shallow.write _ _ _ _ _
  | answered _ _ ih | returned _ _ ih => exact ih nofun
  | unanswered answer => exact .error (Shallow.ask _ _ _ _ answer)
  | unreturned result => exact .error (Shallow.call _ _ _ _ result)
  | untriggered deep => exact absurd (fits ⟨_, _, rfl⟩) (Nat.not_lt.mpr deep)

/-- What is safe and fits comes to its end. -/
theorem ok_of_safe (h : Course st d p ms o) (safe : p.Safe) (fits : p.Fits st.limit d) :
    o = .ok () := by
  induction h with
  | event | noHandlers | moreHandlers | handled | aborted | noActions | unfailed | announced
    | unkept | triggered | nothing | done => rfl
  | tooDeep deep =>
    have : _ ≤ st.limit := Nat.le_trans (Nat.le_add_right ..) fits
    omega
  | passed _ _ _ ih | moreActions _ _ _ _ ih => exact ih (fun a ha ↦ safe a (.tail _ ha)) fits.tail
  | stopped _ _ ih => exact ih (safe _ (.head _)) fits.head
  | uncaught forward free ih =>
    cases safe with
    | caught onError _ =>
      -- something follows the failure, so that it can only be too deep; but it fits
      have deep := free.resolve_left (by rw [onError]; nofun)
      exact absurd deep (forward.shallow fits _ rfl)
    | idle idle onSuccess => exact ih ⟨idle, onSuccess⟩ fits
  | caught _ _ onError _ ihf ih =>
    cases safe with
    | caught onError' safe =>
      cases onError.symm.trans onError'
      exact ih safe (fits.onError onError)
    | idle idle onSuccess => cases ihf ⟨idle, onSuccess⟩ fits
  | failed _ ih => exact ih safe.1 fits
  | followed _ onSuccess _ _ ih => exact ih (safe.2 _ onSuccess) (fits.onSuccess onSuccess)
  | disordered _ order => cases (Order.ofAction_of_isIdle _ safe).symm.trans order
  | performed _ order _ ih =>
    cases (Order.ofAction_of_isIdle _ safe).symm.trans order
    exact ih rfl (fits.order order)
  | setState | setVariable | kept | answered | returned | unanswered | unreturned
    | untriggered => cases safe

end Course

/-! ## Every action has its turn -/

/-- What happens of an action in a list that comes to its end: it is passed over where its condition
does not hold, and where it holds the action is performed. -/
inductive Turn (st : Setting) (d : Nat) (data : Value) (a : Action) : List Moment → Prop where
  | passed {s : Interaction}
      (fails : Condition.holds? s.context st.host.clock a.condition = false) :
    Turn st d data a [⟨d, .pass a, s⟩]
  | performed {s : Interaction} {r : List Moment}
      (holds : Condition.holds? s.context st.host.clock a.condition = true)
      (course : Course st d (.action a data) (⟨d, .perform a, s⟩ :: r) (.ok ())) :
    Turn st d data a (⟨d, .perform a, s⟩ :: r)

/-- These moments begin with one in which an action is performed. -/
def Performs (st : Setting) (d : Nat) (a : Action) (ms : List Moment) : Prop :=
  ∃ s r, ms = ⟨d, .perform a, s⟩ :: r ∧
    Condition.holds? s.context st.host.clock a.condition = true

theorem Performs.append (h : Performs st d a ms) (ns : List Moment) :
    Performs st d a (ms ++ ns) := by
  obtain ⟨s, r, rfl, holds⟩ := h
  exact ⟨s, r ++ ns, rfl, holds⟩

namespace Course

theorem performs_of_perform (h : Course st d (.perform a data) ms o) : Performs st d a ms := by
  cases h with
  | disordered holds => exact ⟨_, _, rfl, holds⟩
  | performed holds => exact ⟨_, _, rfl, holds⟩

theorem performs_of_forward (h : Course st d (.forward a data) ms o) : Performs st d a ms := by
  cases h with
  | failed perform => exact perform.performs_of_perform
  | done perform => exact perform.performs_of_perform
  | followed perform => exact perform.performs_of_perform.append _

theorem performs (h : Course st d (.action a data) ms o) : Performs st d a ms := by
  cases h with
  | unfailed forward => exact forward.performs_of_forward
  | uncaught forward => exact forward.performs_of_forward
  | caught forward => exact forward.performs_of_forward.append _

/-- In a list of actions that comes to its end, each has its turn. -/
theorem exists_turns (h : Course st d (.actions as data) ms (.ok ())) :
    ∃ turns, ms = turns.flatten ∧ List.Forall₂ (Turn st d data) as turns := by
  induction as generalizing ms with
  | nil =>
    cases h
    exact ⟨[], rfl, .nil⟩
  | cons a r ih =>
    cases h with
    | passed _ fails rest =>
      obtain ⟨turns, rfl, all⟩ := ih rest
      exact ⟨_ :: turns, rfl, .cons (.passed fails) all⟩
    | moreActions _ first rest =>
      obtain ⟨turns, rfl, all⟩ := ih rest
      obtain ⟨s, ns, rfl, holds⟩ := first.performs
      exact ⟨_ :: turns, rfl, .cons (.performed holds first) all⟩

end Course

/-- Safe actions that do not go too deep come to their end, whatever fails in between: as they are run
one after another, and in every course, where others may do what they like.  Each of them has its
turn: the turns of those that are run follow one another from what the first one finds to what is left
in the end.  A handler with such actions is never reported to have failed. -/
theorem safe_actions_succeed (st : Setting) {d : Nat} {as : List Action}
    (safe : ∀ a ∈ as, a.Safe) (fits : d + Action.nestingList as ≤ st.limit) (data : Value) :
    (∀ s, (Action.run st (st.limit - d) as data s).2 = .ok () ∧
      ∃ turns, List.Forall₂ (Turn st d data) as turns ∧
        Course st d (.actions as data) turns.flatten (.ok ()) ∧
        Moment.Joined st s turns.flatten (Action.run st (st.limit - d) as data s).1) ∧
    (∀ others, ∃ ms, Course st d (.actions as data) ms (.ok ()) ∧ Found others [] ms) ∧
    (∀ ms o, Course st d (.actions as data) ms o → o = .ok () ∧
      ∃ turns, ms = turns.flatten ∧ List.Forall₂ (Turn st d data) as turns) ∧
    ∀ x : Registered, x.handler.actions = as → ∀ id,
      (∀ s, (x.run (Action.run st (st.limit - d)) id data s).2 = none) ∧
      (∀ ms o, Course st d (.handler x id data) ms o → Course st d (.actions as data) ms (.ok ())) ∧
      ∀ rs ms, Account st d id data rs ms → ∀ r ∈ rs, r.registered = x → r.failure? = none := by
  have succeeds {ms : List Moment} {o : Except ActionError Unit}
      (h : Course st d (.actions as data) ms o) : o = .ok () := h.ok_of_safe safe fits
  have hd : d + (st.limit - d) = st.limit := by omega
  have runs (s : Interaction) : (Action.run st (st.limit - d) as data s).2 = .ok () ∧
      ∃ turns, List.Forall₂ (Turn st d data) as turns ∧
        Course st d (.actions as data) turns.flatten (.ok ()) ∧
        Moment.Joined st s turns.flatten (Action.run st (st.limit - d) as data s).1 := by
    obtain ⟨ms, course, joined⟩ := reaches_run hd as data s
    have ends := succeeds course
    rw [ends] at course
    obtain ⟨turns, rfl, all⟩ := course.exists_turns
    exact ⟨ends, turns, all, course, joined⟩
  refine ⟨runs, fun others ↦ ?_, fun ms o h ↦ ?_, ?_⟩
  · obtain ⟨ms, o, course, found⟩ := actionsGo st others d [] as data
    cases succeeds course
    exact ⟨ms, course, found⟩
  · cases succeeds h
    exact ⟨rfl, h.exists_turns⟩
  · rintro x rfl id
    refine ⟨fun s ↦ ?_, fun ms o h ↦ ?_, fun rs ms h r hr hx ↦ ?_⟩
    · have h := (runs s).1
      unfold Registered.run
      generalize Action.run st (st.limit - d) x.handler.actions data s = result at h
      obtain ⟨t, o⟩ := result
      cases h
      rfl
    · cases h with
      | handled actions => exact actions
      | aborted actions => cases succeeds actions
    · subst hx
      obtain ⟨course, -⟩ := h.ran hr
      rw [Ran.failure?, succeeds course]

/-- A message that takes the place of a page that cannot be opened, and another one if that cannot
be shown. -/
theorem safe_navigation_succeeds :
    let message : Action := { kind := .showMessage, onError := some [] }
    let as : List Action := [
      { kind := .navigate, onError := some [message], onSuccess := some [{ kind := .triggerEvent }] },
      { kind := .parallel, onSuccess := some [message] }]
    let x : Registered := ⟨"link", { event := "press", actions := as }, 0⟩
    let st : Setting := ⟨.alone 0, {}, 0, 2⟩
    Action.nestingList as = 2 ∧ ∀ s, (x.run (Action.run st 2) "execution-0" .null s).2 = none := by
  intro message as x st
  have safe : ∀ a ∈ as, a.Safe := by
    have nothing : ∀ b ∈ ([] : List Action), b.Safe := List.forall_mem_nil _
    have shown : ∀ b ∈ [message], b.Safe := List.forall_mem_singleton.mpr (.caught rfl nothing)
    refine List.forall_mem_cons.mpr ⟨.caught rfl shown, List.forall_mem_singleton.mpr ?_⟩
    refine .idle (.inl rfl) ?_
    rintro _ ⟨⟩
    exact shown
  have nesting : Action.nestingList as = 2 := by cbv
  obtain ⟨-, -, -, handler⟩ :=
    safe_actions_succeed st (d := 0) safe (nesting ▸ Nat.le_refl 2) .null
  exact ⟨nesting, (handler x rfl "execution-0").1⟩

end LivePage
