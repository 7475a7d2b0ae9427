import LivePage.Proofs.Interaction.Course
import LivePage.Proofs.Outcome

/-!
# What is run is a course

Handlers that run one after another, and chains of actions that count the levels below them, come to
what a course comes to in which each handler ends before the next one begins.
-/

namespace LivePage

variable {st : Setting} {d level : Nat} {below : Option Below} {s : Interaction}

/-! ## Orders -/

theorem Order.plain_of_ofConfig {kind : ActionKind} {config : Fields Value} {e : Event}
    (h : Order.ofConfig kind config = .ok (.announce e)) : e.update? = none := by
  cases kind with
  | navigate | showMessage | openModal =>
    obtain ⟨v, -, h⟩ := bind_eq_ok_iff.mp h
    cases h
    rfl
  | setState | setVariable | callApi | triggerEvent | callFunction =>
    obtain ⟨v, -, h⟩ := bind_eq_ok_iff.mp h
    cases h
  | _ =>
    cases h
    try rfl

/-- No order is to announce a write; writes announce themselves. -/
theorem Order.plain_of_ofAction {env : Env} {a : Action} {e : Event}
    (h : Order.ofAction env a = .ok (.announce e)) : e.update? = none := by
  unfold ofAction at h
  split at h
  · obtain ⟨code, -, h⟩ := bind_eq_ok_iff.mp h
    obtain ⟨v, -, h⟩ := bind_eq_ok_iff.mp h
    cases h
  · split at h
    · obtain ⟨config, -, h⟩ := bind_eq_ok_iff.mp h
      exact plain_of_ofConfig h
    · cases h

/-! ## Results that courses come to -/

/-- A result comes about in a course that starts here. -/
def Reaches (st : Setting) (d : Nat) (p : Part) (s : Interaction)
    (r : Interaction × Except ActionError Unit) : Prop :=
  ∃ ms, Course st d p ms r.2 ∧ Moment.Joined st s ms r.1

namespace Reaches

variable {p q : Part} {t u : Interaction} {o : Except ActionError Unit}
  {r : Interaction × Except ActionError Unit}

theorem of_nil (h : Course st d p [] o) : Reaches st d p s (s, o) := ⟨[], h, rfl⟩

theorem of_single (deed : Deed) (h : Course st d p [⟨d, deed, s⟩] o) :
    Reaches st d p s (deed.act st d s, o) :=
  ⟨_, h, rfl, rfl⟩

/-- A moment comes before what is reached from it. -/
theorem cons (deed : Deed) (ht : deed.act st d s = t) (h : Reaches st d q t r)
    (rule : ∀ ms, Course st d q ms r.2 → Course st d p (⟨d, deed, s⟩ :: ms) r.2) :
    Reaches st d p s r := by
  subst ht
  obtain ⟨ms, hc, hj⟩ := h
  exact ⟨_, rule ms hc, rfl, hj⟩

theorem imp (h : Reaches st d q s r) (rule : ∀ ms, Course st d q ms r.2 → Course st d p ms o) :
    Reaches st d p s (r.1, o) := by
  obtain ⟨ms, hc, hj⟩ := h
  exact ⟨ms, rule ms hc, hj⟩

/-- What is reached goes on from where something else was reached. -/
theorem trans {n k : Nat} {p' : Part} (h : Reaches st n q s (t, o)) (h' : Reaches st k p' t r)
    (rule : ∀ ms ns, Course st n q ms o → Course st k p' ns r.2 → Course st d p (ms ++ ns) r.2) :
    Reaches st d p s r := by
  obtain ⟨ms, hc, hj⟩ := h
  obtain ⟨ns, hc', hj'⟩ := h'
  exact ⟨ms ++ ns, rule ms ns hc hc', hj.append hj'⟩

end Reaches

/-! ## Handlers -/

section

variable {run : Runner} (hrun : ∀ as data s, Reaches st d (.actions as data) s (run as data s))

include hrun

theorem reaches_handler (x : Registered) (id : String) (data : Value) (s : Interaction) :
    Reaches st d (.handler x id data) s ((x.run run id data s).1, .ok ()) := by
  have h := hrun x.handler.actions data s
  unfold Registered.run
  cases hr : run x.handler.actions data s with
  | mk t o =>
    rw [hr] at h
    cases o with
    | ok _ => exact h.imp fun ms ↦ .handled
    | error e =>
      obtain ⟨ms, hc, hj⟩ := h
      exact ⟨_, .aborted hc, hj.append ⟨rfl, rfl⟩⟩

theorem reaches_handlers (xs : List Registered) (id : String) (data : Value) (s : Interaction) :
    Reaches st d (.handlers xs id data) s ((Dispatch.runAll run id data xs s).1, .ok ()) := by
  induction xs generalizing s with
  | nil => exact .of_nil .noHandlers
  | cons x r ih =>
    refine (reaches_handler hrun x id data s).trans (ih (x.run run id data s).1) ?_
    exact fun ms ns hx hr ↦ .moreHandlers hx hr (.append ms ns)

/-- The handlers of an event run one after another. -/
theorem reaches_dispatch (hd : d + level = st.limit) (name : String) (data : Value)
    (s : Interaction) :
    Reaches st d (.event name data) s ((Dispatch.dispatch st level run name data s).1, .ok ()) := by
  obtain rfl : level = st.limit - d := by omega
  have h := reaches_handlers hrun (Dispatch.admitted st (st.limit - d) name data s)
    s!"execution-{s.executions}" data (Dispatch.decide st (st.limit - d) name data s).2
  exact .cons (.decide name data) rfl h fun ms ↦ .event

end

/-! ## Actions -/

/-- What is below a depth runs as it should. -/
def Follows (st : Setting) (d : Nat) : Option Below → Prop
  | none => d = st.limit
  | some b => d + 1 + b.level = st.limit ∧
      ∀ as data s, Reaches st (d + 1) (.actions as data) s (b.run as data s)

theorem Follows.le_limit (h : Follows st d below) : d ≤ st.limit := by
  cases below with
  | none => exact Nat.le_of_eq h
  | some b =>
    have := h.1
    omega

theorem reaches_descend (h : Follows st d below) (as : List Action) (data : Value)
    (s : Interaction) :
    Reaches st (d + 1) (.actions as data) s (Action.descend st below as data s) := by
  cases below with
  | some b => exact h.2 as data s
  | none =>
    cases h
    exact .of_nil (.tooDeep (Nat.lt_succ_self _))

theorem reaches_keep (key? : Option String) (v data : Value) (s : Interaction) :
    Reaches st d (.order (.keep key? v) data) s (s.keep key? v) := by
  cases key? with
  | none => exact .of_nil .unkept
  | some key => exact .of_single (.setState key v) .kept

theorem reaches_obey (h : Follows st d below) {x : Order}
    (hx : ∀ e, x = .announce e → e.update? = none) (data : Value) (s : Interaction) :
    Reaches st d (.order x data) s (Action.obey st below data s x) := by
  cases x with
  | setState key v => exact .of_single (.setState key v) .setState
  | setVariable key v => exact .of_single (.setVariable key v) .setVariable
  | announce e => exact .of_single (.announce e) (.announced (hx e rfl))
  | keep key? v => exact reaches_keep key? v data s
  | nothing => exact .of_nil .nothing
  | request r key? =>
    have ht : (Deed.ask r).act st d s = (s.ask st.host r).1 := rfl
    cases ha : s.ask st.host r with
    | mk t answer =>
      simp only [Action.obey, ha]
      rw [ha] at ht
      have ha : (s.ask st.host r).2 = answer := congrArg Prod.snd ha
      cases answer with
      | ok v => exact .cons (.ask r) ht (reaches_keep key? v data t) fun ms ↦ .answered ha
      | error e => exact ⟨_, .unanswered ha, rfl, ht⟩
  | call f args key? =>
    have ht : (Deed.call ⟨f, args, data⟩).act st d s = (s.call st.host ⟨f, args, data⟩).1 := rfl
    cases ha : s.call st.host ⟨f, args, data⟩ with
    | mk t result =>
      simp only [Action.obey, ha]
      rw [ha] at ht
      have ha : (s.call st.host ⟨f, args, data⟩).2 = result := congrArg Prod.snd ha
      cases result with
      | ok v => exact .cons _ ht (reaches_keep key? v data t) fun ms ↦ .returned ha
      | error e => exact ⟨_, .unreturned ha, rfl, ht⟩
  | trigger name payload =>
    cases below with
    | none =>
      cases h
      exact .of_nil (.untriggered (Nat.le_refl _))
    | some b =>
      have hd : d < st.limit := by
        have := h.1
        omega
      obtain ⟨ms, hc, hj⟩ := reaches_dispatch h.2 h.1 name payload s
      exact ⟨ms, .triggered hd hc, hj⟩

theorem reaches_perform (h : Follows st d below) {a : Action} (data : Value)
    (hs : Condition.holds? s.context st.host.clock a.condition = true) :
    Reaches st d (.perform a data) s (a.perform st below data s) := by
  unfold Action.perform
  cases ho : Order.ofAction (s.env st.host.clock data) a with
  | error e => exact .of_single (.perform a) (.disordered hs ho)
  | ok x =>
    -- the order comes from an action, so that what it announces is plain
    have hx (e : Event) (he : x = .announce e) : e.update? = none :=
      Order.plain_of_ofAction (he ▸ ho)
    exact .cons (.perform a) rfl (reaches_obey h hx data s) fun ms ↦ .performed hs ho

namespace Action

/-- Performs an action and what follows its success. -/
def forward (st : Setting) (below : Option Below) (a : Action) (data : Value) (s : Interaction) :
    Interaction × Except ActionError Unit :=
  match a.perform st below data s, a.onSuccess with
  | (s, .ok ()), some actions => descend st below actions data s
  | result, _ => result

theorem attempt_eq (st : Setting) (below : Option Below) (a : Action) (data : Value)
    (s : Interaction) :
    a.attempt st below data s =
      match (a.forward st below data s).2, a.onError with
      | .error (.tooDeep depth limit), _ =>
        ((a.forward st below data s).1, .error (.tooDeep depth limit))
      | .error e, some actions =>
        descend st below actions (faultData e data) (a.forward st below data s).1
      | outcome, _ => ((a.forward st below data s).1, outcome) := rfl

end Action

theorem reaches_forward (h : Follows st d below) {a : Action} (data : Value)
    (hs : Condition.holds? s.context st.host.clock a.condition = true) :
    Reaches st d (.forward a data) s (a.forward st below data s) := by
  have hp := reaches_perform h data hs
  unfold Action.forward
  cases hr : a.perform st below data s with
  | mk t o =>
    rw [hr] at hp
    cases o with
    | error e => exact hp.imp fun ms ↦ .failed
    | ok _ =>
      cases ha : a.onSuccess with
      | none => exact hp.imp fun ms hc ↦ .done hc ha
      | some as =>
        exact hp.trans (reaches_descend h as data t) fun ms ns hc hn ↦ .followed hc ha hn

theorem reaches_attempt (h : Follows st d below) {a : Action} (data : Value)
    (hs : Condition.holds? s.context st.host.clock a.condition = true) :
    Reaches st d (.action a data) s (a.attempt st below data s) := by
  have hf := reaches_forward h data hs
  rw [Action.attempt_eq]
  -- a chain that is too deep is not followed, other failures are, and all else is the outcome
  generalize a.forward st below data s = r at hf ⊢
  obtain ⟨t, o⟩ := r
  dsimp only
  split
  · exact hf.imp fun ms hc ↦ .uncaught hc (.inr ⟨_, _, rfl⟩)
  · next e as hn ha =>
    have he : ¬e.IsTooDeep := by
      rintro ⟨depth, limit, rfl⟩
      exact hn depth limit rfl
    exact hf.trans (reaches_descend h as _ t) fun ms ns hc hn ↦ .caught hc he ha hn
  · next o _ _ hn hm =>
    cases o with
    | ok _ => exact hf.imp fun ms ↦ .unfailed
    | error e =>
      cases ha : a.onError with
      | none => exact hf.imp fun ms hc ↦ .uncaught hc (.inl ha)
      | some as => exact absurd ha (hm e as rfl)

theorem reaches_runList (h : Follows st d below) (as : List Action) (data : Value)
    (s : Interaction) :
    Reaches st d (.actions as data) s (Action.runList st below as data s) := by
  induction as generalizing s with
  | nil => exact .of_nil (.noActions h.le_limit)
  | cons a r ih =>
    rw [Action.runList]
    cases hs : Condition.holds? s.context st.host.clock a.condition with
    | false =>
      exact .cons (.pass a) rfl (ih s) fun ms ↦ .passed h.le_limit hs
    | true =>
      have ha := reaches_attempt h data hs
      cases hr : a.attempt st below data s with
      | mk t o =>
        rw [hr] at ha
        simp only [if_true]
        cases o with
        | ok _ => exact ha.trans (ih t) fun ms ns ↦ .moreActions h.le_limit
        | error e => exact ha.imp fun ms ↦ .stopped h.le_limit

/-- Actions with some levels below them run as they can at the depth above these levels. -/
theorem reaches_run (hd : d + level = st.limit) (as : List Action) (data : Value)
    (s : Interaction) :
    Reaches st d (.actions as data) s (Action.run st level as data s) := by
  induction level generalizing d as data s with
  | zero =>
    have h : Follows st d none := hd
    exact reaches_runList h as data s
  | succ n ih =>
    have hd : d + 1 + n = st.limit := by omega
    have h : Follows st d (some ⟨n, Action.run st n⟩) := ⟨hd, ih hd⟩
    exact reaches_runList h as data s

end LivePage
