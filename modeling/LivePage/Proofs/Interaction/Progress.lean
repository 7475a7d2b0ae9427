import LivePage.Proofs.Interaction.Adequacy

/-!
# Whatever others do, a part of an interaction goes on to its end

Between the moments of a part of an interaction, other handlers, other events and the host may do what
they like.  So it is left open here what each moment finds, and it may be anything, depending on all
moments of the part before it.
-/

namespace LivePage

variable {st : Setting} {others : List Moment → Interaction} {past ms ns : List Moment}
  {d k : Nat} {p q : Part}

/-- Each moment finds what others have made of everything, given the moments before it. -/
def Found (others : List Moment → Interaction) : List Moment → List Moment → Prop
  | _, [] => True
  | past, m :: r => m.before = others past ∧ Found others (past ++ [m]) r

theorem Found.append (h : Found others past ms) (h' : Found others (past ++ ms) ns) :
    Found others past (ms ++ ns) := by
  induction ms generalizing past with
  | nil => rwa [List.append_nil] at h'
  | cons m r ih =>
    refine ⟨h.1, ih h.2 ?_⟩
    rwa [List.append_assoc]

/-- A part of an interaction comes to its end, with what others make it find. -/
def Goes (st : Setting) (others : List Moment → Interaction) (past : List Moment) (d : Nat)
    (p : Part) : Prop :=
  ∃ ms o, Course st d p ms o ∧ Found others past ms

/-- After these moments a part is at its end, or it goes on as another part does. -/
def GoesOn (st : Setting) (others : List Moment → Interaction) (past : List Moment) (d : Nat)
    (p : Part) (ms : List Moment) : Prop :=
  (∃ o, Course st d p ms o) ∨ ∃ k q, Goes st others (past ++ ms) k q ∧
    ∀ ns o, Course st k q ns o → ∃ o', Course st d p (ms ++ ns) o'

namespace Goes

theorem of_nil {o : Except ActionError Unit} (h : Course st d p [] o) : Goes st others past d p :=
  ⟨[], o, h, trivial⟩

theorem of_goesOn (hm : Found others past ms) (h : GoesOn st others past d p ms) :
    Goes st others past d p := by
  rcases h with ⟨o, hc⟩ | ⟨k, q, ⟨ns, o, hc, hn⟩, rule⟩
  · exact ⟨ms, o, hc, hm⟩
  · obtain ⟨o', hc'⟩ := rule ns o hc
    exact ⟨ms ++ ns, o', hc', hm.append hn⟩

theorem of_moment (deed : Deed) (h : GoesOn st others past d p [⟨d, deed, others past⟩]) :
    Goes st others past d p := by
  have found : Found others past [⟨d, deed, others past⟩] := ⟨rfl, trivial⟩
  exact of_goesOn found h

theorem of_part (hq : Goes st others past k q)
    (h : ∀ ms o, Course st k q ms o → GoesOn st others past d p ms) : Goes st others past d p := by
  obtain ⟨ms, o, hc, hm⟩ := hq
  exact of_goesOn hm (h ms o hc)

end Goes

/-! ## Handlers -/

theorem Course.handler_ok {x : Registered} {id : String} {data : Value}
    {o : Except ActionError Unit} (h : Course st d (.handler x id data) ms o) : o = .ok () := by
  cases h with
  | handled => rfl
  | aborted => rfl

theorem Course.handlers_ok {xs : List Registered} {id : String} {data : Value}
    {o : Except ActionError Unit} (h : Course st d (.handlers xs id data) ms o) : o = .ok () := by
  cases h with
  | noHandlers => rfl
  | moreHandlers => rfl

/-- Lists of actions go on to their end at a depth, whatever was before. -/
def ActionsGo (st : Setting) (others : List Moment → Interaction) (d : Nat) : Prop :=
  ∀ past as data, Goes st others past d (.actions as data)

theorem goes_handler (h : ActionsGo st others d) (past : List Moment) (x : Registered)
    (id : String) (data : Value) : Goes st others past d (.handler x id data) := by
  obtain ⟨ms, o, hc, hm⟩ := h past x.handler.actions data
  cases o with
  | ok _ => exact ⟨ms, _, .handled hc, hm⟩
  | error e => exact ⟨_, _, .aborted hc, hm.append ⟨rfl, trivial⟩⟩

theorem goes_handlers (h : ActionsGo st others d) (past : List Moment) (xs : List Registered)
    (id : String) (data : Value) : Goes st others past d (.handlers xs id data) := by
  induction xs generalizing past with
  | nil => exact .of_nil .noHandlers
  | cons x r ih =>
    refine .of_part (goes_handler h past x id data) fun ms o hx ↦
      .inr ⟨d, .handlers r id data, ih _, fun ns o' hr ↦ ?_⟩
    cases hx.handler_ok
    cases hr.handlers_ok
    exact ⟨_, .moreHandlers hx hr (.append ms ns)⟩

theorem goes_event (h : ActionsGo st others d) (past : List Moment) (name : String)
    (data : Value) : Goes st others past d (.event name data) := by
  refine .of_moment (.decide name data) (.inr ⟨d, _, goes_handlers h _
    (Dispatch.admitted st (st.limit - d) name data (others past))
    s!"execution-{(others past).executions}" data, fun ns o hc ↦ ?_⟩)
  cases hc.handlers_ok
  exact ⟨_, .event hc⟩

/-! ## Actions -/

theorem goes_keep (past : List Moment) (key? : Option String) (v data : Value) :
    Goes st others past d (.order (.keep key? v) data) := by
  cases key? with
  | none => exact .of_nil .unkept
  | some key => exact .of_moment (.setState key v) (.inl ⟨_, .kept⟩)

theorem goes_order (h : ActionsGo st others (d + 1)) (past : List Moment) {x : Order}
    (hx : ∀ e, x = .announce e → e.update? = none) (data : Value) :
    Goes st others past d (.order x data) := by
  cases x with
  | setState key v => exact .of_moment (.setState key v) (.inl ⟨_, .setState⟩)
  | setVariable key v => exact .of_moment (.setVariable key v) (.inl ⟨_, .setVariable⟩)
  | announce e => exact .of_moment (.announce e) (.inl ⟨_, .announced (hx e rfl)⟩)
  | keep key? v => exact goes_keep past key? v data
  | nothing => exact .of_nil .nothing
  | request r key? =>
    refine .of_moment (.ask r) ?_
    cases ha : ((others past).ask st.host r).2 with
    | error e => exact .inl ⟨_, .unanswered ha⟩
    | ok v => exact .inr ⟨d, _, goes_keep _ key? v data, fun ns o hc ↦ ⟨o, .answered ha hc⟩⟩
  | call f args key? =>
    refine .of_moment (.call ⟨f, args, data⟩) ?_
    cases ha : ((others past).call st.host ⟨f, args, data⟩).2 with
    | error e => exact .inl ⟨_, .unreturned ha⟩
    | ok v => exact .inr ⟨d, _, goes_keep _ key? v data, fun ns o hc ↦ ⟨o, .returned ha hc⟩⟩
  | trigger name payload =>
    rcases Nat.lt_or_ge d st.limit with hd | hd
    · obtain ⟨ms, o, hc, hm⟩ := goes_event h past name payload
      have ho : o = .ok () := by
        cases hc
        rfl
      subst ho
      exact ⟨ms, _, .triggered hd hc, hm⟩
    · exact .of_nil (.untriggered hd)

theorem goes_perform (h : ActionsGo st others (d + 1)) {a : Action} (data : Value)
    (hs : Condition.holds? (others past).context st.host.clock a.condition = true) :
    Goes st others past d (.perform a data) := by
  refine .of_moment (.perform a) ?_
  cases ho : Order.ofAction ((others past).env st.host.clock data) a with
  | error e => exact .inl ⟨_, .disordered hs ho⟩
  | ok x =>
    have hx (e : Event) (he : x = .announce e) : e.update? = none :=
      Order.plain_of_ofAction (he ▸ ho)
    exact .inr ⟨d, _, goes_order h _ hx data, fun ns o hc ↦ ⟨o, .performed hs ho hc⟩⟩

theorem goes_forward (h : ActionsGo st others (d + 1)) {a : Action} (data : Value)
    (hs : Condition.holds? (others past).context st.host.clock a.condition = true) :
    Goes st others past d (.forward a data) := by
  refine .of_part (goes_perform h data hs) fun ms o hc ↦ ?_
  cases o with
  | error e => exact .inl ⟨_, .failed hc⟩
  | ok _ =>
    cases ha : a.onSuccess with
    | none => exact .inl ⟨_, .done hc ha⟩
    | some as => exact .inr ⟨d + 1, _, h _ as data, fun ns o hn ↦ ⟨o, .followed hc ha hn⟩⟩

theorem goes_action (h : ActionsGo st others (d + 1)) {a : Action} (data : Value)
    (hs : Condition.holds? (others past).context st.host.clock a.condition = true) :
    Goes st others past d (.action a data) := by
  refine .of_part (goes_forward h data hs) fun ms o hc ↦ ?_
  cases o with
  | ok _ => exact .inl ⟨_, .unfailed hc⟩
  | error e =>
    by_cases he : e.IsTooDeep
    · exact .inl ⟨_, .uncaught hc (.inr he)⟩
    · cases ha : a.onError with
      | none => exact .inl ⟨_, .uncaught hc (.inl ha)⟩
      | some as => exact .inr ⟨d + 1, _, h _ as _, fun ns o hn ↦ ⟨o, .caught hc he ha hn⟩⟩

theorem actionsGo_of_le (h : ActionsGo st others (d + 1)) (hd : d ≤ st.limit) :
    ActionsGo st others d := by
  intro past as data
  induction as generalizing past with
  | nil => exact .of_nil (.noActions hd)
  | cons a r ih =>
    cases hs : Condition.holds? (others past).context st.host.clock a.condition with
    | false =>
      exact .of_moment (.pass a) (.inr ⟨d, _, ih _, fun ns o hc ↦ ⟨o, .passed hd hs hc⟩⟩)
    | true =>
      refine .of_part (goes_action h data hs) fun ms o hc ↦ ?_
      cases o with
      | error e => exact .inl ⟨_, .stopped hd hc⟩
      | ok _ => exact .inr ⟨d, _, ih _, fun ns o hn ↦ ⟨o, .moreActions hd hc hn⟩⟩

/-- Every list of actions goes on to its end.  Each level below goes on before it, and there are only
so many. -/
theorem actionsGo (st : Setting) (others : List Moment → Interaction) (d : Nat) :
    ActionsGo st others d := by
  induction hn : st.limit + 1 - d generalizing d with
  | zero =>
    have hd : st.limit < d := by omega
    exact fun past as data ↦ .of_nil (.tooDeep hd)
  | succ n ih =>
    have hd : d ≤ st.limit := by omega
    exact actionsGo_of_le (ih (d + 1) (by omega)) hd

/-- A handler goes on to the end of its actions, or to the failure that ends them. -/
theorem exists_handler_course (st : Setting) (others : List Moment → Interaction) (d : Nat)
    (x : Registered) (id : String) (data : Value) :
    ∃ ms, Course st d (.handler x id data) ms (.ok ()) ∧ Found others [] ms := by
  obtain ⟨ms, o, hc, hm⟩ := goes_handler (actionsGo st others d) [] x id data
  cases hc.handler_ok
  exact ⟨ms, hc, hm⟩

end LivePage
