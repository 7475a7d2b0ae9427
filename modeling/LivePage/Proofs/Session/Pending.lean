import LivePage.Proofs.Interaction.Trigger
import LivePage.Proofs.Session.Timeline

/-!
# What waits belongs to handlers

Whatever is done to a session, each run that waits is of a handler that is registered, and of each
handler there is at most one.
-/

namespace LivePage.Session

variable {s t : Session} {i : Interaction} {ms : List Moment} {v w : Waiting} {x : Registered}
  {op : Operation} {target : Nat} {rs : List Started} {data : Value}

/-- Each run that waits is of a handler that is registered, at most one of each, and is not
overdue. -/
structure Sound (s : Session) : Prop where
  represented : ∃ log : Log, log.Represents s.registry
  settled : s.interaction.deferrals = []
  targets : ∀ w ∈ s.waiting, w.run.target ∈ s.registry.all
  numbers : (s.waiting.map Waiting.number).Nodup
  due : ∀ w ∈ s.waiting, s.now ≤ w.due

/-- Between operations, nothing is due any more. -/
structure Ready (s : Session) : Prop extends Sound s where
  current : ∀ w ∈ s.waiting, s.now < w.due

namespace Sound

theorem start (config : Config) (components : Components) (host : Host) (context : Context) :
    Sound (start config components host context) where
  represented := ⟨[], .empty⟩
  settled := rfl
  targets := List.forall_mem_nil _
  numbers := .nil
  due := List.forall_mem_nil _

theorem eq_of_number_eq (h : Sound s) {y : Registered} (hx : x ∈ s.registry.all)
    (hy : y ∈ s.registry.all) (hn : x.number = y.number) : x = y := by
  obtain ⟨log, hl⟩ := h.represented
  exact hl.eq_of_number_eq hx hy hn

theorem eq_of_mem (h : Sound s) (hv : v ∈ s.waiting) (hw : w ∈ s.waiting)
    (hn : v.number = w.number) : v = w := List.inj_on_of_nodup_map h.numbers hv hw hn

/-- What follows from an event or a run waits as it should. -/
theorem absorb (h : Sound s) (hj : Moment.Joined s.setting s.interaction ms i) :
    Sound (s.absorb i) where
  represented := h.represented
  settled := rfl
  targets w hw := by
    obtain ⟨ds, hd, hm⟩ := hj.exists_deferrals
    rw [h.settled, List.nil_append] at hd
    rcases Waiting.eq_of_mem_foldl_add hw with ⟨hw, -⟩ | ⟨d, hd', rfl⟩
    · exact h.targets w hw
    · obtain ⟨-, -, _, -, -, ht, -⟩ := hm d (hd ▸ hd')
      exact (Registry.mem_handlersFor_iff.mp ht).1
  numbers := Waiting.nodup_foldl_add h.numbers
  due w hw := by
    rcases Waiting.eq_of_mem_foldl_add hw with ⟨hw, -⟩ | ⟨d, -, rfl⟩
    · exact h.due w hw
    · exact Nat.le_add_right ..

/-- A run that is due first starts, and no other is overdue then. -/
theorem begin (h : Sound s) (hw : ∀ v ∈ s.waiting, w.due ≤ v.due) : Sound (s.begin w) where
  represented := h.represented
  settled := h.settled
  targets v hv := h.targets v (Waiting.mem_cancel_iff.mp hv).1
  numbers := h.numbers.sublist (List.filter_sublist.map _)
  due v hv := by
    have hv := (Waiting.mem_cancel_iff.mp hv).1
    exact Nat.max_le.mpr ⟨h.due v hv, hw v hv⟩

/-- A run is not overdue, so that it starts as it has waited. -/
theorem waiting_begin (h : Sound s) (hw : w ∈ s.waiting) (ms : List Moment) :
    Started.waiting ⟨s.begin w, w.run, ms⟩ = w := by
  have : max s.now w.due = w.due := Nat.max_eq_right (h.due w hw)
  simp only [Started.waiting, Started.time, Session.begin, this]

/-- Where an event of a handler is not decided on, what waits of the handler is left alone. -/
theorem mem_absorb_iff (h : Sound s) (hj : Moment.Joined s.setting s.interaction ms i)
    (hx : Undecided v.run.target.handler.event ms) :
    v ∈ (s.absorb i).waiting ↔ v ∈ s.waiting := by
  obtain ⟨ds, hd, hm⟩ := hj.exists_deferrals
  rw [h.settled, List.nil_append] at hd
  have others (hv : v.run.target ∈ s.registry.all) : ∀ d ∈ i.deferrals,
      d.target.number ≠ v.number := by
    intro d hd' hn
    obtain ⟨m, hmem, event, data, he, ht, -⟩ := hm d (hd ▸ hd')
    obtain ⟨hall, rfl⟩ := Registry.mem_handlersFor_iff.mp ht
    rw [h.eq_of_number_eq hall hv hn] at he
    exact hx m hmem data he
  constructor
  · intro hv
    exact (Waiting.mem_foldl_add_iff_of_ne (others ((h.absorb hj).targets v hv))).mp hv
  · intro hv
    exact (Waiting.mem_foldl_add_iff_of_ne (others (h.targets v hv))).mpr hv

end Sound

/-! ## Time -/

theorem Fires.sound (fires : s.Fires w ms i) (h : Sound s) (hw : ∀ v ∈ s.waiting, w.due ≤ v.due) :
    Sound ((s.begin w).absorb i) := (h.begin hw).absorb fires.2

theorem next?_spec (h : Waiting.next? target s.waiting = some w) :
    w ∈ s.waiting ∧ w.due ≤ target ∧ ∀ v ∈ s.waiting, w.due ≤ v.due := by
  obtain ⟨hw, hd⟩ := Waiting.mem_of_next? h
  refine ⟨hw, hd, fun v hv ↦ Waiting.due_le_of_earliest? ?_ hv⟩
  exact (Option.filter_eq_some_iff.mp h).1

namespace Passes

/-- A run decides on events only below its own depth. -/
theorem pos_of_decides (p : Passes target s rs t) :
    ∀ r ∈ rs, ∀ m ∈ r.moments, m.deed.Decides → 0 < m.depth := by
  induction p with
  | arrived => exact List.forall_mem_nil _
  | started _ fires _ ih =>
    refine List.forall_mem_cons.mpr ⟨fun m hm hd ↦ ?_, ih⟩
    exact Nat.zero_lt_of_lt ((fires.1.bound m hm).lt_depth id hd)

theorem lt_due (p : Passes target s rs t) : ∀ v ∈ t.waiting, target < v.due := by
  induction p with
  | arrived none => exact fun v ↦ Waiting.lt_due_of_next? none
  | started _ _ _ ih => exact ih

theorem sound (p : Passes target s rs t) (h : Sound s) : Sound t := by
  induction p with
  | arrived none =>
    exact { h with due := fun v hv ↦
      Nat.max_le.mpr ⟨h.due v hv, Nat.le_of_lt (Waiting.lt_due_of_next? none hv)⟩ }
  | started next fires _ ih => exact ih (fires.sound h (next?_spec next).2.2)

theorem now_eq (p : Passes target s rs t) : t.now = max s.now target := by
  induction p with
  | arrived => rfl
  | @started s t w ms i r next _ _ ih =>
    have hw := (next?_spec next).2.1
    have hs : ((s.begin w).absorb i).now = max s.now w.due := rfl
    rw [ih, hs]
    omega

theorem now_add {duration : Nat} (p : Passes (s.now + duration) s rs t) :
    t.now = s.now + duration := by
  rw [p.now_eq, Nat.max_eq_right (Nat.le_add_right ..)]

theorem registry_eq (p : Passes target s rs t) : t.registry = s.registry := by
  induction p with
  | arrived => rfl
  | started _ _ _ ih => exact ih

theorem executions_le (p : Passes target s rs t) :
    s.interaction.executions ≤ t.interaction.executions := by
  induction p with
  | arrived => exact Nat.le_refl _
  | started _ fires _ ih => exact Nat.le_trans fires.2.executions_le_after ih

/-- What waits of a handler that is not put off again waits until it is due. -/
theorem mem_iff (p : Passes target s rs t) (h : Sound s)
    (hx : ∀ r ∈ rs, Undecided v.run.target.handler.event r.moments) :
    v ∈ t.waiting ↔ v ∈ s.waiting ∧ target < v.due := by
  induction p with
  | arrived none => exact ⟨fun hv ↦ ⟨hv, Waiting.lt_due_of_next? none hv⟩, And.left⟩
  | @started s t w ms i r next fires _ ih =>
    obtain ⟨hw, hd, least⟩ := next?_spec next
    obtain ⟨hx, hr⟩ := List.forall_mem_cons.mp hx
    have hb := h.begin least
    have hm : v ∈ (s.begin w).waiting ↔ v ∈ s.waiting ∧ v.number ≠ w.number :=
      Waiting.mem_cancel_iff
    rw [ih (fires.sound h least) hr, hb.mem_absorb_iff fires.2 hx, hm]
    constructor
    · exact fun ⟨⟨hv, _⟩, hlt⟩ ↦ ⟨hv, hlt⟩
    · rintro ⟨hv, hlt⟩
      refine ⟨⟨hv, fun hn ↦ ?_⟩, hlt⟩
      rw [h.eq_of_mem hv hw hn] at hlt
      omega

/-- What has waited of a handler that is not put off again starts as soon as it is due. -/
theorem mem_started_iff (p : Passes target s rs t) (h : Sound s)
    (hx : ∀ r ∈ rs, Undecided v.run.target.handler.event r.moments) :
    v ∈ rs.map Started.waiting ↔ v ∈ s.waiting ∧ v.due ≤ target := by
  induction p with
  | arrived none =>
    refine ⟨fun hv ↦ (List.not_mem_nil hv).elim, fun ⟨hv, hle⟩ ↦ ?_⟩
    exact absurd (Waiting.lt_due_of_next? none hv) (Nat.not_lt.mpr hle)
  | @started s t w ms i r next fires _ ih =>
    obtain ⟨hw, hd, least⟩ := next?_spec next
    obtain ⟨hx, hr⟩ := List.forall_mem_cons.mp hx
    have hb := h.begin least
    have hm : v ∈ (s.begin w).waiting ↔ v ∈ s.waiting ∧ v.number ≠ w.number :=
      Waiting.mem_cancel_iff
    rw [List.map_cons, List.mem_cons, h.waiting_begin hw, ih (fires.sound h least) hr,
      hb.mem_absorb_iff fires.2 hx, hm]
    constructor
    · rintro (rfl | ⟨⟨hv, -⟩, hle⟩)
      · exact ⟨hw, hd⟩
      · exact ⟨hv, hle⟩
    · rintro ⟨hv, hle⟩
      by_cases hn : v.number = w.number
      · exact .inl (h.eq_of_mem hv hw hn)
      · exact .inr ⟨⟨hv, hn⟩, hle⟩

/-- A handler that is not put off again is run at most once. -/
theorem pairwise (p : Passes target s rs t) (h : Sound s)
    (hx : ∀ r ∈ rs, Undecided x.handler.event r.moments) :
    rs.Pairwise fun r r' ↦ ¬(r.run.target = x ∧ r'.run.target = x) := by
  induction p with
  | arrived => exact .nil
  | @started s t w ms i r next fires rest ih =>
    obtain ⟨hw, hd, least⟩ := next?_spec next
    obtain ⟨hx, hr⟩ := List.forall_mem_cons.mp hx
    have hs := fires.sound h least
    refine List.pairwise_cons.mpr ⟨?_, ih hs hr⟩
    rintro r' hr' ⟨hw', rfl⟩
    have hv := ((rest.mem_started_iff (v := r'.waiting) hs hr).mp (List.mem_map_of_mem hr')).1
    rw [(h.begin least).mem_absorb_iff fires.2 hx] at hv
    exact (Waiting.mem_cancel_iff.mp hv).2 (congrArg Registered.number hw'.symm)

end Passes

/-! ## Handlers that come and go -/

/-- No time passes and no actions are run; what waits goes with its handler. -/
structure Keeps (s t : Session) : Prop where
  now : t.now = s.now
  executions : t.interaction.executions = s.interaction.executions
  deferrals : t.interaction.deferrals = s.interaction.deferrals
  represented : ∃ log : Log, log.Represents t.registry
  sublist : t.waiting.Sublist s.waiting
  mem_iff : ∀ v, v ∈ t.waiting ↔ v ∈ s.waiting ∧ v.run.target ∈ t.registry.all

namespace Keeps

theorem sound (k : Keeps s t) (h : Sound s) : Sound t where
  represented := k.represented
  settled := k.deferrals.trans h.settled
  targets v hv := ((k.mem_iff v).mp hv).2
  numbers := h.numbers.sublist (k.sublist.map _)
  due v hv := k.now ▸ h.due v ((k.mem_iff v).mp hv).1

theorem trans {u : Session} (k : Keeps s t) (k' : Keeps t u)
    (shrinks : ∀ x ∈ u.registry.all, x ∈ t.registry.all) : Keeps s u where
  now := k'.now.trans k.now
  executions := k'.executions.trans k.executions
  deferrals := k'.deferrals.trans k.deferrals
  represented := k'.represented
  sublist := k'.sublist.trans k.sublist
  mem_iff v := by
    rw [k'.mem_iff, k.mem_iff]
    exact ⟨fun ⟨⟨hv, _⟩, hx⟩ ↦ ⟨hv, hx⟩, fun ⟨hv, hx⟩ ↦ ⟨⟨hv, shrinks _ hx⟩, hx⟩⟩

end Keeps

namespace Sound

/-- Where no handler goes, all that waits stays. -/
theorem keeps_of_grows (h : Sound s) (now : t.now = s.now) (waiting : t.waiting = s.waiting)
    (executions : t.interaction.executions = s.interaction.executions)
    (deferrals : t.interaction.deferrals = s.interaction.deferrals)
    (represented : ∃ log : Log, log.Represents t.registry)
    (grows : ∀ x ∈ s.registry.all, x ∈ t.registry.all) : Keeps s t where
  now := now
  executions := executions
  deferrals := deferrals
  represented := represented
  sublist := waiting ▸ .refl _
  mem_iff v := by
    rw [waiting]
    exact ⟨fun hv ↦ ⟨hv, grows _ (h.targets v hv)⟩, And.left⟩

theorem keeps_of_registry_eq (h : Sound s) (registry : t.registry = s.registry)
    (now : t.now = s.now) (waiting : t.waiting = s.waiting)
    (executions : t.interaction.executions = s.interaction.executions)
    (deferrals : t.interaction.deferrals = s.interaction.deferrals) : Keeps s t :=
  h.keeps_of_grows now waiting executions deferrals (registry ▸ h.represented)
    fun _ hx ↦ registry ▸ hx

theorem keeps_register (h : Sound s) (nodeId : String) (handler : Handler) :
    Keeps s (s.register nodeId handler) := by
  obtain ⟨log, hl⟩ := h.represented
  have hr := hl.register nodeId handler
  refine h.keeps_of_grows rfl rfl rfl rfl ⟨_, hr⟩ fun x hx ↦ hr.mem_all_iff.mpr ?_
  exact log.standing_subset_register nodeId handler (hl.mem_all_iff.mp hx)

theorem keeps_mount (h : Sound s) (p : Page) : Keeps s (s.mount p).1 := by
  obtain ⟨log, hl⟩ := h.represented
  unfold mount
  split
  · have hr := hl.registerPage p
    refine h.keeps_of_grows rfl rfl rfl rfl ⟨_, hr⟩ fun x hx ↦ hr.mem_all_iff.mpr ?_
    exact log.standing_subset_registerPage p (hl.mem_all_iff.mp hx)
  · exact h.keeps_of_registry_eq rfl rfl rfl rfl rfl

/-- Where handlers go, what waits of them goes, and all else stays. -/
theorem keeps_of_removes (h : Sound s) {xs : List Registered} {registry : Registry}
    (represented : ∃ log : Log, log.Represents registry) (removed : ∀ x ∈ xs, x ∈ s.registry.all)
    (left : ∀ x, x ∈ registry.all ↔ x ∈ s.registry.all ∧ x ∉ xs) :
    Keeps s { s.cancel xs with registry := registry } where
  now := rfl
  executions := rfl
  deferrals := rfl
  represented := represented
  sublist := Waiting.foldl_cancel_sublist ..
  mem_iff v := by
    refine Waiting.mem_foldl_cancel_iff.trans (and_congr_right fun hv ↦ ?_)
    have hall := h.targets v hv
    rw [left]
    constructor
    · exact fun hne ↦ ⟨hall, fun hx ↦ hne _ hx rfl⟩
    · rintro ⟨-, hx⟩ y hy hn
      exact hx (h.eq_of_number_eq hall (removed y hy) hn ▸ hy)

theorem mem_unregister_iff (h : Sound s) (nodeId : String) (event? : Option String) :
    (∀ x ∈ s.registry.ofNode nodeId event?, x ∈ s.registry.all) ∧
    ∀ x, x ∈ (s.registry.unregister nodeId event?).all ↔
      x ∈ s.registry.all ∧ x ∉ s.registry.ofNode nodeId event? := by
  obtain ⟨log, hl⟩ := h.represented
  simp only [(hl.unregister nodeId event?).mem_all_iff, hl.mem_all_iff, hl.ofNode,
    Log.standing_strike, List.mem_filter]
  grind

theorem keeps_unregister (h : Sound s) (nodeId : String) (event? : Option String) :
    Keeps s (s.unregister nodeId event?).2 := by
  obtain ⟨removed, left⟩ := h.mem_unregister_iff nodeId event?
  obtain ⟨log, hl⟩ := h.represented
  exact h.keeps_of_removes ⟨_, hl.unregister nodeId event?⟩ removed left

theorem keeps_unregisterAll (h : Sound s) (ns : List Node) :
    Keeps s (s.unregisterAll ns).2 ∧
      ∀ x ∈ (s.unregisterAll ns).2.registry.all, x ∈ s.registry.all := by
  induction ns generalizing s with
  | nil => exact ⟨h.keeps_of_registry_eq rfl rfl rfl rfl rfl, fun _ ↦ id⟩
  | cons n r ih =>
    have first := h.keeps_unregister n.id none
    obtain ⟨rest, shrinks⟩ := ih (first.sound h)
    refine ⟨first.trans rest shrinks, fun x hx ↦ ?_⟩
    exact (((h.mem_unregister_iff n.id none).2 x).mp (shrinks x hx)).1

theorem keeps_clearHandlers (h : Sound s) : Keeps s s.clearHandlers := by
  obtain ⟨log, hl⟩ := h.represented
  refine h.keeps_of_removes ⟨_, hl.clear⟩ (fun _ ↦ id) fun x ↦ ?_
  simp [Registry.clear, Registry.all]

theorem keeps_after (h : Sound s) (hop : ¬op.Runs) : Keeps s (s.after op) := by
  cases op with
  | render c cancelled p o =>
    obtain ⟨_, _, _, he⟩ := s.exists_renderIn_eq c cancelled p o
    rw [Session.after, he]
    exact h.keeps_of_registry_eq rfl rfl rfl rfl rfl
  | mount p => exact h.keeps_mount p
  | unmount p => exact (h.keeps_unregisterAll p.nodes).1
  | register nodeId handler => exact h.keeps_register nodeId handler
  | unregister nodeId event? => exact h.keeps_unregister nodeId event?
  | clearHandlers => exact h.keeps_clearHandlers
  | clearCache | assign | deliver => exact h.keeps_of_registry_eq rfl rfl rfl rfl rfl
  | dispatch | advance => exact absurd trivial hop

end Sound

/-! ## Timelines -/

theorem Dispatches.executions_lt {event : String} (h : s.Dispatches event data ms i) :
    s.interaction.executions < i.executions := by
  obtain ⟨course, joined⟩ := h
  cases course with
  | event =>
    obtain ⟨rfl, joined⟩ := joined
    obtain ⟨_, _, _, hd, -⟩ := Dispatch.exists_decide_eq s.setting (s.setting.limit - 0) event data
      s.interaction
    have hle := joined.executions_le_after
    rw [Moment.after_decide, hd] at hle
    exact hle

theorem Ready.absorb (h : Ready s) (hj : Moment.Joined s.setting s.interaction ms i) :
    Ready (s.absorb i) where
  toSound := h.toSound.absorb hj
  current w hw := by
    rcases Waiting.eq_of_mem_foldl_add hw with ⟨hw, -⟩ | ⟨d, -, rfl⟩
    · exact h.current w hw
    · exact Nat.lt_add_of_pos_right d.positive

namespace Entry

variable {e : Entry}

theorem after_eq_of_not_runs (he : e.operation = op) (hop : ¬op.Runs) :
    e.after = e.before.after op := (still he hop).2.2

theorem frame_of_dispatch {event : String} (he : e.operation = .dispatch event data) :
    e.after.now = e.before.now ∧ e.after.registry = e.before.registry := by
  obtain ⟨i, -, after⟩ := exists_dispatches he
  rw [after]
  exact ⟨rfl, rfl⟩

theorem registry_of_advance {duration : Nat} (he : e.operation = .advance duration) :
    e.after.registry = e.before.registry := (passes he).registry_eq

theorem now_of_advance {duration : Nat} (he : e.operation = .advance duration) :
    e.after.now = e.before.now + duration := (passes he).now_add

theorem ready (h : Ready e.before) : Ready e.after := by
  obtain ⟨s, op, rs, ms, t, step⟩ := e
  cases step with
  | dispatch hd => exact h.absorb hd.2
  | advance p =>
    refine ⟨p.sound h.toSound, fun v hv ↦ ?_⟩
    rw [p.now_add]
    exact p.lt_due v hv
  | still hop =>
    have k := h.keeps_after hop
    exact ⟨k.sound h.toSound, fun v hv ↦ k.now ▸ h.current v ((k.mem_iff v).mp hv).1⟩

theorem now_le (h : Ready e.before) : e.before.now ≤ e.after.now := by
  obtain ⟨s, op, rs, ms, t, step⟩ := e
  cases step with
  | dispatch => exact Nat.le_refl _
  | advance p =>
    rw [p.now_eq]
    exact Nat.le_max_left ..
  | still hop => exact Nat.le_of_eq (h.keeps_after hop).now.symm

theorem executions_le (h : Ready e.before) :
    e.before.interaction.executions ≤ e.after.interaction.executions := by
  obtain ⟨s, op, rs, ms, t, step⟩ := e
  cases step with
  | dispatch hd => exact hd.2.executions_le_after
  | advance p => exact p.executions_le
  | still hop => exact Nat.le_of_eq (h.keeps_after hop).executions.symm

/-- Each event that is dispatched has an id of its own. -/
theorem executions_lt {event : String} (he : e.operation = .dispatch event data) :
    e.before.interaction.executions < e.after.interaction.executions := by
  obtain ⟨i, dispatches, after⟩ := exists_dispatches he
  rw [after]
  exact dispatches.executions_lt

end Entry

namespace Timeline

variable {es : List Entry} {e : Entry}

theorem ready (h : Timeline s es t) (hs : Ready s) : Ready t := by
  induction es generalizing s with
  | nil => exact h ▸ hs
  | cons e r ih =>
    obtain ⟨rfl, h⟩ := h
    exact ih h (Entry.ready hs)

theorem executions_le (h : Timeline s es t) (hs : Ready s) (he : e ∈ es) :
    s.interaction.executions ≤ e.before.interaction.executions := by
  induction es generalizing s with
  | nil => cases he
  | cons f r ih =>
    obtain ⟨rfl, h⟩ := h
    rcases List.mem_cons.mp he with rfl | he
    · exact Nat.le_refl _
    · exact Nat.le_trans (Entry.executions_le hs) (ih h (Entry.ready hs) he)

/-- An event that is dispatched is told from all that come later by its id. -/
theorem executions_lt {before between behind : List Entry} {a : Entry} {event : String}
    (h : Timeline s (before ++ a :: (between ++ e :: behind)) t) (hs : Ready s)
    (ha : a.operation = .dispatch event data) :
    a.before.interaction.executions < e.before.interaction.executions := by
  obtain ⟨u, first, rfl, rest⟩ := timeline_append.mp h
  have hle := rest.executions_le (Entry.ready (first.ready hs))
    (List.mem_append_right between (.head behind))
  exact Nat.lt_of_lt_of_le (Entry.executions_lt ha) hle

end Timeline

end LivePage.Session
