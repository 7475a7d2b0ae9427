import LivePage.Proofs.Interaction.Throttle
import LivePage.Proofs.Session.Account
import LivePage.Proofs.Session.Pending

/-!
# Throttle windows over time

The rulings of a whole history of a session follow on each other in the order of time: what is kept of
each handler between them is when a throttle window of it has begun last, and the run that was put off
last, until it starts or its handler is removed.
-/

namespace LivePage

/-! ## Numbers are not used again -/

/-- What is new in a registry has a new number. -/
structure Registry.Renews (r r' : Registry) : Prop where
  next_le : r.next ≤ r'.next
  old : ∀ x ∈ r'.all, x ∈ r.all ∨ r.next ≤ x.number

namespace Registry.Renews

variable {r r' r'' : Registry}

theorem refl (r : Registry) : r.Renews r := ⟨Nat.le_refl _, fun _ ↦ .inl⟩

theorem trans (h : r.Renews r') (h' : r'.Renews r'') : r.Renews r'' where
  next_le := Nat.le_trans h.next_le h'.next_le
  old x hx := (h'.old x hx).elim (h.old x) fun hn ↦ .inr (Nat.le_trans h.next_le hn)

end Registry.Renews

namespace Log

variable {log : Log} {r r' : Registry} {x : Registered}

theorem Represents.number_lt (h : log.Represents r) (hx : x ∈ r.all) : x.number < r.next := by
  obtain ⟨e, he, -⟩ := h.numbered.getElem?_of_mem (h.mem_all_iff.mp hx)
  rw [h.next]
  exact (List.getElem?_eq_some_iff.mp he).1

theorem Represents.renews_register (h : log.Represents r) (nodeId : String) (handler : Handler) :
    r.Renews (r.register nodeId handler) where
  next_le := Nat.le_succ _
  old x hx := by
    rw [(h.register nodeId handler).mem_all_iff, standing_register, List.mem_append] at hx
    refine hx.imp h.mem_all_iff.mpr fun hx ↦ ?_
    rw [List.mem_singleton.mp hx]
    exact Nat.le_of_eq h.next

theorem Represents.renews_registerPage (h : log.Represents r) (p : Page) :
    r.Renews (r.registerPage p) := by
  have node {log : Log} {r : Registry} (h : log.Represents r) (n : Node) :
      r.Renews (r.registerNode n) := by
    unfold Registry.registerNode
    induction n.events generalizing log r with
    | nil => exact .refl r
    | cons handler rest ih => exact (h.renews_register n.id handler).trans (ih (h.register ..))
  unfold Registry.registerPage
  induction p.nodes generalizing log r with
  | nil => exact .refl r
  | cons n rest ih => exact (node h n).trans (ih (h.registerNode n))

end Log

namespace Session

variable {s t : Session} {op : Operation}

theorem Sound.renews_unregister (h : Sound s) (nodeId : String) (event? : Option String) :
    s.registry.Renews (s.unregister nodeId event?).2.registry where
  next_le := Nat.le_refl _
  old x hx := .inl (((h.mem_unregister_iff nodeId event?).2 x).mp hx).1

theorem Sound.renews_unregisterAll (h : Sound s) (ns : List Node) :
    s.registry.Renews (s.unregisterAll ns).2.registry := by
  induction ns generalizing s with
  | nil => exact .refl _
  | cons n r ih =>
    exact (h.renews_unregister n.id none).trans (ih ((h.keeps_unregister n.id none).sound h))

/-- Where no actions are run, what is new has a new number, and no throttle window begins. -/
theorem Sound.renews_after (h : Sound s) (hop : ¬op.Runs) :
    s.registry.Renews (s.after op).registry ∧
      (s.after op).interaction.admitted = s.interaction.admitted := by
  obtain ⟨log, hl⟩ := h.represented
  cases op with
  | render c cancelled p o =>
    obtain ⟨_, _, _, he⟩ := s.exists_renderIn_eq c cancelled p o
    rw [Session.after, he]
    exact ⟨.refl _, rfl⟩
  | mount p =>
    rw [Session.after, mount]
    split
    · exact ⟨hl.renews_registerPage p, rfl⟩
    · exact ⟨.refl _, rfl⟩
  | unmount p =>
    obtain ⟨_, _, he, -⟩ := s.exists_unregisterAll_eq p.nodes
    refine ⟨h.renews_unregisterAll p.nodes, ?_⟩
    rw [Session.after, unmount, he]
  | register nodeId handler => exact ⟨hl.renews_register nodeId handler, rfl⟩
  | unregister nodeId event? => exact ⟨h.renews_unregister nodeId event?, rfl⟩
  | clearHandlers => exact ⟨⟨Nat.le_refl _, List.forall_mem_nil _⟩, rfl⟩
  | clearCache | assign | deliver => exact ⟨.refl _, rfl⟩
  | dispatch | advance => exact absurd trivial hop

/-! ## Rulings over time -/

/-- The rulings of a run. -/
def Started.rulings (r : Started) : List Ruling := r.moments.flatMap (·.rulings r.session.setting)

/-- The rulings of an entry.  Those of runs that start while time passes have times of their own. -/
def Entry.rulings (e : Entry) : List Ruling :=
  match e.operation with
  | .advance _ => e.started.flatMap Started.rulings
  | _ => e.moments.flatMap (·.rulings e.before.setting)

/-- What is known of a session behind these rulings and started runs: when throttle windows have begun
last, and what waits. -/
structure Tracks (s : Session) (qs : List Ruling) (rs : List Started) : Prop where
  follows : Ruling.Joined (fun _ ↦ none) qs (s.interaction.admitted.lookup ·)
  past : ∀ q ∈ qs, q.time ≤ s.now
  ordered : qs.Pairwise fun p q ↦ p.time ≤ q.time
  known : ∀ q ∈ qs, q.number < s.registry.next ∧
    ∀ x ∈ s.registry.all, x.number = q.number → x = q.target
  same : ∀ p ∈ qs, ∀ q ∈ qs, p.number = q.number → p.target = q.target
  gone : ∀ r ∈ rs, r.time ≤ s.now
  waiting (v : Waiting) : v ∈ s.waiting ↔
    Waiting.last? v.number (qs.flatMap (·.waitings)) = some v ∧ v.run.target ∈ s.registry.all ∧
      v ∉ rs.map Started.waiting

namespace Tracks

variable {qs : List Ruling} {rs : List Started} {ms : List Moment} {i : Interaction} {w : Waiting}

theorem start (config : Config) (components : Components) (host : Host) (context : Context) :
    Tracks (start config components host context) [] [] where
  follows := rfl
  past := List.forall_mem_nil _
  ordered := .nil
  known := List.forall_mem_nil _
  same := List.forall_mem_nil _
  gone := List.forall_mem_nil _
  waiting _ := iff_of_false List.not_mem_nil fun h ↦ nomatch h.1

/-- What waits by rulings is of handlers that are there. -/
theorem exists_of_last? {v : Waiting} {k : Nat}
    (h : Waiting.last? k (qs.flatMap (·.waitings)) = some v) :
    ∃ q ∈ qs, v.run.target = q.target ∧ q.time < v.due := by
  obtain ⟨q, hq, hv⟩ := List.mem_flatMap.mp (Waiting.mem_of_last? h)
  exact ⟨q, hq, Ruling.target_of_mem_waitings hv, Ruling.lt_due_of_mem_waitings hv⟩

theorem mem_waiting_absorb_iff (hs : Sound s)
    (hj : Moment.Joined s.setting s.interaction ms i) (v : Waiting) :
    v ∈ (s.absorb i).waiting ↔
      Waiting.last? v.number ((ms.flatMap (·.rulings s.setting)).flatMap (·.waitings)) = some v ∨
        Waiting.last? v.number ((ms.flatMap (·.rulings s.setting)).flatMap (·.waitings)) = none ∧
          v ∈ s.waiting := by
  have put := hj.rulings.2
  rw [hs.settled, List.nil_append] at put
  have now : (ms.flatMap (·.rulings s.setting)).flatMap (·.waitings) =
      ((ms.flatMap (·.rulings s.setting)).flatMap (·.deferrals)).map (·.waiting s.now) := by
    rw [List.map_flatMap]
    refine List.flatMap_congr fun q hq ↦ ?_
    obtain ⟨m, -, hq⟩ := List.mem_flatMap.mp hq
    rw [Ruling.waitings, Ruling.time, (Moment.mem_rulings hq).1]
    rfl
  rw [Session.absorb, put, Waiting.mem_foldl_add_iff, ← now]

/-- Rulings follow from an event or a run, all of them at once, and what they put off waits. -/
theorem absorb (h : Tracks s qs rs) (hs : Sound s)
    (hj : Moment.Joined s.setting s.interaction ms i) :
    Tracks (s.absorb i) (qs ++ ms.flatMap (·.rulings s.setting)) rs := by
  obtain ⟨log, hl⟩ := hs.represented
  have new : ∀ q ∈ ms.flatMap (·.rulings s.setting),
      q.time = s.now ∧ q.target ∈ s.registry.all := by
    intro q hq
    obtain ⟨m, -, hq⟩ := List.mem_flatMap.mp hq
    obtain ⟨setting, target⟩ := Moment.mem_rulings hq
    exact ⟨congrArg Setting.now setting, target⟩
  refine ⟨Ruling.joined_append.mpr ⟨_, h.follows, hj.rulings.1⟩, ?_, ?_, ?_, ?_, h.gone, ?_⟩
  · exact List.forall_mem_append.mpr ⟨h.past, fun q hq ↦ Nat.le_of_eq (new q hq).1⟩
  · refine List.pairwise_append.mpr ⟨h.ordered, ?_, fun p hp q hq ↦ (new q hq).1 ▸ h.past p hp⟩
    exact List.pairwise_of_forall_mem_list fun p hp q hq ↦
      Nat.le_of_eq ((new p hp).1.trans (new q hq).1.symm)
  · refine List.forall_mem_append.mpr ⟨h.known, fun q hq ↦ ⟨hl.number_lt (new q hq).2, ?_⟩⟩
    exact fun x hx hn ↦ hl.eq_of_number_eq hx (new q hq).2 hn
  · have old (p : Ruling) (hp : p ∈ qs) (q : Ruling) (hq : q ∈ ms.flatMap (·.rulings s.setting))
        (hn : q.number = p.number) : q.target = p.target := (h.known p hp).2 _ (new q hq).2 hn
    intro p hp q hq hn
    rcases List.mem_append.mp hp with hp | hp <;> rcases List.mem_append.mp hq with hq | hq
    · exact h.same p hp q hq hn
    · exact (old p hp q hq hn.symm).symm
    · exact old q hq p hp hn
    · exact hl.eq_of_number_eq (new p hp).2 (new q hq).2 hn
  · intro v
    rw [mem_waiting_absorb_iff hs hj, List.flatMap_append, Waiting.last?_append]
    cases hv : Waiting.last? v.number ((ms.flatMap (·.rulings s.setting)).flatMap (·.waitings)) with
    | none =>
      simp only [Option.none_or, reduceCtorEq, false_or, true_and]
      exact h.waiting v
    | some u =>
      simp only [Option.some_or, Option.some.injEq, reduceCtorEq, false_and, or_false]
      refine (and_iff_left_of_imp ?_).symm
      rintro rfl
      obtain ⟨q, hq, target, later⟩ := exists_of_last? hv
      obtain ⟨now, there⟩ := new q hq
      refine ⟨target ▸ there, fun hm ↦ ?_⟩
      obtain ⟨r, hr, rfl⟩ := List.mem_map.mp hm
      have := h.gone r hr
      exact absurd (now ▸ later) (Nat.not_lt.mpr this)

/-- A run starts that has waited. -/
theorem begin (h : Tracks s qs rs) (hs : Sound s) (hw : w ∈ s.waiting) (ms : List Moment) :
    Tracks (s.begin w) qs (rs ++ [⟨s.begin w, w.run, ms⟩]) := by
  have now : s.now ≤ (s.begin w).now := Nat.le_max_left ..
  refine { h with past := fun q hq ↦ Nat.le_trans (h.past q hq) now, gone := ?_, waiting := ?_ }
  · refine List.forall_mem_append.mpr ⟨fun r hr ↦ Nat.le_trans (h.gone r hr) now, ?_⟩
    exact List.forall_mem_singleton.mpr (Nat.le_refl _)
  · intro v
    have left : v ∈ (s.begin w).waiting ↔ v ∈ s.waiting ∧ v ≠ w := by
      refine Waiting.mem_cancel_iff.trans (and_congr_right fun hv ↦ not_congr ?_)
      exact ⟨hs.eq_of_mem hv hw, congrArg Waiting.number⟩
    rw [left, h.waiting, List.map_append, List.map_singleton, hs.waiting_begin hw]
    simp only [List.mem_append, List.mem_singleton, not_or, and_assoc]
    rfl

/-- While no actions are run, nothing is ruled, and what waits goes with its handler. -/
theorem still (h : Tracks s qs rs) (hs : Sound s) (hop : ¬op.Runs) : Tracks (s.after op) qs rs := by
  obtain ⟨renews, admitted⟩ := hs.renews_after hop
  have keeps := hs.keeps_after hop
  refine ⟨admitted ▸ h.follows, keeps.now ▸ h.past, h.ordered, ?_, h.same, keeps.now ▸ h.gone, ?_⟩
  · intro q hq
    obtain ⟨lt, own⟩ := h.known q hq
    refine ⟨Nat.lt_of_lt_of_le lt renews.next_le, fun x hx hn ↦ ?_⟩
    rcases renews.old x hx with hx | le
    · exact own x hx hn
    · omega
  · intro v
    rw [keeps.mem_iff, h.waiting]
    constructor
    · exact fun ⟨⟨last, _, gone⟩, there⟩ ↦ ⟨last, there, gone⟩
    · rintro ⟨last, there, gone⟩
      refine ⟨⟨last, ?_, gone⟩, there⟩
      obtain ⟨q, hq, target, -⟩ := exists_of_last? last
      have lt := (h.known q hq).1
      rw [Ruling.number, ← target] at lt
      exact (renews.old _ there).resolve_right (Nat.not_le.mpr lt)

end Tracks

variable {qs : List Ruling} {rs : List Started}

/-- While time passes, each run that starts has waited. -/
theorem Passes.tracks {target : Nat} {new : List Started} (p : Passes target s new t) (hs : Sound s)
    (h : Tracks s qs rs) : Tracks t (qs ++ new.flatMap Started.rulings) (rs ++ new) ∧
      ∀ front r back, new = front ++ r :: back → ∃ u,
        Tracks u (qs ++ front.flatMap Started.rulings) (rs ++ front) ∧ r.waiting ∈ u.waiting := by
  induction p generalizing qs rs with
  | @arrived s =>
    have now : s.now ≤ max s.now target := Nat.le_max_left ..
    refine ⟨?_, fun front r back he ↦ ?_⟩
    · rw [List.flatMap_nil, List.append_nil, List.append_nil]
      exact { h with
        past := fun q hq ↦ Nat.le_trans (h.past q hq) now
        gone := fun r hr ↦ Nat.le_trans (h.gone r hr) now }
    · cases front <;> cases he
  | @started s t w ms i new next fires rest ih =>
    obtain ⟨hw, -, least⟩ := next?_spec next
    have first := (h.begin hs hw ms).absorb (hs.begin least) fires.2
    obtain ⟨last, starts⟩ := ih (fires.sound hs least) first
    have own : Started.rulings ⟨s.begin w, w.run, ms⟩ =
        ms.flatMap (·.rulings (s.begin w).setting) := rfl
    rw [← own] at last starts
    refine ⟨?_, fun front r back he ↦ ?_⟩
    · rw [List.append_assoc, List.append_assoc] at last
      exact last
    · cases front with
      | nil =>
        obtain ⟨rfl, -⟩ := List.cons.inj he
        refine ⟨s, ?_, ?_⟩
        · rwa [List.flatMap_nil, List.append_nil, List.append_nil]
        · rwa [hs.waiting_begin hw]
      | cons r' front =>
        obtain ⟨rfl, split⟩ := List.cons.inj he
        obtain ⟨u, tracks, hr⟩ := starts front r back split
        refine ⟨u, ?_, hr⟩
        rwa [List.append_assoc, List.append_assoc] at tracks

namespace Entry

variable {e : Entry}

theorem rulings_of_not_runs {op : Operation} (he : e.operation = op) (hop : ¬op.Runs) :
    e.rulings = [] := by
  obtain ⟨started, moments, -⟩ := still he hop
  rw [rulings, started, moments]
  split <;> rfl

theorem tracks (hb : Ready e.before) (h : Tracks e.before qs rs) :
    Tracks e.after (qs ++ e.rulings) (rs ++ e.started) ∧
      ∀ front r back, e.started = front ++ r :: back → ∃ u,
        Tracks u (qs ++ front.flatMap Started.rulings) (rs ++ front) ∧ r.waiting ∈ u.waiting := by
  obtain ⟨s, op, started, ms, t, step⟩ := e
  have none {front back : List Started} {r : Started} : [] ≠ front ++ r :: back := by
    cases front <;> nofun
  cases step with
  | dispatch dispatches =>
    refine ⟨?_, fun front r back he ↦ absurd he none⟩
    rw [List.append_nil]
    exact h.absorb hb.toSound dispatches.2
  | advance passes => exact passes.tracks hb.toSound h
  | still hop =>
    refine ⟨?_, fun front r back he ↦ absurd he none⟩
    rw [rulings_of_not_runs rfl hop, List.append_nil, List.append_nil]
    exact h.still hb.toSound hop

end Entry

theorem Timeline.tracks {es : List Entry} (ht : Timeline s es t) (hs : Ready s)
    (h : Tracks s qs rs) :
    Tracks t (qs ++ es.flatMap Entry.rulings) (rs ++ es.flatMap (·.started)) := by
  induction es generalizing s qs rs with
  | nil =>
    cases ht
    rwa [List.flatMap_nil, List.flatMap_nil, List.append_nil, List.append_nil]
  | cons e r ih =>
    obtain ⟨rfl, ht⟩ := ht
    rw [List.flatMap_cons, List.flatMap_cons, ← List.append_assoc, ← List.append_assoc]
    exact ih ht (Entry.ready hs) (Entry.tracks hs h).1

/-! ## Handlers with a throttle window -/

namespace Tracks

variable {v : Nat} {hv : 0 < v} {u : Waiting}

theorem last?_iff (h : Tracks s qs rs)
    (hd : Dispatch.window? x.handler.debounce = some ⟨v, hv⟩) (hu : u.run.target = x) :
    Waiting.last? u.number (qs.flatMap (·.waitings)) = some u ↔
      ∃ q, LastPassed x qs q ∧ u = q.waiting v hv := by
  have fits : ∀ q ∈ qs, ∃ last?, q.Fits last? := fun q ↦ h.follows.exists_fits_of_mem
  have number : u.number = x.number := congrArg Registered.number hu
  rw [number]
  by_cases hx : ∃ p ∈ qs, p.target = x
  · obtain ⟨p, hp, rfl⟩ := hx
    exact last?_waitings_iff hd fits fun q hq hn ↦ h.same q hq p hp hn
  · refine iff_of_false (fun last ↦ ?_) ?_
    · obtain ⟨q, hq, target, -⟩ := exists_of_last? last
      exact hx ⟨q, hq, target.symm.trans hu⟩
    · rintro ⟨q, ⟨target, -, before, behind, rfl, -⟩, -⟩
      exact hx ⟨q, by simp, target⟩

theorem mem_waiting_iff (h : Tracks s qs rs) (hs : Ready s)
    (hd : Dispatch.window? x.handler.debounce = some ⟨v, hv⟩) (hu : u.run.target = x) :
    u ∈ s.waiting ↔ s.now < u.due ∧ x ∈ s.registry.all ∧
      ∃ q, LastPassed x qs q ∧ u = q.waiting v hv := by
  rw [← h.last?_iff hd hu, ← hu]
  constructor
  · intro hm
    obtain ⟨last, there, -⟩ := (h.waiting u).mp hm
    exact ⟨hs.current u hm, there, last⟩
  · rintro ⟨lt, there, last⟩
    refine (h.waiting u).mpr ⟨last, there, fun hm ↦ ?_⟩
    obtain ⟨r, hr, rfl⟩ := List.mem_map.mp hm
    exact absurd lt (Nat.not_lt.mpr (h.gone r hr))

end Tracks

/-- What is decided on the handlers of an event that the host dispatches: on each of them by what is
found then, and those that get through without being put off run. -/
structure Entry.Decides (e : Entry) (event : String) (data : Value) (own : List Ruling) : Prop where
  first : own <+: e.rulings
  targets : own.map (·.target) = e.before.registry.handlersFor event
  found : ∀ q ∈ own, q.setting = e.before.setting ∧ q.found = e.before.interaction ∧ q.data = data
  runs : ∃ ms, ms <:+ e.moments ∧ Course e.before.setting 0
    (.handlers ((own.filter (·.verdict == .admitted)).map (·.target)) e.before.executionId data)
    ms (.ok ())

theorem Entry.exists_decides {e : Entry} (he : e.operation = .dispatch event data) :
    ∃ own, e.Decides event data own := by
  obtain ⟨i, ⟨course, joined⟩, -⟩ := exists_dispatches he
  generalize hm : e.moments = ms at course joined
  cases course with
  | @event _ s rest _ _ handlers =>
    obtain rfl : s = e.before.interaction := joined.1
    let ruling (v : Registered × Admission) : Ruling :=
      ⟨e.before.setting, e.before.setting.limit - 0, data, e.before.interaction, v.1, v.2⟩
    refine ⟨(Dispatch.decide e.before.setting (e.before.setting.limit - 0) event data
      e.before.interaction).1.map ruling, ?_, ?_, ?_, rest, ?_, ?_⟩
    · rw [rulings, he, hm]
      exact List.prefix_append ..
    · rw [List.map_map]
      exact Dispatch.fst_considerAll ..
    · intro q hq
      obtain ⟨v, -, rfl⟩ := List.mem_map.mp hq
      exact ⟨rfl, rfl, rfl⟩
    · rw [hm]
      exact List.suffix_cons ..
    · rw [List.filter_map, List.map_map]
      exact handlers

/-- What is put off of a handler with a debounce window is what it has got through last with: that
waits until its window is over, if the handler is there, and starts then.  No other decision on the
handler touches what waits of it. -/
structure Debounced (x : Registered) (v : Nat) (hv : 0 < v) (es : List Entry) (t : Session) :
    Prop where
  waits (u : Waiting) : u.run.target = x → (u ∈ t.waiting ↔ t.now < u.due ∧ x ∈ t.registry.all ∧
    ∃ q, LastPassed x (es.flatMap Entry.rulings) q ∧ u = q.waiting v hv)
  starts (before : List Entry) (b : Entry) (behind : List Entry) (front : List Started)
    (r : Started) (back : List Started) : es = before ++ b :: behind →
      b.started = front ++ r :: back → r.run.target = x →
      ∃ q, LastPassed x (before.flatMap Entry.rulings ++ front.flatMap Started.rulings) q ∧
        r.waiting = q.waiting v hv
  runs (q : Ruling) : LastPassed x (es.flatMap Entry.rulings) q → x ∈ t.registry.all →
    q.time + v ≤ t.now → ∃ e ∈ es, ∃ r ∈ e.started, r.waiting = q.waiting v hv
  kept (b : Entry) (event : String) (data : Value) : b ∈ es → b.operation = .dispatch event data →
    (∀ q ∈ b.rulings, q.target = x → q.verdict.passes = false) →
    ∀ u, u.run.target = x → (u ∈ b.after.waiting ↔ u ∈ b.before.waiting)

theorem Timeline.debounced {es : List Entry} {v : Nat} {hv : 0 < v} (ht : Timeline s es t)
    (hs : Ready s) (h : Tracks s [] []) (hd : Dispatch.window? x.handler.debounce = some ⟨v, hv⟩) :
    Debounced x v hv es t := by
  have tracks {es : List Entry} {t : Session} (ht : Timeline s es t) :
      Tracks t (es.flatMap Entry.rulings) (es.flatMap (·.started)) := ht.tracks hs h
  refine ⟨fun u ↦ (tracks ht).mem_waiting_iff (ht.ready hs) hd, ?_, ?_, ?_⟩
  · rintro before b behind front r back rfl split hr
    have first := ht.until
    obtain ⟨u, mid, waits⟩ := (Entry.tracks (first.ready hs) (tracks first)).2 front r back split
    exact (mid.last?_iff hd hr).mp ((mid.waiting _).mp waits).1
  · intro q passed there late
    obtain rfl := passed.target
    have last := ((tracks ht).last?_iff (u := q.waiting v hv) hd rfl).mpr ⟨q, passed, rfl⟩
    have gone : q.waiting v hv ∈ (es.flatMap (·.started)).map Started.waiting := by
      by_contra hn
      have waits := ((tracks ht).waiting _).mpr ⟨last, there, hn⟩
      exact absurd ((ht.ready hs).current _ waits) (Nat.not_lt.mpr late)
    obtain ⟨r, hr, hw⟩ := List.mem_map.mp gone
    obtain ⟨e, he, hr⟩ := List.mem_flatMap.mp hr
    exact ⟨e, he, r, hr, hw⟩
  · intro b event data hb he shut u hu
    obtain ⟨before, behind, rfl⟩ := List.append_of_mem hb
    obtain ⟨_, first, rfl, -⟩ := timeline_append.mp ht
    have ready := first.ready hs
    have own : Timeline s (before ++ [b]) b.after := timeline_append.mpr ⟨_, first, rfl, rfl⟩
    obtain ⟨now, registry⟩ := Entry.frame_of_dispatch he
    rw [(tracks own).mem_waiting_iff (own.ready hs) hd hu,
      (tracks first).mem_waiting_iff ready hd hu, now, registry, List.flatMap_append,
      List.flatMap_singleton]
    simp only [lastPassed_append_iff_of_not_passes shut]

/-- A handler with a throttle window, in any history of a session, whoever dispatches its event and
whatever else is done.  It gets through exactly where its condition holds and it has not got through
within its window: so the decisions on it keep the law of the window.  If it has a debounce window
too, then what waits of it and what starts is what it has got through last with, and an event with
which it does not get through leaves that alone. -/
theorem throttled_runs (config : Config) (components : Components) (host : Host)
    (context : Context) :
    let s := start config components host context
    (∀ ops, ∃ es, es.map (·.operation) = ops ∧ Timeline s es (s.run ops)) ∧
    ∀ es t, Timeline s es t →
      (∀ e ∈ es, ∀ event data, e.operation = .dispatch event data →
        ∃ own, e.Decides event data own) ∧
      (∀ q ∈ es.flatMap Entry.rulings, q.time ≤ t.now ∧ (q.verdict = .scheduled ↔
        q.verdict.passes = true ∧ (Dispatch.window? q.target.handler.debounce).isSome)) ∧
      ∀ (x : Registered) (w : Nat), x.handler.throttle = some w → 0 < w →
        Throttled x w (es.flatMap Entry.rulings) ∧
        ∀ (v : Nat) (hv : 0 < v), x.handler.debounce = some v → Debounced x v hv es t := by
  intro s
  have ready : Ready s := ⟨Sound.start config components host context, List.forall_mem_nil _⟩
  have orderly : Orderly config.executor.maxDepth s := ⟨rfl, rfl, List.forall_mem_nil _⟩
  have first : Tracks s [] [] := .start config components host context
  refine ⟨orderly.exists_timeline, fun es t timeline ↦ ?_⟩
  have tracks : Tracks t (es.flatMap Entry.rulings) (es.flatMap (·.started)) :=
    timeline.tracks ready first
  refine ⟨fun e _ event data he ↦ Entry.exists_decides he, fun q hq ↦ ?_, fun x w ht hw ↦ ⟨?_, ?_⟩⟩
  · obtain ⟨last?, fits⟩ := tracks.follows.exists_fits_of_mem hq
    exact ⟨tracks.past q hq, fits.scheduled⟩
  · have window : Dispatch.window? x.handler.throttle = some ⟨w, hw⟩ := by
      rw [ht, Dispatch.window?_of_pos hw]
    exact tracks.follows.throttled tracks.ordered tracks.same window
  · intro v hv hd
    refine timeline.debounced ready first ?_
    rw [hd, Dispatch.window?_of_pos hv]

/-- Of two inputs in a field the first is taken, and the second one comes too soon. -/
theorem takes_first_input :
    let x : Registered :=
      ⟨"field", { event := "input", throttle := some 100, debounce := some 30 }, 0⟩
    let s := start {} [] (.alone 0) {}
    ∃ es t, Timeline s es t ∧ es.map (·.operation) = [.register x.nodeId x.handler,
        .dispatch "input" (.str "a"), .dispatch "input" (.str "ab"), .advance 30] ∧
      (∃ p between q behind, es.flatMap Entry.rulings = p :: between ++ q :: behind ∧
        p.target = x ∧ p.data = .str "a" ∧ p.verdict = .scheduled ∧
        q.target = x ∧ q.data = .str "ab" ∧ q.verdict = .suppressed) ∧
      ∃ e ∈ es, ∃ r ∈ e.started, r.run.target = x ∧ r.run.data = .str "a" ∧ r.time = 30 := by
  intro x s
  obtain ⟨exist, all⟩ := throttled_runs {} [] (.alone 0) {}
  obtain ⟨t, es, operations, timeline⟩ : ∃ t es, es.map (·.operation) =
      [.register x.nodeId x.handler, .dispatch "input" (.str "a"), .dispatch "input" (.str "ab"),
        .advance 30] ∧ Timeline s es t := ⟨_, exist _⟩
  refine ⟨es, t, timeline, operations, ?_⟩
  obtain ⟨e₀, es, rfl, h₀, rest⟩ := List.map_eq_cons_iff.mp operations
  obtain ⟨e₁, es, rfl, h₁, rest⟩ := List.map_eq_cons_iff.mp rest
  obtain ⟨e₂, es, rfl, h₂, rest⟩ := List.map_eq_cons_iff.mp rest
  obtain ⟨e₃, es, rfl, h₃, rest⟩ := List.map_eq_cons_iff.mp rest
  obtain rfl := List.map_eq_nil_iff.mp rest
  obtain ⟨b₀, b₁, b₂, b₃, last⟩ := id timeline
  have a₀ : e₁.before = s.register x.nodeId x.handler := by
    rw [b₁, Entry.after_eq_of_not_runs h₀ id, b₀]
    rfl
  obtain ⟨n₁, r₁⟩ := Entry.frame_of_dispatch h₁
  obtain ⟨n₂, r₂⟩ := Entry.frame_of_dispatch h₂
  have n₃ := Entry.now_of_advance h₃
  rw [← b₂, a₀] at n₁ r₁
  rw [← b₃, n₁] at n₂
  rw [← b₃, r₁] at r₂
  have stop : t.now = 30 := by
    rw [← last, n₃, n₂]
    rfl
  have there : x ∈ t.registry.all := by
    rw [← last, Entry.registry_of_advance h₃, r₂]
    exact .head _
  obtain ⟨decided, ruled, windows⟩ := all _ _ timeline
  obtain ⟨throttled, debounced⟩ := windows x 100 rfl (by decide)
  obtain ⟨own, d₁⟩ := decided e₁ (by simp) _ _ h₁
  obtain ⟨own', d₂⟩ := decided e₂ (by simp) _ _ h₂
  have handlers : (s.register x.nodeId x.handler).registry.handlersFor "input" = [x] := by
    have all : (s.register x.nodeId x.handler).registry.all = [x] := rfl
    simp [Registry.handlersFor, all, x]
  obtain ⟨p, rfl, hp⟩ := List.map_eq_singleton_iff.mp (d₁.targets.trans (a₀ ▸ handlers))
  obtain ⟨q, rfl, hq⟩ := List.map_eq_singleton_iff.mp (d₂.targets.trans (r₁ ▸ handlers))
  obtain ⟨between, first⟩ := d₁.first
  obtain ⟨behind, second⟩ := d₂.first
  obtain ⟨setting, -, data⟩ := d₁.found p (.head _)
  have all : [e₀, e₁, e₂, e₃].flatMap Entry.rulings =
      p :: between ++ q :: (behind ++ e₃.rulings) := by
    simp [Entry.rulings_of_not_runs h₀ id, ← first, ← second]
  have start : p.time = 0 := by
    rw [Ruling.time, setting, a₀]
    rfl
  have passes : p.verdict.passes = true :=
    throttled.first [] p _ all hp (by rw [Ruling.Holds, hp]; rfl) (List.forall_mem_nil _)
  have later : ∀ r ∈ between ++ q :: (behind ++ e₃.rulings), r.target = x →
      r.verdict.passes = false := by
    intro r hr hx
    obtain ⟨front, back, split⟩ := List.append_of_mem hr
    have all : [e₀, e₁, e₂, e₃].flatMap Entry.rulings = p :: front ++ r :: back := by
      rw [all, List.cons_append, split, List.cons_append]
    refine Bool.eq_false_iff.mpr fun hpass ↦ ?_
    have far := throttled.apart _ r _ all hx hpass p (.head _) hp passes
    have past := (ruled r (by rw [all]; simp)).1
    omega
  have shut : q.verdict.passes = false := later q (by simp) hq
  have suppressed : q.verdict = .suppressed := by
    have skipped := throttled.skipped q (by rw [all]; simp) hq
    rw [Ruling.Holds, hq] at skipped
    cases hv : q.verdict with
    | suppressed => rfl
    | skipped => exact absurd rfl (skipped.mp hv)
    | scheduled | admitted =>
      rw [hv] at shut
      cases shut
  have scheduled : p.verdict = .scheduled := (ruled p (by rw [all]; simp)).2.mpr ⟨passes, hp ▸ rfl⟩
  obtain ⟨-, -, data'⟩ := d₂.found q (.head _)
  refine ⟨⟨p, between, q, _, all, hp, data, scheduled, hq, data', suppressed⟩, ?_⟩
  obtain ⟨e, he, r, hr, hw⟩ := (debounced 30 (by decide) rfl).runs p
    ⟨hp, passes, [], _, all, later⟩ there (by omega)
  refine ⟨e, he, r, hr, ?_, ?_, ?_⟩
  · exact (congrArg (·.run.target) hw).trans hp
  · exact (congrArg (·.run.data) hw).trans data
  · exact (congrArg Waiting.due hw).trans (by rw [Ruling.waiting, start])

end Session

end LivePage
