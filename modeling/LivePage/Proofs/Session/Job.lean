import LivePage.Proofs.Session.Timeline

/-!
# Jobs

A run that is put off is a job that waits for its time, and a handle of it is kept with its handler.
To put the handler off again, or to remove it, cancels the job that the handle is of.  But a job that
has waited long enough starts another one, which is the run, and ends; and of that one no handle is
kept.  So whatever is put off or removed while a run waits for an answer, the run goes on.

The runs that wait in a session are the jobs that wait, and those that start in it are the others.
-/

namespace LivePage

/-- A job waits for the time of a run, or it is a run, with the moments that it has had so far. -/
inductive Job where
  | timer (w : Waiting)
  | run (d : Deferral) (moments : List Moment)

namespace Job

def waiting? : Job → Option Waiting
  | timer w => some w
  | run _ _ => none

def run? : Job → Option (Deferral × List Moment)
  | timer _ => none
  | run d ms => some (d, ms)

/-- A run has one more moment. -/
def goOn (m : Moment) : Job → Job
  | timer w => timer w
  | run d ms => run d (ms ++ [m])

end Job

/-- Jobs by their ids, how many there have been, and the id that is kept with each handler. -/
structure Jobs where
  alive : List (Nat × Job) := []
  count : Nat := 0
  handle? : Nat → Option Nat := fun _ ↦ none

namespace Jobs

/-- Cancels the job whose handle is kept with a handler, whatever job that is. -/
def cancel (number : Nat) (js : Jobs) : Jobs :=
  { js with
    alive := js.alive.filter fun p ↦ js.handle? number != some p.1
    handle? := Function.update js.handle? number none }

/-- Lets a run wait from now on, in place of what has waited of its handler. -/
def putOff (now : Nat) (d : Deferral) (js : Jobs) : Jobs where
  alive := (js.cancel d.target.number).alive ++ [(js.count, .timer ⟨now + d.window, d⟩)]
  count := js.count + 1
  handle? := Function.update js.handle? d.target.number (some js.count)

/-- The job that waits with an id ends, and its run is a job from now on. -/
def start (id : Nat) (js : Jobs) : Jobs :=
  match js.alive.find? (·.1 == id) with
  | some (_, .timer w) =>
    { js with
      alive := js.alive.filter (·.1 != id) ++ [(js.count, .run w.run [])]
      count := js.count + 1 }
  | _ => js

/-- The run with an id goes on by a moment. -/
def goOn (id : Nat) (m : Moment) (js : Jobs) : Jobs :=
  { js with alive := js.alive.map fun p ↦ (p.1, if p.1 = id then p.2.goOn m else p.2) }

inductive Operation where
  | cancel (number : Nat)
  | putOff (now : Nat) (d : Deferral)
  | start (id : Nat)
  | goOn (id : Nat) (m : Moment)

def after (js : Jobs) : Operation → Jobs
  | .cancel number => js.cancel number
  | .putOff now d => js.putOff now d
  | .start id => js.start id
  | .goOn id m => js.goOn id m

def run (js : Jobs) (ops : List Operation) : Jobs := ops.foldl after js

theorem run_append (js : Jobs) (ops more : List Operation) :
    js.run (ops ++ more) = (js.run ops).run more := List.foldl_append ..

/-- The moments of a run in an operation. -/
def Operation.own (id : Nat) : Operation → List Moment
  | goOn k m => if id = k then [m] else []
  | cancel _ | putOff _ _ | start _ => []

def own (id : Nat) (ops : List Operation) : List Moment := ops.flatMap (·.own id)

/-- The runs that wait. -/
def waiting (js : Jobs) : List Waiting := js.alive.filterMap (·.2.waiting?)

/-- The runs that have started, with the moments that they have had. -/
def runs (js : Jobs) : List (Deferral × List Moment) := js.alive.filterMap (·.2.run?)

/-- A handle is of a job that waits or has ended, and one is kept of each job that waits. -/
structure Sound (js : Jobs) : Prop where
  ids : (js.alive.map (·.1)).Nodup
  old : ∀ p ∈ js.alive, p.1 < js.count
  handles : ∀ n id, js.handle? n = some id → id < js.count ∧
    ∀ j, (id, j) ∈ js.alive → ∃ w, j = .timer w ∧ w.number = n
  kept : ∀ id w, (id, .timer w) ∈ js.alive → js.handle? w.number = some id

variable {js : Jobs} {id k number now : Nat} {d : Deferral} {m : Moment} {ms : List Moment}
  {w : Waiting} {j j' : Job} {p : Nat × Job} {op : Operation} {ops : List Operation}

/-! ## Jobs that are alive -/

theorem mem_cancel_iff :
    p ∈ (js.cancel number).alive ↔ p ∈ js.alive ∧ js.handle? number ≠ some p.1 := by
  rw [cancel, List.mem_filter, bne_iff_ne]

theorem mem_putOff_iff : p ∈ (js.putOff now d).alive ↔
    (p ∈ js.alive ∧ js.handle? d.target.number ≠ some p.1) ∨
      p = (js.count, .timer ⟨now + d.window, d⟩) := by
  rw [putOff, List.mem_append, mem_cancel_iff, List.mem_singleton]

theorem mem_goOn_iff : p ∈ (js.goOn id m).alive ↔
    ∃ j, (p.1, j) ∈ js.alive ∧ p.2 = if p.1 = id then j.goOn m else j := by
  obtain ⟨k, j⟩ := p
  simp only [goOn, List.mem_map, Prod.exists, Prod.mk.injEq]
  constructor
  · rintro ⟨_, i, hi, rfl, rfl⟩
    exact ⟨i, hi, rfl⟩
  · rintro ⟨i, hi, he⟩
    exact ⟨k, i, hi, rfl, he.symm⟩

theorem Sound.eq_of_mem (h : js.Sound) (hj : (id, j) ∈ js.alive) (hj' : (id, j') ∈ js.alive) :
    j = j' := congrArg Prod.snd (List.inj_on_of_nodup_map h.ids hj hj' rfl)

theorem Sound.start_eq (h : js.Sound) (hw : (id, .timer w) ∈ js.alive) : js.start id =
    { js with
      alive := js.alive.filter (·.1 != id) ++ [(js.count, .run w.run [])]
      count := js.count + 1 } := by
  cases hf : js.alive.find? (·.1 == id) with
  | none =>
    have := List.find?_eq_none.mp hf _ hw
    simp at this
  | some p =>
    obtain ⟨k, j⟩ := p
    have hk := List.find?_some hf
    obtain rfl : k = id := beq_iff_eq.mp hk
    obtain rfl := h.eq_of_mem (List.mem_of_find?_eq_some hf) hw
    rw [start, hf]

/-- Only a job that waits is started. -/
theorem start_eq_self (h : ∀ w, (id, .timer w) ∉ js.alive) : js.start id = js := by
  unfold start
  split
  · next k w hf =>
    have hk := List.find?_some hf
    obtain rfl : k = id := beq_iff_eq.mp hk
    exact absurd (List.mem_of_find?_eq_some hf) (h w)
  · rfl

/-! ## What operations keep -/

theorem sound_empty : Sound {} := ⟨.nil, nofun, nofun, nofun⟩

namespace Sound

theorem lt_count (h : js.Sound) (hj : (id, j) ∈ js.alive) : id < js.count := h.old _ hj

theorem cancel (h : js.Sound) (number : Nat) : (js.cancel number).Sound where
  ids := h.ids.sublist (List.filter_sublist.map _)
  old p hp := h.old p (mem_cancel_iff.mp hp).1
  handles n id hn := by
    have hn : Function.update js.handle? number none n = some id := hn
    rw [Function.update_apply, Option.ite_none_left_eq_some] at hn
    obtain ⟨hlt, hw⟩ := h.handles n id hn.2
    exact ⟨hlt, fun j hj ↦ hw j (mem_cancel_iff.mp hj).1⟩
  kept id w hw := by
    obtain ⟨hw, hne⟩ := mem_cancel_iff.mp hw
    have hkept := h.kept id w hw
    refine (Function.update_of_ne ?_ _ _).trans hkept
    rintro rfl
    exact hne hkept

section

variable {l : List (Nat × Job)} (h : js.Sound) (hl : l.Sublist js.alive)

include h hl

/-- A new job has an id of its own. -/
theorem ids_append (j : Job) : ((l ++ [(js.count, j)]).map (·.1)).Nodup ∧
    ∀ p ∈ l ++ [(js.count, j)], p.1 < js.count + 1 := by
  rw [List.map_append, List.nodup_append]
  refine ⟨⟨h.ids.sublist (hl.map _), List.pairwise_singleton .., ?_⟩, fun p hp ↦ ?_⟩
  · intro i hi k hk
    obtain ⟨p, hp, rfl⟩ := List.mem_map.mp hi
    obtain rfl := List.mem_singleton.mp hk
    exact (h.old p (hl.subset hp)).ne
  · rcases List.mem_append.mp hp with hp | hp
    · exact Nat.lt_succ_of_lt (h.old p (hl.subset hp))
    · obtain rfl := List.mem_singleton.mp hp
      exact Nat.lt_succ_self _

/-- A handle that was kept before is not of a new job. -/
theorem handles_append (j : Job) {n : Nat} (hn : js.handle? n = some id) : id < js.count + 1 ∧
    ∀ i, (id, i) ∈ l ++ [(js.count, j)] → ∃ w, i = .timer w ∧ w.number = n := by
  obtain ⟨hlt, hw⟩ := h.handles n id hn
  refine ⟨Nat.lt_succ_of_lt hlt, fun i hi ↦ ?_⟩
  rcases List.mem_append.mp hi with hi | hi
  · exact hw i (hl.subset hi)
  · cases List.mem_singleton.mp hi
    exact absurd hlt (Nat.lt_irrefl _)

end

theorem putOff (h : js.Sound) (now : Nat) (d : Deferral) : (js.putOff now d).Sound := by
  have hl : (js.cancel d.target.number).alive.Sublist js.alive := List.filter_sublist
  obtain ⟨ids, old⟩ := h.ids_append hl (.timer ⟨now + d.window, d⟩)
  refine ⟨ids, old, fun n id hn ↦ ?_, fun id w hw ↦ ?_⟩
  · have hn : Function.update js.handle? d.target.number (some js.count) n = some id := hn
    rw [Function.update_apply] at hn
    split at hn
    · next heq =>
      cases hn
      refine ⟨Nat.lt_succ_self _, fun j hj ↦ ?_⟩
      rcases mem_putOff_iff.mp hj with ⟨hj, -⟩ | hj
      · exact absurd (h.lt_count hj) (Nat.lt_irrefl _)
      · exact ⟨_, congrArg Prod.snd hj, heq.symm⟩
    · exact h.handles_append hl _ hn
  · rcases mem_putOff_iff.mp hw with ⟨hw, hne⟩ | hw
    · have hkept := h.kept id w hw
      refine (Function.update_of_ne ?_ _ _).trans hkept
      intro heq
      rw [heq] at hkept
      exact hne hkept
    · cases hw
      exact Function.update_self ..

theorem start (h : js.Sound) (id : Nat) : (js.start id).Sound := by
  by_cases hw : ∃ w, (id, .timer w) ∈ js.alive
  · obtain ⟨w, hw⟩ := hw
    rw [h.start_eq hw]
    have hl : (js.alive.filter (·.1 != id)).Sublist js.alive := List.filter_sublist
    obtain ⟨ids, old⟩ := h.ids_append hl (.run w.run [])
    refine ⟨ids, old, fun n k hk ↦ h.handles_append hl _ hk, fun k v hv ↦ ?_⟩
    rcases List.mem_append.mp hv with hv | hv
    · exact h.kept k v (hl.subset hv)
    · cases List.mem_singleton.mp hv
  · rwa [start_eq_self (not_exists.mp hw)]

theorem goOn (h : js.Sound) (id : Nat) (m : Moment) : (js.goOn id m).Sound where
  ids := by
    rw [Jobs.goOn, List.map_map]
    exact h.ids
  old p hp := by
    obtain ⟨j, hj, -⟩ := mem_goOn_iff.mp hp
    exact h.lt_count hj
  handles n k hk := by
    obtain ⟨hlt, hkept⟩ := h.handles n k hk
    refine ⟨hlt, fun j hj ↦ ?_⟩
    obtain ⟨i, hi, he⟩ := mem_goOn_iff.mp hj
    obtain ⟨w, rfl, hw⟩ := hkept i hi
    refine ⟨w, ?_, hw⟩
    simpa [Job.goOn] using he
  kept k w hw := by
    obtain ⟨j, hj, he⟩ := mem_goOn_iff.mp hw
    refine h.kept k w ?_
    cases j with
    | timer v =>
      have : Job.timer w = .timer v := by simpa [Job.goOn] using he
      rwa [this]
    | run d ms =>
      split at he
      · cases he
      · cases he

theorem after (h : js.Sound) (op : Operation) : (js.after op).Sound := by
  cases op with
  | cancel number => exact h.cancel number
  | putOff now d => exact h.putOff now d
  | start id => exact h.start id
  | goOn id m => exact h.goOn id m

theorem run (h : js.Sound) (ops : List Operation) : (js.run ops).Sound := by
  induction ops generalizing js with
  | nil => exact h
  | cons op r ih => exact ih (h.after op)

/-! ## Runs are not cancelled -/

/-- No handle is of a run. -/
theorem handle?_ne (h : js.Sound) (hj : (id, .run d ms) ∈ js.alive) (n : Nat) :
    js.handle? n ≠ some id := by
  intro hn
  obtain ⟨w, hw, -⟩ := (h.handles n id hn).2 _ hj
  cases hw

/-- An operation leaves a run alone, but for a moment of its own. -/
theorem mem_after (h : js.Sound) (hj : (id, .run d ms) ∈ js.alive) (op : Operation) :
    (id, .run d (ms ++ op.own id)) ∈ (js.after op).alive := by
  cases op with
  | cancel number =>
    rw [Operation.own, List.append_nil]
    exact mem_cancel_iff.mpr ⟨hj, h.handle?_ne hj _⟩
  | putOff now d' =>
    rw [Operation.own, List.append_nil]
    exact mem_putOff_iff.mpr (.inl ⟨hj, h.handle?_ne hj _⟩)
  | start k =>
    rw [Operation.own, List.append_nil]
    by_cases hw : ∃ w, (k, .timer w) ∈ js.alive
    · obtain ⟨w, hw⟩ := hw
      have hne : id ≠ k := by
        rintro rfl
        cases h.eq_of_mem hj hw
      rw [Jobs.after, h.start_eq hw]
      exact List.mem_append_left _ (List.mem_filter.mpr ⟨hj, bne_iff_ne.mpr hne⟩)
    · rwa [Jobs.after, start_eq_self (not_exists.mp hw)]
  | goOn k m =>
    refine mem_goOn_iff.mpr ⟨_, hj, ?_⟩
    rw [Operation.own]
    by_cases hk : id = k
    · rw [if_pos hk, if_pos hk]
      rfl
    · rw [if_neg hk, if_neg hk, List.append_nil]

/-- A run has just the moments by which it goes on itself, whatever else comes in between. -/
theorem mem_run (h : js.Sound) (hj : (id, .run d ms) ∈ js.alive) (ops : List Operation) :
    (id, .run d (ms ++ own id ops)) ∈ (js.run ops).alive := by
  induction ops generalizing js ms with
  | nil => rwa [own, List.flatMap_nil, List.append_nil]
  | cons op r ih =>
    have hr := ih (h.after op) (h.mem_after hj op)
    rwa [List.append_assoc] at hr

/-! ## What waits and what has started -/

/-- The handle of a job that waits is kept with its handler and no other one. -/
theorem handle?_eq_some_iff (h : js.Sound) (hw : (id, .timer w) ∈ js.alive) :
    js.handle? number = some id ↔ w.number = number := by
  constructor
  · intro hn
    obtain ⟨v, hv, rfl⟩ := (h.handles number id hn).2 _ hw
    cases hv
    rfl
  · rintro rfl
    exact h.kept id w hw

end Sound

theorem waiting_filter {f : Nat × Job → Bool}
    (hf : ∀ id w, (id, .timer w) ∈ js.alive → f (id, .timer w) = (w.number != number)) :
    (js.alive.filter f).filterMap (·.2.waiting?) = Waiting.cancel number js.waiting := by
  rw [waiting, Waiting.cancel, List.filter_filterMap, List.filterMap_filter]
  refine List.filterMap_congr fun p hp ↦ ?_
  obtain ⟨id, j⟩ := p
  cases j with
  | timer w =>
    rw [hf id w hp]
    rfl
  | run d ms => exact ite_self _

theorem runs_filter {f : Nat × Job → Bool}
    (hf : ∀ id d ms, (id, .run d ms) ∈ js.alive → f (id, .run d ms) = true) :
    (js.alive.filter f).filterMap (·.2.run?) = js.runs := by
  rw [runs, List.filterMap_filter]
  refine List.filterMap_congr fun p hp ↦ ?_
  obtain ⟨id, j⟩ := p
  cases j with
  | timer w => exact ite_self _
  | run d ms => exact if_pos (hf id d ms hp)

namespace Sound

theorem waiting_cancel (h : js.Sound) (number : Nat) :
    (js.cancel number).waiting = Waiting.cancel number js.waiting := by
  refine waiting_filter fun id w hw ↦ ?_
  rw [Bool.eq_iff_iff, bne_iff_ne, bne_iff_ne, Ne, Ne, h.handle?_eq_some_iff hw]

theorem runs_cancel (h : js.Sound) (number : Nat) : (js.cancel number).runs = js.runs :=
  runs_filter fun _ _ _ hj ↦ bne_iff_ne.mpr (h.handle?_ne hj number)

theorem waiting_putOff (h : js.Sound) (now : Nat) (d : Deferral) :
    (js.putOff now d).waiting = Waiting.add now js.waiting d := by
  rw [Waiting.add, ← h.waiting_cancel]
  exact List.filterMap_append

theorem runs_putOff (h : js.Sound) (now : Nat) (d : Deferral) :
    (js.putOff now d).runs = js.runs := by
  rw [← h.runs_cancel d.target.number]
  exact List.filterMap_append.trans (List.append_nil _)

/-- A run that starts waits no more, and is behind those that have started before. -/
theorem exists_start (h : js.Sound) (hw : (id, .timer w) ∈ js.alive) :
    ∃ others, (js.start id).alive = others ++ [(js.count, .run w.run [])] ∧
      others.filterMap (·.2.waiting?) = Waiting.cancel w.number js.waiting ∧
      others.filterMap (·.2.run?) = js.runs := by
  rw [h.start_eq hw]
  refine ⟨_, rfl, waiting_filter fun k v hv ↦ ?_, runs_filter fun k d ms hj ↦ ?_⟩
  · have same : k = id ↔ v.number = w.number := by
      constructor
      · rintro rfl
        cases h.eq_of_mem hv hw
        rfl
      · intro hn
        exact Option.some.inj ((h.kept k v hv).symm.trans (hn ▸ h.kept id w hw))
    rw [Bool.eq_iff_iff, bne_iff_ne, bne_iff_ne, Ne, Ne, same]
  · refine bne_iff_ne.mpr ?_
    rintro rfl
    cases h.eq_of_mem hj hw

theorem alive_run_goOn (h : js.Sound) {others : List (Nat × Job)}
    (ha : js.alive = others ++ [(id, .run d ms)]) (ns : List Moment) :
    (js.run (ns.map (.goOn id))).alive = others ++ [(id, .run d (ms ++ ns))] := by
  induction ns generalizing js ms with
  | nil => rwa [List.append_nil]
  | cons m r ih =>
    have hids := h.ids
    rw [ha, List.map_append, List.nodup_append] at hids
    have hothers : others.map (fun p ↦ (p.1, if p.1 = id then p.2.goOn m else p.2)) = others := by
      refine (List.map_congr_left fun p hp ↦ ?_).trans (List.map_id others)
      rw [if_neg (hids.2.2 _ (List.mem_map_of_mem hp) _ (.head _))]
      rfl
    have hstep : (js.goOn id m).alive = others ++ [(id, .run d (ms ++ [m]))] := by
      rw [Jobs.goOn, ha, List.map_append, hothers]
      simp [Job.goOn]
    have hr := ih (h.goOn id m) hstep
    rwa [List.append_assoc] at hr

end Sound

theorem Sound.run_putOff (h : js.Sound) (now : Nat) (ds : List Deferral) :
    (js.run (ds.map (.putOff now))).waiting = ds.foldl (Waiting.add now) js.waiting ∧
      (js.run (ds.map (.putOff now))).runs = js.runs := by
  induction ds generalizing js with
  | nil => exact ⟨rfl, rfl⟩
  | cons d r ih =>
    have hr := ih (h.putOff now d)
    rwa [h.waiting_putOff, h.runs_putOff] at hr

theorem Sound.run_cancel (h : js.Sound) (xs : List Registered) :
    (js.run (xs.map fun x ↦ .cancel x.number)).waiting =
        xs.foldl (fun ws x ↦ Waiting.cancel x.number ws) js.waiting ∧
      (js.run (xs.map fun x ↦ .cancel x.number)).runs = js.runs := by
  induction xs generalizing js with
  | nil => exact ⟨rfl, rfl⟩
  | cons x r ih =>
    have hr := ih (h.cancel x.number)
    rwa [h.waiting_cancel, h.runs_cancel] at hr

end Jobs

/-! ## Jobs of a session -/

namespace Session

variable {js : Jobs} {s t : Session} {i : Interaction} {w : Waiting} {ms : List Moment}
  {op : Operation} {rs : List Started} {es : List Entry} {target : Nat}

/-- Where no actions are run, what waits no more was cancelled with its handler. -/
theorem exists_cancel_eq (s : Session) (hop : ¬op.Runs) : ∃ xs : List Registered,
    (s.after op).waiting = xs.foldl (fun ws x ↦ Waiting.cancel x.number ws) s.waiting := by
  have all (ns : List Node) : ∀ s : Session, ∃ xs : List Registered, (s.unregisterAll ns).2.waiting =
      xs.foldl (fun ws x ↦ Waiting.cancel x.number ws) s.waiting := by
    induction ns with
    | nil => exact fun s ↦ ⟨[], rfl⟩
    | cons n r ih =>
      intro s
      obtain ⟨xs, hr⟩ := ih (s.unregister n.id none).2
      exact ⟨s.registry.ofNode n.id none ++ xs, by rw [List.foldl_append]; exact hr⟩
  cases op with
  | render c cancelled p o =>
    obtain ⟨_, _, _, he⟩ := s.exists_renderIn_eq c cancelled p o
    exact ⟨[], by rw [Session.after, he]; rfl⟩
  | mount p =>
    obtain ⟨registry, he⟩ := s.exists_mount_eq p
    exact ⟨[], by rw [Session.after, he]; rfl⟩
  | unmount p => exact all p.nodes s
  | unregister | clearHandlers => exact ⟨_, rfl⟩
  | dispatch | advance => exact absurd trivial hop
  | clearCache | register | assign | deliver => exact ⟨[], rfl⟩

/-- The jobs that wait are the runs that wait in a session. -/
structure CarriedBy (s : Session) (js : Jobs) : Prop where
  sound : js.Sound
  waiting_eq : js.waiting = s.waiting

/-- From some jobs on, these runs start, and what waits then waits in a session. -/
def ReachedFrom (s : Session) (js : Jobs) (rs : List Started) : Prop :=
  ∃ ops, s.CarriedBy (js.run ops) ∧
    (js.run ops).runs = js.runs ++ rs.map fun r ↦ (r.run, r.moments)

theorem ReachedFrom.trans {rs' : List Started} (h : s.ReachedFrom js rs)
    (h' : ∀ ks, s.CarriedBy ks → t.ReachedFrom ks rs') : t.ReachedFrom js (rs ++ rs') := by
  obtain ⟨ops, hs, hr⟩ := h
  obtain ⟨more, ht, hr'⟩ := h' _ hs
  refine ⟨ops ++ more, ?_, ?_⟩
  · rwa [Jobs.run_append]
  · rw [Jobs.run_append, hr', hr, List.append_assoc, List.map_append]

namespace CarriedBy

theorem stay (h : s.CarriedBy js) (hw : t.waiting = s.waiting) : t.ReachedFrom js [] :=
  ⟨[], ⟨h.sound, h.waiting_eq.trans hw.symm⟩, (List.append_nil _).symm⟩

theorem absorb (h : s.CarriedBy js) (i : Interaction) : (s.absorb i).ReachedFrom js [] := by
  obtain ⟨hw, hr⟩ := h.sound.run_putOff s.now i.deferrals
  rw [h.waiting_eq] at hw
  exact ⟨_, ⟨h.sound.run _, hw⟩, hr.trans (List.append_nil _).symm⟩

/-- A job that waits starts a run, which goes on by some moments. -/
theorem begin (h : s.CarriedBy js) (hw : w ∈ s.waiting) (ms : List Moment) :
    ∃ id ops, (s.begin w).CarriedBy (js.run ops) ∧ (js.run ops).runs = js.runs ++ [(w.run, ms)] ∧
      (id, .run w.run ms) ∈ (js.run ops).alive := by
  rw [← h.waiting_eq, Jobs.waiting, List.mem_filterMap] at hw
  obtain ⟨⟨id, j⟩, hj, he⟩ := hw
  cases j with
  | run => cases he
  | timer v =>
    cases he
    obtain ⟨others, ha, hwaiting, hruns⟩ := h.sound.exists_start hj
    have hgo : (js.run (.start id :: ms.map (.goOn js.count))).alive =
        others ++ [(js.count, .run w.run ms)] := (h.sound.start id).alive_run_goOn ha ms
    refine ⟨js.count, _, ⟨h.sound.run _, ?_⟩, ?_, hgo ▸ List.mem_append_right _ (.head _)⟩
    · rw [Jobs.waiting, hgo, List.filterMap_append, hwaiting, h.waiting_eq]
      exact List.append_nil _
    · rw [Jobs.runs, hgo, List.filterMap_append, hruns]
      rfl

theorem start (config : Config) (components : Components) (host : Host) (context : Context) :
    (start config components host context).CarriedBy {} := ⟨Jobs.sound_empty, rfl⟩

end CarriedBy

/-! ## Histories -/

theorem Passes.reachedFrom (p : Passes target s rs t) (h : s.CarriedBy js) :
    t.ReachedFrom js rs := by
  induction p generalizing js with
  | arrived => exact h.stay rfl
  | @started s t w ms i rs next _ _ ih =>
    obtain ⟨-, ops, hs, hr, -⟩ := h.begin (Waiting.mem_of_next? next).1 ms
    have hbegin : (s.begin w).ReachedFrom js [⟨s.begin w, w.run, ms⟩] := ⟨ops, hs, hr⟩
    exact hbegin.trans fun ks hk ↦ (hk.absorb i).trans fun _ ↦ ih

/-- Where a run starts in the course of time, it is a job. -/
theorem Passes.exists_job (p : Passes target s rs t) (h : s.CarriedBy js) :
    ∀ r ∈ rs, ∃ id ops, r.session.CarriedBy (js.run ops) ∧
      (id, .run r.run []) ∈ (js.run ops).alive := by
  induction p generalizing js with
  | arrived => exact List.forall_mem_nil _
  | @started s t w ms i rs next _ _ ih =>
    have hw := (Waiting.mem_of_next? next).1
    refine List.forall_mem_cons.mpr ⟨?_, fun r hr ↦ ?_⟩
    · obtain ⟨id, ops, hs, -, hj⟩ := h.begin hw []
      exact ⟨id, ops, hs, hj⟩
    · obtain ⟨-, ops, hs, -⟩ := h.begin hw ms
      obtain ⟨more, hs, -⟩ := hs.absorb i
      obtain ⟨id, rest, hr, hj⟩ := ih hs r hr
      exact ⟨id, ops ++ (more ++ rest), by simpa only [Jobs.run_append], by
        simpa only [Jobs.run_append]⟩

theorem Step.reachedFrom (step : Step s op rs ms t) (h : s.CarriedBy js) :
    t.ReachedFrom js rs := by
  cases step with
  | dispatch => exact h.absorb _
  | advance passes => exact passes.reachedFrom h
  | still hop =>
    obtain ⟨xs, hxs⟩ := s.exists_cancel_eq hop
    obtain ⟨hw, hr⟩ := h.sound.run_cancel xs
    rw [h.waiting_eq, ← hxs] at hw
    exact ⟨_, ⟨h.sound.run _, hw⟩, hr.trans (List.append_nil _).symm⟩

theorem Step.exists_job (step : Step s op rs ms t) (h : s.CarriedBy js) :
    ∀ r ∈ rs, ∃ id ops, r.session.CarriedBy (js.run ops) ∧
      (id, .run r.run []) ∈ (js.run ops).alive := by
  cases step with
  | advance passes => exact passes.exists_job h
  | dispatch | still => exact List.forall_mem_nil _

theorem Timeline.reachedFrom (h : Timeline s es t) (hs : s.CarriedBy js) :
    t.ReachedFrom js (es.flatMap (·.started)) := by
  induction es generalizing s js with
  | nil =>
    cases h
    exact hs.stay rfl
  | cons e r ih =>
    obtain ⟨rfl, h⟩ := h
    exact (e.step.reachedFrom hs).trans fun ks ↦ ih h

/-- A run that starts in the history of a session is a job, which has just the moments by which it
goes on itself, whatever is put off, cancelled or started meanwhile. -/
theorem Timeline.exists_job (h : Timeline s es t) (hs : s.CarriedBy js) {e : Entry} (he : e ∈ es)
    {r : Started} (hr : r ∈ e.started) : ∃ id ops, (js.run ops).waiting = r.session.waiting ∧
      ∀ more, (id, .run r.run (Jobs.own id more)) ∈ (js.run (ops ++ more)).alive := by
  obtain ⟨before, behind, rfl⟩ := List.append_of_mem he
  obtain ⟨first, hb, -⟩ := h.until.reachedFrom hs
  obtain ⟨id, ops, hc, hj⟩ := e.step.exists_job hb r hr
  refine ⟨id, first ++ ops, by rw [Jobs.run_append, hc.waiting_eq], fun more ↦ ?_⟩
  rw [Jobs.run_append, Jobs.run_append]
  exact hc.sound.mem_run hj more

end Session

end LivePage
