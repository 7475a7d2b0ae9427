import LivePage.Proofs.Event.Log
import LivePage.Proofs.Interaction.Account
import LivePage.Proofs.Interaction.Verdict
import LivePage.Proofs.Interaction.Waiting

/-!
# Rulings

Whatever is decided on a handler is a ruling.  A ruling depends on the condition of its handler and on
when a throttle window of it has begun last, and leaves behind when that was and what is put off.  So
the rulings of a row of moments can be told one after another, whatever happens in between.
-/

namespace LivePage

open Dispatch

/-- Whether a handler gets through, be it at once or when its debounce window is over. -/
def Admission.passes : Admission → Bool
  | .admitted | .scheduled => true
  | .skipped | .suppressed => false

/-- What is decided on a handler, and what is found then. -/
structure Ruling where
  setting : Setting
  level : Nat
  data : Value
  found : Interaction
  target : Registered
  verdict : Admission

namespace Ruling

variable {q : Ruling} {qs rs : List Ruling} {k : Nat}

def time (q : Ruling) : Nat := q.setting.now

def number (q : Ruling) : Nat := q.target.number

/-- The id of the event. -/
def executionId (q : Ruling) : String := s!"execution-{q.found.executions}"

/-- The condition of the handler holds. -/
def Holds (q : Ruling) : Prop :=
  Condition.holds? q.found.context q.setting.host.clock q.target.handler.condition = true

/-- Whether a throttle window begins. -/
def opens (q : Ruling) : Bool := q.verdict.passes && (window? q.target.handler.throttle).isSome

/-- What is put off. -/
def deferrals (q : Ruling) : List Deferral :=
  deferred q.level q.executionId q.data q.target q.verdict

/-- When throttle windows have begun last, by the numbers of their handlers. -/
def mark (q : Ruling) (last : Nat → Option Nat) : Nat → Option Nat :=
  if q.opens then Function.update last q.number (some q.time) else last

/-- A ruling is as it should be where a throttle window of its handler has begun last at this time, if
there was one. -/
structure Fits (q : Ruling) (last? : Option Nat) : Prop where
  skipped : q.verdict = .skipped ↔ ¬q.Holds
  passes : q.verdict.passes = true ↔ q.Holds ∧
    ∀ w ∈ window? q.target.handler.throttle, ∀ last ∈ last?, last + w ≤ q.time
  scheduled : q.verdict = .scheduled ↔
    q.verdict.passes = true ∧ (window? q.target.handler.debounce).isSome

theorem fits_of_passes {last? : Option Nat} (passes : q.verdict.passes = true) (holds : q.Holds)
    (scheduled : q.verdict = .scheduled ↔ (window? q.target.handler.debounce).isSome)
    (far : ∀ w ∈ window? q.target.handler.throttle, ∀ last ∈ last?, last + w ≤ q.time) :
    q.Fits last? where
  skipped := by
    refine iff_of_false (fun h ↦ ?_) (not_not_intro holds)
    rw [h] at passes
    cases passes
  passes := iff_of_true passes ⟨holds, far⟩
  scheduled := by rw [scheduled, passes, eq_self_iff_true, true_and]

/-- Each ruling is as it should be behind those in front of it. -/
def Joined : (Nat → Option Nat) → List Ruling → (Nat → Option Nat) → Prop
  | last, [], last' => last = last'
  | last, q :: r, last' => q.Fits (last q.number) ∧ Joined (q.mark last) r last'

variable {last last' : Nat → Option Nat}

theorem joined_append :
    Joined last (qs ++ rs) last' ↔ ∃ mid, Joined last qs mid ∧ Joined mid rs last' := by
  induction qs generalizing last with
  | nil => exact ⟨fun h ↦ ⟨last, rfl, h⟩, fun ⟨_, h, h'⟩ ↦ h ▸ h'⟩
  | cons q r ih =>
    simp only [Joined, List.cons_append, ih]
    exact ⟨fun ⟨h, mid, hr, hs⟩ ↦ ⟨mid, ⟨h, hr⟩, hs⟩, fun ⟨mid, ⟨h, hr⟩, hs⟩ ↦ ⟨h, mid, hr, hs⟩⟩

end Ruling

/-! ## Decisions -/

namespace Dispatch

variable {st : Setting} {level : Nat} {id : String} {data : Value} {x : Registered}
  {xs : List Registered} {s found : Interaction}

theorem permits_iff {now w : Nat} (hw : 0 < w) :
    permits now s x w = true ↔ ∀ last ∈ s.admitted.lookup x.number, last + w ≤ now := by
  unfold permits
  cases s.admitted.lookup x.number with
  | none => simp
  | some last =>
    simp
    omega

theorem lookup_pass (now : Nat) (s : Interaction) (x : Registered) :
    ((pass now s x).admitted.lookup ·) =
      Function.update (s.admitted.lookup ·) x.number (some now) := by
  funext k
  by_cases h : k = x.number
  · subst h
    simp [pass]
  · rw [lookup_pass_of_ne now s h, Function.update_of_ne h]

/-- A handler that gets through is put off if it has a debounce window. -/
theorem defer_cases (level : Nat) (id : String) (data : Value) (x : Registered) (s : Interaction) :
    ∃ a, defer level id data x s =
        (a, { s with deferrals := s.deferrals ++ deferred level id data x a }) ∧
      a.passes = true ∧ (a = .scheduled ↔ (window? x.handler.debounce).isSome) := by
  refine ⟨_, defer_eq level id data x s, ?_⟩
  cases window? x.handler.debounce <;> simp [Admission.passes]

/-- A decision on a handler is as it should be, and leaves what it should. -/
theorem ruling_consider {a : Admission} {t : Interaction} (hc : s.context = found.context)
    (h : consider st level s!"execution-{found.executions}" data x s = (a, t)) :
    let q : Ruling := ⟨st, level, data, found, x, a⟩
    q.Fits (s.admitted.lookup x.number) ∧ (t.admitted.lookup ·) = q.mark (s.admitted.lookup ·) ∧
      t.context = found.context ∧ t.deferrals = s.deferrals ++ q.deferrals := by
  intro q
  unfold consider at h
  rw [hc] at h
  split at h
  · next fails =>
    cases h
    have fails : ¬q.Holds := by simpa [Ruling.Holds] using fails
    refine ⟨⟨?_, ?_, ?_⟩, ?_, hc, ?_⟩
    · exact iff_of_true rfl fails
    · exact iff_of_false nofun fun h ↦ fails h.1
    · exact iff_of_false nofun fun h ↦ nomatch h.1
    · rfl
    · exact (List.append_nil _).symm
  · next holds =>
    have holds : q.Holds := by simpa [Ruling.Holds] using holds
    split at h
    · next w hw ht =>
      have window : ∀ v ∈ window? x.handler.throttle, v.1 = w := by simp [ht]
      split at h
      · next permitted =>
        obtain ⟨b, hd, passes, scheduled⟩ := defer_cases level
          s!"execution-{found.executions}" data x (pass st.now s x)
        cases h.symm.trans hd
        refine ⟨Ruling.fits_of_passes passes holds scheduled fun v hv ↦ ?_, ?_, hc, rfl⟩
        · rw [window v hv]
          exact (permits_iff hw).mp permitted
        · simp only [Ruling.mark, Ruling.opens, q, passes, ht]
          exact lookup_pass st.now s x
      · next refused =>
        cases h
        refine ⟨⟨?_, ?_, ?_⟩, ?_, hc, ?_⟩
        · exact iff_of_false nofun (not_not_intro holds)
        · refine iff_of_false nofun fun h ↦ refused ((permits_iff hw).mpr (h.2 ⟨w, hw⟩ ht))
        · exact iff_of_false nofun fun h ↦ nomatch h.1
        · rfl
        · exact (List.append_nil _).symm
    · next ht =>
      obtain ⟨b, hd, passes, scheduled⟩ := defer_cases level
        s!"execution-{found.executions}" data x s
      cases h.symm.trans hd
      refine ⟨Ruling.fits_of_passes passes holds scheduled (by simp [q, ht]), ?_, hc, rfl⟩
      simp [Ruling.mark, Ruling.opens, q, ht]

theorem rulings_considerAll (found s : Interaction) {vs : List (Registered × Admission)}
    {t : Interaction} (hc : s.context = found.context)
    (h : considerAll st level s!"execution-{found.executions}" data xs s = (vs, t)) :
    let qs := vs.map fun v ↦ Ruling.mk st level data found v.1 v.2
    Ruling.Joined (s.admitted.lookup ·) qs (t.admitted.lookup ·) ∧
      t.deferrals = s.deferrals ++ qs.flatMap Ruling.deferrals := by
  induction xs generalizing s vs with
  | nil =>
    cases h
    exact ⟨rfl, (List.append_nil _).symm⟩
  | cons x r ih =>
    cases h
    obtain ⟨fits, marked, hc, put⟩ := ruling_consider hc (Prod.mk.eta.symm :
      consider st level s!"execution-{found.executions}" data x s = _)
    obtain ⟨joined, rest⟩ := ih _ hc Prod.mk.eta.symm
    refine ⟨⟨fits, marked ▸ joined⟩, ?_⟩
    rw [rest, put, List.append_assoc]
    rfl

end Dispatch

/-! ## Moments -/

namespace Moment

variable {st : Setting} {s t : Interaction} {m : Moment} {ms : List Moment}

/-- What is decided in a moment. -/
def rulings (st : Setting) (m : Moment) : List Ruling :=
  match m.deed with
  | .decide event data =>
    (Dispatch.decide st (st.limit - m.depth) event data m.before).1.map fun v ↦
      ⟨st, st.limit - m.depth, data, m.before, v.1, v.2⟩
  | _ => []

theorem joined_rulings (st : Setting) (m : Moment) :
    Ruling.Joined (m.before.admitted.lookup ·) (m.rulings st) ((m.after st).admitted.lookup ·) ∧
      (m.after st).deferrals = m.before.deferrals ++ (m.rulings st).flatMap Ruling.deferrals := by
  by_cases hd : m.deed.Decides
  · obtain ⟨d, event, data, s, rfl⟩ := exists_decide_of_decides hd
    exact rulings_considerAll s ({ s with executions := s.executions + 1 }.notify
      (.triggered event)
      [("data", data), ("executionId", .str s!"execution-{s.executions}")]) rfl rfl
  · obtain ⟨_, _, _, _, h, -⟩ := exists_after_eq st hd
    have none : m.rulings st = [] := by
      unfold rulings
      split
      · next he => exact absurd (he ▸ trivial) hd
      · rfl
    rw [h, none]
    exact ⟨rfl, (List.append_nil _).symm⟩

/-- The rulings of moments in a row follow on each other. -/
theorem Joined.rulings (h : Joined st s ms t) :
    Ruling.Joined (s.admitted.lookup ·) (ms.flatMap (·.rulings st)) (t.admitted.lookup ·) ∧
      t.deferrals = s.deferrals ++ (ms.flatMap (·.rulings st)).flatMap Ruling.deferrals := by
  induction ms generalizing s with
  | nil =>
    cases h
    exact ⟨rfl, (List.append_nil _).symm⟩
  | cons m r ih =>
    obtain ⟨rfl, h⟩ := h
    obtain ⟨own, put⟩ := m.joined_rulings st
    obtain ⟨rest, left⟩ := ih h
    rw [List.flatMap_cons, List.flatMap_append, left, put, List.append_assoc]
    exact ⟨Ruling.joined_append.mpr ⟨_, own, rest⟩, rfl⟩

/-- What is decided on is a handler of the event that is there then. -/
theorem mem_rulings {q : Ruling} (h : q ∈ m.rulings st) :
    q.setting = st ∧ q.target ∈ st.registry.all := by
  unfold rulings at h
  split at h
  · obtain ⟨v, hv, rfl⟩ := List.mem_map.mp h
    have := List.mem_map_of_mem (f := Prod.fst) hv
    rw [Dispatch.decide, fst_considerAll] at this
    exact ⟨rfl, (Registry.mem_handlersFor_iff.mp this).1⟩
  · cases h

end Moment

end LivePage
