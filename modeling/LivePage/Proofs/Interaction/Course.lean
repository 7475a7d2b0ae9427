import LivePage.Interaction.Run
import LivePage.Proofs.Interaction.Decision

/-!
# Courses of interactions

What happens on an event is a row of moments.  While a handler waits for the host, the other handlers
of its event may go on, so their moments come in any order that keeps that of each; and what a moment
finds need not be what the one before it has left in its own handler.  A course says which moments
follow from a part of an interaction and how it ends, for every such order.  It counts how deep the
actions are from the first event on.
-/

namespace LivePage

universe u

/-- A list is made of two others, each of which stays in order. -/
inductive Interleave {α : Type u} : List α → List α → List α → Prop where
  | nil : Interleave [] [] []
  | left {a : α} {xs ys zs : List α} : Interleave xs ys zs → Interleave (a :: xs) ys (a :: zs)
  | right {a : α} {xs ys zs : List α} : Interleave xs ys zs → Interleave xs (a :: ys) (a :: zs)

namespace Interleave

variable {α : Type u} {xs ys zs : List α}

theorem append (xs ys : List α) : Interleave xs ys (xs ++ ys) := by
  induction xs with
  | nil =>
    induction ys with
    | nil => exact .nil
    | cons a ys ih => exact .right ih
  | cons a xs ih => exact .left ih

theorem mem_iff (h : Interleave xs ys zs) {a : α} : a ∈ zs ↔ a ∈ xs ∨ a ∈ ys := by
  induction h with
  | nil => simp
  | left _ ih => rw [List.mem_cons, List.mem_cons, ih, or_assoc]
  | right _ ih => rw [List.mem_cons, List.mem_cons, ih, or_left_comm]

theorem sublist_left (h : Interleave xs ys zs) : xs.Sublist zs := by
  induction h with
  | nil => exact .refl []
  | left _ ih => exact ih.cons_cons _
  | right _ ih => exact ih.cons _

theorem sublist_right (h : Interleave xs ys zs) : ys.Sublist zs := by
  induction h with
  | nil => exact .refl []
  | left _ ih => exact ih.cons _
  | right _ ih => exact ih.cons_cons _

theorem perm (h : Interleave xs ys zs) : zs.Perm (xs ++ ys) := by
  induction h with
  | nil => exact .refl []
  | left _ ih => exact ih.cons _
  | right _ ih => exact (ih.cons _).trans List.perm_middle.symm

end Interleave

namespace Event

/-- The part of the context and the path of it that an event tells to be written. -/
def update? (e : Event) : Option (Namespace × String) :=
  match e.kind with
  | .stateUpdated key => some (.state, key)
  | .variableUpdated key => some (.vars, key)
  | _ => none

end Event

/-! ## Moments -/

/-- What is done in a moment. -/
inductive Deed where
  /-- An event is announced, and it is decided on its handlers. -/
  | decide (event : String) (data : Value)
  /-- An action is passed over. -/
  | pass (a : Action)
  | perform (a : Action)
  | setState (key : String) (v : Value)
  | setVariable (key : String) (v : Value)
  | ask (r : Request)
  | call (c : Call)
  | announce (e : Event)
  /-- The failure of a handler is announced. -/
  | fail (x : Registered) (executionId : String) (e : ActionError)

namespace Deed

/-- What a deed makes of an interaction, at a depth. -/
def act (st : Setting) (depth : Nat) (s : Interaction) : Deed → Interaction
  | decide event data => (Dispatch.decide st (st.limit - depth) event data s).2
  | pass _ | perform _ => s
  | setState key v => (s.setState key v).1
  | setVariable key v => (s.setVariable key v).1
  | ask r => (s.ask st.host r).1
  | call c => (s.call st.host c).1
  | announce e => s.announce (.event e)
  | fail x executionId e => s.announce (.error {
      type := "HandlerFailed", message := e.chain, severity := .error
      parameters := [("event", .str x.handler.event), ("executionId", .str executionId),
        ("nodeId", .str x.nodeId)] })

end Deed

/-- An announcement tells of no write. -/
def Deed.Plain : Deed → Prop
  | announce e => e.update? = none
  | _ => True

def Deed.Decides : Deed → Prop
  | decide _ _ => True
  | _ => False

/-- A deed with the interaction that it finds. -/
structure Moment where
  depth : Nat
  deed : Deed
  before : Interaction

namespace Moment

def after (st : Setting) (m : Moment) : Interaction := m.deed.act st m.depth m.before

/-- Each moment finds what the one before it has left. -/
def Joined (st : Setting) : Interaction → List Moment → Interaction → Prop
  | s, [], t => s = t
  | s, m :: r, t => m.before = s ∧ Joined st (m.after st) r t

theorem Joined.append {st : Setting} {s t u : Interaction} {ms ns : List Moment}
    (h : Joined st s ms t) (h' : Joined st t ns u) : Joined st s (ms ++ ns) u := by
  induction ms generalizing s with
  | nil =>
    cases h
    exact h'
  | cons m r ih => exact ⟨h.1, ih h.2⟩

/-- What every moment of a row keeps is kept by the row. -/
theorem Joined.invariant {st : Setting} {s t : Interaction} {ms : List Moment}
    {R : Interaction → Interaction → Prop} (refl : ∀ i, R i i)
    (trans : ∀ {i j k}, R i j → R j k → R i k) (h : Joined st s ms t)
    (hm : ∀ m ∈ ms, R m.before (m.after st)) : R s t := by
  induction ms generalizing s with
  | nil =>
    cases h
    exact refl _
  | cons m r ih =>
    obtain ⟨rfl, h⟩ := h
    exact trans (hm m (.head _)) (ih h fun n hn ↦ hm n (.tail _ hn))

end Moment

/-! ## Courses -/

/-- A part of an interaction. -/
inductive Part where
  | event (event : String) (data : Value)
  | handlers (xs : List Registered) (executionId : String) (data : Value)
  | handler (x : Registered) (executionId : String) (data : Value)
  | actions (as : List Action) (data : Value)
  /-- An action and what follows it. -/
  | action (a : Action) (data : Value)
  /-- An action and what follows its success. -/
  | forward (a : Action) (data : Value)
  | perform (a : Action) (data : Value)
  | order (order : Order) (data : Value)

def Part.IsEvent : Part → Prop
  | event _ _ => True
  | _ => False

/-- A chain of actions has come to its end. -/
def ActionError.IsTooDeep (e : ActionError) : Prop := ∃ depth limit, e = .tooDeep depth limit

/-- The moments that can follow from a part of an interaction at a depth, and how it ends. -/
inductive Course (st : Setting) :
    Nat → Part → List Moment → Except ActionError Unit → Prop where
  /-- The handlers that were admitted run side by side. -/
  | event {d : Nat} {s : Interaction} {ms : List Moment} {name : String} {data : Value}
      (handlers : Course st d (.handlers (Dispatch.admitted st (st.limit - d) name data s)
        s!"execution-{s.executions}" data) ms (.ok ())) :
    Course st d (.event name data) (⟨d, .decide name data, s⟩ :: ms) (.ok ())
  | noHandlers {d : Nat} {id : String} {data : Value} : Course st d (.handlers [] id data) [] (.ok ())
  | moreHandlers {d : Nat} {x : Registered} {r : List Registered} {id : String} {data : Value}
      {ms ns all : List Moment} (first : Course st d (.handler x id data) ms (.ok ()))
      (rest : Course st d (.handlers r id data) ns (.ok ())) (merge : Interleave ms ns all) :
    Course st d (.handlers (x :: r) id data) all (.ok ())
  | handled {d : Nat} {x : Registered} {id : String} {data : Value} {ms : List Moment}
      (actions : Course st d (.actions x.handler.actions data) ms (.ok ())) :
    Course st d (.handler x id data) ms (.ok ())
  | aborted {d : Nat} {x : Registered} {id : String} {data : Value} {ms : List Moment}
      {e : ActionError} {s : Interaction}
      (actions : Course st d (.actions x.handler.actions data) ms (.error e)) :
    Course st d (.handler x id data) (ms ++ [⟨d, .fail x id e, s⟩]) (.ok ())
  | tooDeep {d : Nat} {as : List Action} {data : Value} (deep : st.limit < d) :
    Course st d (.actions as data) [] (.error (.tooDeep d st.limit))
  | noActions {d : Nat} {data : Value} (deep : d ≤ st.limit) :
    Course st d (.actions [] data) [] (.ok ())
  | passed {d : Nat} {a : Action} {r : List Action} {data : Value} {s : Interaction}
      {ms : List Moment} {o : Except ActionError Unit} (deep : d ≤ st.limit)
      (fails : Condition.holds? s.context st.host.clock a.condition = false)
      (rest : Course st d (.actions r data) ms o) :
    Course st d (.actions (a :: r) data) (⟨d, .pass a, s⟩ :: ms) o
  | moreActions {d : Nat} {a : Action} {r : List Action} {data : Value} {ms ns : List Moment}
      {o : Except ActionError Unit} (deep : d ≤ st.limit)
      (first : Course st d (.action a data) ms (.ok ())) (rest : Course st d (.actions r data) ns o) :
    Course st d (.actions (a :: r) data) (ms ++ ns) o
  | stopped {d : Nat} {a : Action} {r : List Action} {data : Value} {ms : List Moment}
      {e : ActionError} (deep : d ≤ st.limit) (first : Course st d (.action a data) ms (.error e)) :
    Course st d (.actions (a :: r) data) ms (.error e)
  | unfailed {d : Nat} {a : Action} {data : Value} {ms : List Moment}
      (forward : Course st d (.forward a data) ms (.ok ())) :
    Course st d (.action a data) ms (.ok ())
  | uncaught {d : Nat} {a : Action} {data : Value} {ms : List Moment} {e : ActionError}
      (forward : Course st d (.forward a data) ms (.error e))
      (free : a.onError = none ∨ e.IsTooDeep) :
    Course st d (.action a data) ms (.error e)
  | caught {d : Nat} {a : Action} {as : List Action} {data : Value} {ms ns : List Moment}
      {e : ActionError} {o : Except ActionError Unit}
      (forward : Course st d (.forward a data) ms (.error e)) (shallow : ¬e.IsTooDeep)
      (onError : a.onError = some as)
      (next : Course st (d + 1) (.actions as (Action.faultData e data)) ns o) :
    Course st d (.action a data) (ms ++ ns) o
  | failed {d : Nat} {a : Action} {data : Value} {ms : List Moment} {e : ActionError}
      (perform : Course st d (.perform a data) ms (.error e)) :
    Course st d (.forward a data) ms (.error e)
  | done {d : Nat} {a : Action} {data : Value} {ms : List Moment}
      (perform : Course st d (.perform a data) ms (.ok ())) (onSuccess : a.onSuccess = none) :
    Course st d (.forward a data) ms (.ok ())
  | followed {d : Nat} {a : Action} {as : List Action} {data : Value} {ms ns : List Moment}
      {o : Except ActionError Unit} (perform : Course st d (.perform a data) ms (.ok ()))
      (onSuccess : a.onSuccess = some as) (next : Course st (d + 1) (.actions as data) ns o) :
    Course st d (.forward a data) (ms ++ ns) o
  | disordered {d : Nat} {a : Action} {data : Value} {s : Interaction} {e : ActionError}
      (holds : Condition.holds? s.context st.host.clock a.condition = true)
      (order : Order.ofAction (s.env st.host.clock data) a = .error e) :
    Course st d (.perform a data) [⟨d, .perform a, s⟩] (.error e)
  | performed {d : Nat} {a : Action} {data : Value} {s : Interaction} {x : Order}
      {ms : List Moment} {o : Except ActionError Unit}
      (holds : Condition.holds? s.context st.host.clock a.condition = true)
      (order : Order.ofAction (s.env st.host.clock data) a = .ok x)
      (obeyed : Course st d (.order x data) ms o) :
    Course st d (.perform a data) (⟨d, .perform a, s⟩ :: ms) o
  | setState {d : Nat} {key : String} {v data : Value} {s : Interaction} :
    Course st d (.order (.setState key v) data) [⟨d, .setState key v, s⟩] (s.setState key v).2
  | setVariable {d : Nat} {key : String} {v data : Value} {s : Interaction} :
    Course st d (.order (.setVariable key v) data) [⟨d, .setVariable key v, s⟩]
      (s.setVariable key v).2
  | announced {d : Nat} {e : Event} {data : Value} {s : Interaction} (plain : e.update? = none) :
    Course st d (.order (.announce e) data) [⟨d, .announce e, s⟩] (.ok ())
  | kept {d : Nat} {key : String} {v data : Value} {s : Interaction} :
    Course st d (.order (.keep (some key) v) data) [⟨d, .setState key v, s⟩] (s.setState key v).2
  | unkept {d : Nat} {v data : Value} : Course st d (.order (.keep none v) data) [] (.ok ())
  | answered {d : Nat} {r : Request} {key? : Option String} {v data : Value} {s : Interaction}
      {ms : List Moment} {o : Except ActionError Unit} (answer : (s.ask st.host r).2 = .ok v)
      (keep : Course st d (.order (.keep key? v) data) ms o) :
    Course st d (.order (.request r key?) data) (⟨d, .ask r, s⟩ :: ms) o
  | unanswered {d : Nat} {r : Request} {key? : Option String} {data : Value} {s : Interaction}
      {e : ActionError} (answer : (s.ask st.host r).2 = .error e) :
    Course st d (.order (.request r key?) data) [⟨d, .ask r, s⟩] (.error e)
  | returned {d : Nat} {f : String} {args : List Value} {key? : Option String} {v data : Value}
      {s : Interaction} {ms : List Moment} {o : Except ActionError Unit}
      (result : (s.call st.host ⟨f, args, data⟩).2 = .ok v)
      (keep : Course st d (.order (.keep key? v) data) ms o) :
    Course st d (.order (.call f args key?) data) (⟨d, .call ⟨f, args, data⟩, s⟩ :: ms) o
  | unreturned {d : Nat} {f : String} {args : List Value} {key? : Option String} {data : Value}
      {s : Interaction} {e : ActionError}
      (result : (s.call st.host ⟨f, args, data⟩).2 = .error e) :
    Course st d (.order (.call f args key?) data) [⟨d, .call ⟨f, args, data⟩, s⟩] (.error e)
  | triggered {d : Nat} {name : String} {payload data : Value} {ms : List Moment}
      (deep : d < st.limit) (event : Course st (d + 1) (.event name payload) ms (.ok ())) :
    Course st d (.order (.trigger name payload) data) ms (.ok ())
  | untriggered {d : Nat} {name : String} {payload data : Value} (deep : st.limit ≤ d) :
    Course st d (.order (.trigger name payload) data) [] (.error (.tooDeep (d + 1) st.limit))
  | nothing {d : Nat} {data : Value} : Course st d (.order .nothing data) [] (.ok ())

namespace Course

variable {st : Setting} {d : Nat} {p q : Part} {m : Moment} {ms : List Moment}
  {o : Except ActionError Unit}

/-- Nothing happens at a depth that is out of bounds. -/
theorem le_limit_of_mem {as : List Action} {data : Value}
    (h : Course st d (.actions as data) ms o) (hm : m ∈ ms) : d ≤ st.limit := by
  cases h with
  | tooDeep => cases hm
  | noActions => cases hm
  | passed deep | moreActions deep | stopped deep => exact deep

/-- Where the moments of a part at a depth are. -/
structure Bound (st : Setting) (d : Nat) (p : Part) (m : Moment) : Prop where
  le_depth : d ≤ m.depth
  depth_le : d ≤ st.limit → m.depth ≤ st.limit
  plain : m.deed.Plain
  lt_depth : ¬p.IsEvent → m.deed.Decides → d < m.depth

namespace Bound

theorem own {deed : Deed} {s : Interaction} (plain : deed.Plain) (hd : ¬deed.Decides) :
    Bound st d p ⟨d, deed, s⟩ :=
  ⟨Nat.le_refl d, id, plain, fun _ h ↦ absurd h hd⟩

theorem imp (h : Bound st d p m) (hp : ¬p.IsEvent) : Bound st d q m :=
  { h with lt_depth := fun _ ↦ h.lt_depth hp }

theorem deeper (h : Bound st (d + 1) p m) (hd : d + 1 ≤ st.limit) : Bound st d q m where
  le_depth := Nat.le_of_succ_le h.le_depth
  depth_le _ := h.depth_le hd
  plain := h.plain
  lt_depth _ _ := h.le_depth

end Bound

theorem bound (h : Course st d p ms o) : ∀ m ∈ ms, Bound st d p m := by
  induction h with
  | noHandlers | tooDeep | noActions | unkept | untriggered | nothing => exact List.forall_mem_nil _
  | disordered | setState | setVariable | kept | unanswered | unreturned =>
    exact List.forall_mem_singleton.mpr (.own trivial id)
  | announced plain => exact List.forall_mem_singleton.mpr (.own plain id)
  | handled _ ih | stopped _ _ ih | unfailed _ ih | uncaught _ _ ih | failed _ ih | done _ _ ih =>
    exact fun m hm ↦ (ih m hm).imp id
  | passed _ _ _ ih | performed _ _ _ ih | answered _ _ ih | returned _ _ ih =>
    exact List.forall_mem_cons.mpr ⟨.own trivial id, fun m hm ↦ (ih m hm).imp id⟩
  | event handlers ih =>
    refine List.forall_mem_cons.mpr ⟨?_, fun m hm ↦ (ih m hm).imp id⟩
    exact ⟨Nat.le_refl _, id, trivial, fun hp ↦ absurd trivial hp⟩
  | moreHandlers _ _ merge ihx ihr =>
    intro m hm
    rcases merge.mem_iff.mp hm with hm | hm
    · exact (ihx m hm).imp id
    · exact (ihr m hm).imp id
  | aborted _ ih =>
    refine List.forall_mem_append.mpr ⟨fun m hm ↦ (ih m hm).imp id, ?_⟩
    exact List.forall_mem_singleton.mpr (.own trivial id)
  | moreActions _ _ _ iha ihr =>
    exact List.forall_mem_append.mpr ⟨fun m hm ↦ (iha m hm).imp id,
      fun m hm ↦ (ihr m hm).imp id⟩
  | caught _ _ _ next ihf ihn | followed _ _ next ihf ihn =>
    exact List.forall_mem_append.mpr ⟨fun m hm ↦ (ihf m hm).imp id,
      fun m hm ↦ (ihn m hm).deeper (next.le_limit_of_mem hm)⟩
  | triggered deep _ ih => exact fun m hm ↦ (ih m hm).deeper deep

end Course

end LivePage
