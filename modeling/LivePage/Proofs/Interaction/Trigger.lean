import LivePage.Proofs.Event.Log
import LivePage.Proofs.Interaction.Course
import LivePage.Proofs.Interaction.Verdict

/-!
# Events that no action triggers

Where no action of a handler can ask for an event, only the host can bring it about.
-/

namespace LivePage

variable {st : Setting} {d : Nat} {p : Part} {ms : List Moment} {o : Except ActionError Unit}
  {event : String}

/-- An action, or one that follows it, can ask for an event. -/
inductive Action.Triggers (event : String) : Action → Prop where
  | order {a : Action} {env : Env} {data : Value}
      (order : Order.ofAction env a = .ok (.trigger event data)) : Triggers event a
  | onError {a b : Action} {as : List Action} (onError : a.onError = some as) (mem : b ∈ as)
      (triggers : Triggers event b) : Triggers event a
  | onSuccess {a b : Action} {as : List Action} (onSuccess : a.onSuccess = some as) (mem : b ∈ as)
      (triggers : Triggers event b) : Triggers event a

/-- No action of a handler can ask for an event. -/
def Handler.Avoids (event : String) (h : Handler) : Prop := ∀ a ∈ h.actions, ¬a.Triggers event

namespace Part

/-- No action of a part can ask for an event. -/
def Avoids (event : String) : Part → Prop
  | .event _ _ => True
  | handlers xs _ _ => ∀ x ∈ xs, x.handler.Avoids event
  | handler x _ _ => x.handler.Avoids event
  | actions as _ => ∀ a ∈ as, ¬a.Triggers event
  | action a _ | forward a _ | perform a _ => ¬a.Triggers event
  | order x _ => ∀ data, x ≠ .trigger event data

end Part

/-- An event is not decided on in these moments. -/
def Undecided (event : String) (ms : List Moment) : Prop :=
  ∀ m ∈ ms, ∀ data, m.deed ≠ .decide event data

/-- An event is decided on only where it is what begins. -/
def Part.Decides (event : String) (d : Nat) (ms : List Moment) : Part → Prop
  | .event name _ => ∀ m ∈ ms, ∀ data, m.deed = .decide event data → name = event ∧ m.depth = d
  | _ => Undecided event ms

/-- Where no handler asks for an event, it is decided on only where it begins. -/
theorem Course.decides (h : Course st d p ms o)
    (hst : ∀ x ∈ st.registry.all, x.handler.Avoids event) (hp : p.Avoids event) :
    p.Decides event d ms := by
  induction h with
  | noHandlers | tooDeep | noActions | unkept | untriggered | nothing => exact List.forall_mem_nil _
  | disordered | setState | setVariable | announced | kept | unanswered | unreturned =>
    exact List.forall_mem_singleton.mpr nofun
  | @event d s ms name data _ ih =>
    have own : Undecided event ms := ih fun x hx ↦
      hst x (Registry.mem_handlersFor_iff.mp (Dispatch.mem_handlersFor_of_mem_admitted hx)).1
    refine List.forall_mem_cons.mpr ⟨?_, fun m hm data he ↦ absurd he (own m hm data)⟩
    rintro data' ⟨⟩
    exact ⟨rfl, rfl⟩
  | moreHandlers _ _ merge ihx ihr =>
    intro m hm
    rcases merge.mem_iff.mp hm with hm | hm
    · exact ihx (hp _ (.head _)) m hm
    · exact ihr (fun y hy ↦ hp y (.tail _ hy)) m hm
  | handled _ ih | unfailed _ ih | uncaught _ _ ih | failed _ ih | done _ _ ih => exact ih hp
  | aborted _ ih =>
    exact List.forall_mem_append.mpr ⟨ih hp, List.forall_mem_singleton.mpr nofun⟩
  | passed _ _ _ ih => exact List.forall_mem_cons.mpr ⟨nofun, ih fun a ha ↦ hp a (.tail _ ha)⟩
  | moreActions _ _ _ iha ihr =>
    exact List.forall_mem_append.mpr ⟨iha (hp _ (.head _)), ihr fun a ha ↦ hp a (.tail _ ha)⟩
  | stopped _ _ ih => exact ih (hp _ (.head _))
  | caught _ _ onError _ ihf ihn =>
    exact List.forall_mem_append.mpr ⟨ihf hp, ihn fun a ha ht ↦ hp (.onError onError ha ht)⟩
  | followed _ onSuccess _ ihp ihn =>
    exact List.forall_mem_append.mpr ⟨ihp hp, ihn fun a ha ht ↦ hp (.onSuccess onSuccess ha ht)⟩
  | performed _ order _ ih =>
    refine List.forall_mem_cons.mpr ⟨nofun, ih fun data hx ↦ hp ?_⟩
    exact .order (hx ▸ order)
  | answered _ _ ih | returned _ _ ih => exact List.forall_mem_cons.mpr ⟨nofun, ih nofun⟩
  | triggered _ _ ih =>
    intro m hm data he
    obtain ⟨rfl, -⟩ := ih trivial m hm data he
    exact hp _ rfl

end LivePage
