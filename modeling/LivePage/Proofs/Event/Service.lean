import Mathlib.Logic.Function.Basic
import Mathlib.Tactic.SplitIfs
import LivePage.Proofs.Event.Wire
import LivePage.Proofs.Replies

/-!
# A bus in service

Whoever subscribes to a bus holds a receiver of each of its two channels, and may let go of either.
A channel comes with a receiver of its own, which the bus keeps; a message that is sent while nobody
holds a receiver of its channel is refused.

A receiver sees little of all this: its channel, its place there, and which number the next receiver
gets.  What it is told depends on nothing else.
-/

namespace LivePage

/-- A bus, and who holds a receiver of each of its channels: the bus itself, and whoever has
subscribed, by number. -/
structure Service where
  bus : Bus
  holders : Wire → List (Option Nat)

namespace Service

/-- What can be asked of a bus in service. -/
inductive Operation where
  | subscribe
  | send (w : Wire) (m : w.Message)
  | read (mode : Mode) (w : Wire) (rx : Nat)
  | drop (w : Wire) (rx : Nat)

inductive Answer where
  | subscribed (rx : Nat)
  /-- Whether a message was sent. -/
  | sent (done : Bool)
  | told (w : Wire) (rx : Nat) (result : Except ReceiveError (Option w.Message))
  | dropped

/-- A new bus holds a receiver of each of its channels. -/
def start (capacity : Nat) : Service := ⟨.ofCapacity capacity, fun _ ↦ [none]⟩

/-- Whoever holds no receiver is told nothing. -/
def step (s : Service) : Operation → Answer × Service
  | .subscribe =>
    let (rx, bus) := s.bus.subscribe
    (.subscribed rx, ⟨bus, fun w ↦ some rx :: s.holders w⟩)
  | .send w m =>
    if s.holders w = [] then (.sent false, s)
    else (.sent true, { s with bus := s.bus.send w m })
  | .read mode w rx =>
    if some rx ∈ s.holders w then
      let (result, bus) := s.bus.read rx mode w
      (.told w rx result, { s with bus := bus })
    else (.told w rx (.ok none), s)
  | .drop w rx =>
    let holders := Function.update s.holders w ((s.holders w).filter (· ≠ some rx))
    let held := some rx ∈ holders .events ∨ some rx ∈ holders .errors
    (.dropped, ⟨if held then s.bus else s.bus.unsubscribe rx, holders⟩)

/-- The bus does not let go of its receivers, and every other one that is held is known to it. -/
structure Sound (s : Service) : Prop where
  own (w : Wire) : none ∈ s.holders w
  held {w : Wire} {rx : Nat} : some rx ∈ s.holders w → (s.bus.receiver? rx).isSome
  numbered : ∀ x ∈ s.bus.receivers, x.1 < s.bus.subscriptions

variable {s : Service} {w : Wire} {rx : Nat}

/-- Who still holds a receiver when one of them is let go. -/
theorem mem_holders_drop_iff {v : Wire} {holder : Option Nat} :
    holder ∈ (s.step (.drop w rx)).2.holders v ↔
      holder ∈ s.holders v ∧ ¬(v = w ∧ holder = some rx) := by
  by_cases hv : v = w
  · subst hv
    simp [step]
  · simp [step, hv]

/-- A receiver that is still held somewhere is still known. -/
theorem receiver?_drop {v : Wire} {i : Nat} (h : some i ∈ (s.step (.drop w rx)).2.holders v) :
    (s.step (.drop w rx)).2.bus.receiver? i = s.bus.receiver? i := by
  simp only [step] at h ⊢
  split
  · rfl
  · next dropped =>
    rw [Bus.receiver?_unsubscribe, if_neg]
    rintro rfl
    cases v with
    | events => exact dropped (.inl h)
    | errors => exact dropped (.inr h)

namespace Sound

theorem start (capacity : Nat) : (start capacity).Sound where
  own _ := .head _
  held h := by simp [Service.start] at h
  numbered := nofun

/-- A message is never refused. -/
theorem step_send (h : s.Sound) (m : w.Message) :
    s.step (.send w m) = (.sent true, { s with bus := s.bus.send w m }) := by
  have : s.holders w ≠ [] := List.ne_nil_of_mem (h.own w)
  simp only [step, if_neg this]

theorem subscribe (h : s.Sound) : (s.step .subscribe).2.Sound where
  own w := .tail _ (h.own w)
  held {w i} hi := by
    rw [show (s.step .subscribe).2.bus = s.bus.subscribe.2 from rfl,
      Bus.receiver?_subscribe h.numbered]
    split
    · rfl
    · next hn =>
      cases hi with
      | head => exact absurd rfl hn
      | tail _ hi => exact h.held hi
  numbered x hx := by
    rcases List.mem_append.mp hx with hx | hx
    · exact Nat.lt_succ_of_lt (h.numbered x hx)
    · exact List.mem_singleton.mp hx ▸ Nat.lt_succ_self _

theorem send (h : s.Sound) (m : w.Message) : (s.step (.send w m)).2.Sound := by
  rw [step_send h]
  exact ⟨h.own, fun hi ↦ by simpa using h.held hi, by simpa using h.numbered⟩

theorem moves (h : s.Sound) {bus : Bus} {p : Nat} (hm : s.bus.Moves bus rx w p) :
    Sound { s with bus := bus } where
  own := h.own
  held {v i} hi := by
    have hp := hm.place_eq v i
    have := h.held hi
    split at hp
    · simpa using congrArg Option.isSome hp
    · simpa [this] using congrArg Option.isSome hp
  numbered x hx := by
    obtain ⟨y, hy, e⟩ := List.mem_map.mp (hm.numbers ▸ List.mem_map_of_mem (f := Prod.fst) hx)
    exact hm.subscriptions ▸ e ▸ h.numbered y hy

theorem drop (h : s.Sound) (w : Wire) (rx : Nat) : (s.step (.drop w rx)).2.Sound where
  own v := mem_holders_drop_iff.mpr ⟨h.own v, by simp⟩
  held hi := by
    rw [receiver?_drop hi]
    exact h.held (mem_holders_drop_iff.mp hi).1
  numbered x hx := by
    simp only [step] at hx ⊢
    split at hx
    · next held => exact if_pos held ▸ h.numbered x hx
    · next dropped => exact if_neg dropped ▸ h.numbered x (List.mem_of_mem_filter hx)

end Sound

/-! ## What a receiver sees -/

/-- The place of a receiver in a channel, as long as it is held. -/
def place? (s : Service) (w : Wire) (rx : Nat) : Option Nat :=
  if some rx ∈ s.holders w then (s.bus.receiver? rx).map (·.place w) else none

/-- A channel, the place of one receiver in it, and the number of the receiver that is made next. -/
structure View (w : Wire) where
  channel : Channel w.Message
  place? : Option Nat
  next : Nat

def view (s : Service) (w : Wire) (rx : Nat) : View w :=
  ⟨s.bus.channel w, s.place? w rx, s.bus.subscriptions⟩

/-- The message that is sent on a channel. -/
def Operation.message? (w : Wire) : Operation → Option w.Message
  | .send v m => if h : v = w then some (h ▸ m) else none
  | _ => none

/-- What a receiver is told. -/
def Answer.result? (w : Wire) (rx : Nat) : Answer → Option (Except ReceiveError (Option w.Message))
  | .told v i result => if h : v = w then if i = rx then some (h ▸ result) else none else none
  | _ => none

@[simp] theorem Operation.message?_send_self (m : w.Message) :
    (Operation.send w m).message? w = some m := by
  simp [message?]

@[simp] theorem Answer.result?_told_self (result : Except ReceiveError (Option w.Message)) :
    (Answer.told w rx result).result? w rx = some result := by
  simp [result?]

theorem Answer.result?_told_of_ne {u : Wire} {i : Nat} (h : ¬(u = w ∧ i = rx))
    (result : Except ReceiveError (Option u.Message)) :
    (Answer.told u i result).result? w rx = none := by
  simp only [result?]
  split_ifs with hu hi
  · exact absurd ⟨hu, hi⟩ h
  · rfl
  · rfl

/-- Whether an operation is of any concern to a receiver of a channel. -/
def Operation.concerns (w : Wire) (rx : Nat) : Operation → Bool
  | .subscribe => true
  | .send v _ => v = w
  | .read _ v i | .drop v i => v = w ∧ i = rx

namespace View

/-- What a receiver sees behind an operation. -/
def after (rx : Nat) (v : View w) : Operation → View w
  | .subscribe =>
    { v with place? := if v.next = rx then some v.channel.sent else v.place?, next := v.next + 1 }
  | .send u m =>
    match (Operation.send u m).message? w with
    | some m => { v with channel := v.channel.send m }
    | none => v
  | .read mode u i =>
    if u = w ∧ i = rx then
      { v with place? := v.place?.map fun p ↦ (w.read v.channel p mode).2 }
    else v
  | .drop u i => if u = w ∧ i = rx then { v with place? := none } else v

/-- What a receiver is told by an operation. -/
def told? (rx : Nat) (v : View w) : Operation → Option (Except ReceiveError (Option w.Message))
  | .read mode u i =>
    if u = w ∧ i = rx then
      some ((v.place?.map fun p ↦ (w.read v.channel p mode).1).getD (.ok none))
    else none
  | _ => none

end View

theorem Sound.place?_subscribe (h : s.Sound) (w : Wire) (rx : Nat) :
    (s.step .subscribe).2.place? w rx =
      if s.bus.subscriptions = rx then some (s.bus.channel w).sent else s.place? w rx := by
  simp only [place?, Service.step, Bus.receiver?_subscribe h.numbered]
  by_cases hn : rx = s.bus.subscriptions
  · subst hn
    cases w <;> simp [Receiver.place, Bus.channel]
  · simp [hn, Ne.symm hn]

theorem place?_drop (s : Service) (u : Wire) (i : Nat) (w : Wire) (rx : Nat) :
    (s.step (.drop u i)).2.place? w rx = if u = w ∧ i = rx then none else s.place? w rx := by
  unfold place?
  by_cases held : some rx ∈ (s.step (.drop u i)).2.holders w
  · obtain ⟨before, other⟩ := mem_holders_drop_iff.mp held
    have other : ¬(u = w ∧ i = rx) := fun e ↦ other ⟨e.1.symm, by rw [e.2]⟩
    rw [if_pos held, if_neg other, if_pos before, receiver?_drop held]
  · rw [if_neg held]
    split
    · rfl
    · next other =>
      rw [if_neg fun before ↦ held (mem_holders_drop_iff.mpr ⟨before, fun e ↦ other ?_⟩)]
      exact ⟨e.1.symm, (Option.some.inj e.2).symm⟩

theorem place?_moves {bus : Bus} {u : Wire} {i p : Nat} (held : some i ∈ s.holders u)
    (moves : s.bus.Moves bus i u p) (w : Wire) (rx : Nat) :
    place? { s with bus := bus } w rx = if u = w ∧ i = rx then some p else s.place? w rx := by
  simp only [place?, moves.place_eq]
  by_cases e : u = w ∧ i = rx
  · obtain ⟨rfl, rfl⟩ := e
    simp [held]
  · simp only [if_neg e]

theorem Sound.step_read (h : s.Sound) (mode : Mode) (u : Wire) (i : Nat) (w : Wire) (rx : Nat) :
    (s.step (.read mode u i)).2.Sound ∧
      (s.step (.read mode u i)).2.view w rx = (s.view w rx).after rx (.read mode u i) ∧
      (s.step (.read mode u i)).1.result? w rx = (s.view w rx).told? rx (.read mode u i) := by
  by_cases held : some i ∈ s.holders u
  · obtain ⟨r, hr⟩ := Option.isSome_iff_exists.mp (h.held held)
    obtain ⟨told, moves⟩ := Bus.read_of_receiver? hr mode u
    have hs : s.step (.read mode u i) = (.told u i (s.bus.read i mode u).1,
        { s with bus := (s.bus.read i mode u).2 }) := by
      simp only [Service.step, if_pos held]
    have hp : s.place? u i = some (r.place u) := by simp [place?, held, hr]
    rw [hs]
    refine ⟨h.moves moves, ?_⟩
    simp only [view, place?_moves held moves, moves.channel, moves.subscriptions, View.after,
      View.told?]
    by_cases e : u = w ∧ i = rx
    · obtain ⟨rfl, rfl⟩ := e
      simp [hp, told]
    · simp [e, Answer.result?_told_of_ne e]
  · have hs : s.step (.read mode u i) = (.told u i (.ok none), s) := by
      simp only [Service.step, if_neg held]
    have hp : s.place? u i = none := by simp [place?, held]
    rw [hs]
    refine ⟨h, ?_⟩
    simp only [View.after, View.told?, view]
    by_cases e : u = w ∧ i = rx
    · obtain ⟨rfl, rfl⟩ := e
      simp [hp]
    · simp [e, Answer.result?_told_of_ne e]

theorem Sound.view_send (h : s.Sound) (u : Wire) (m : u.Message) (w : Wire) (rx : Nat) :
    (s.step (.send u m)).2.view w rx = (s.view w rx).after rx (.send u m) := by
  rw [h.step_send]
  by_cases hu : u = w
  · subst hu
    simp [view, View.after, place?, Bus.channel_send_self]
  · simp [view, View.after, place?, Operation.message?, hu, Bus.channel_send_of_ne _ _ (Ne.symm hu)]

theorem view_drop (s : Service) (u : Wire) (i : Nat) (w : Wire) (rx : Nat) :
    (s.step (.drop u i)).2.view w rx = (s.view w rx).after rx (.drop u i) := by
  have bus : (s.step (.drop u i)).2.bus = s.bus ∨
      (s.step (.drop u i)).2.bus = s.bus.unsubscribe i := by
    simp only [Service.step]
    split
    · exact .inl rfl
    · exact .inr rfl
  have channel : (s.step (.drop u i)).2.bus.channel w = s.bus.channel w := by
    rcases bus with e | e <;> simp [e]
  have next : (s.step (.drop u i)).2.bus.subscriptions = s.bus.subscriptions := by
    rcases bus with e | e <;> rw [e]
    rfl
  simp only [view, View.after, place?_drop, channel, next]
  split <;> rfl

/-- What a service does next is, for a receiver, what it does to what the receiver sees. -/
theorem sound_step (h : s.Sound) (op : Operation) (w : Wire) (rx : Nat) :
    (s.step op).2.Sound ∧ (s.step op).2.view w rx = (s.view w rx).after rx op ∧
      (s.step op).1.result? w rx = (s.view w rx).told? rx op := by
  cases op with
  | subscribe =>
    refine ⟨h.subscribe, ?_, rfl⟩
    simp only [view, View.after, h.place?_subscribe]
    simp [Service.step]
    rfl
  | send u m =>
    refine ⟨h.send m, h.view_send u m w rx, ?_⟩
    rw [h.step_send]
    rfl
  | read mode u i => exact h.step_read mode u i w rx
  | drop u i => exact ⟨h.drop u i, s.view_drop u i w rx, rfl⟩

end Service

end LivePage
