import Mathlib.Data.List.Basic
import LivePage.Event.Bus

/-!
# The two channels of a bus

Events and failures have channels of their own, which differ only in what a receiver is told that
has missed messages, and in where it goes on.  Whatever is read from one of them moves the place of
one receiver in that channel, and nothing else of the bus.
-/

namespace LivePage

/-- The two channels of a bus. -/
inductive Wire where
  | events
  | errors
deriving DecidableEq, Repr

/-- How a receiver is asked for a message. -/
inductive Mode where
  | receive
  | poll
deriving DecidableEq, Repr

namespace Wire

/-- What is sent on a channel. -/
abbrev Message : Wire → Type
  | events => Event
  | errors => ErrorEvent

/-- What a receiver is told that has missed so many messages. -/
def missed : Wire → Nat → ReceiveError
  | events => .lagged
  | errors => .failed

/-- Where a receiver goes on that has been told so. -/
def resume : (w : Wire) → Channel w.Message → Nat
  | events, c => c.sent
  | errors, c => c.oldest

/-- What a receiver is told at its place, and where it goes on. -/
def read (w : Wire) (c : Channel w.Message) (place : Nat) (mode : Mode) :
    Except ReceiveError (Option w.Message) × Nat :=
  match w, mode with
  | .events, .poll =>
    match c.next? place with
    | some (m, place) => (.ok (some m), place)
    | none => (.ok none, place)
  | w, mode =>
    match c.read place with
    | .message m => (.ok (some m), place + 1)
    | .missed n => (if mode = .poll then .ok none else .error (w.missed n), w.resume c)
    | .nothing => (.ok none, place)

end Wire

namespace Receiver

/-- The place of a receiver in a channel. -/
def place (r : Receiver) : Wire → Nat
  | .events => r.events
  | .errors => r.errors

theorem place_of_ne_events (r : Receiver) (p : Nat) (v : Wire) (h : v ≠ .events) :
    place { r with events := p } v = r.place v := by
  cases v with
  | events => exact absurd rfl h
  | errors => rfl

theorem place_of_ne_errors (r : Receiver) (p : Nat) (v : Wire) (h : v ≠ .errors) :
    place { r with errors := p } v = r.place v := by
  cases v with
  | events => rfl
  | errors => exact absurd rfl h

end Receiver

namespace Bus

variable {b : Bus} {rx : Nat} {r : Receiver}

def channel (b : Bus) : (w : Wire) → Channel w.Message
  | .events => b.events
  | .errors => b.errors

def send (b : Bus) : (w : Wire) → w.Message → Bus
  | .events, e => b.publish e
  | .errors, e => b.publishError e

/-- Asks a receiver for a message of a channel. -/
def read (b : Bus) (rx : Nat) (mode : Mode) :
    (w : Wire) → Except ReceiveError (Option w.Message) × Bus
  | .events =>
    match mode with
    | .receive => b.receive rx
    | .poll => (.ok (b.poll rx).1, (b.poll rx).2)
  | .errors =>
    match mode with
    | .receive => b.receiveError rx
    | .poll => (.ok (b.pollError rx).1, (b.pollError rx).2)

theorem receiver?_move (b : Bus) (rx : Nat) (r : Receiver) (i : Nat) :
    (b.move rx r).receiver? i =
      if i = rx then (b.receiver? rx).map fun _ ↦ r else b.receiver? i := by
  simp only [receiver?, move]
  induction b.receivers with
  | nil => simp
  | cons head rest ih =>
    obtain ⟨j, old⟩ := head
    by_cases hj : j = rx <;> by_cases hi : i = j <;> grind

@[simp] theorem channel_move (b : Bus) (rx : Nat) (r : Receiver) (w : Wire) :
    (b.move rx r).channel w = b.channel w := by
  cases w <;> rfl

/-- All that has changed is the place of one receiver in one channel. -/
structure Moves (b b' : Bus) (rx : Nat) (w : Wire) (place : Nat) : Prop where
  channel (v : Wire) : b'.channel v = b.channel v
  subscriptions : b'.subscriptions = b.subscriptions
  numbers : b'.receivers.map Prod.fst = b.receivers.map Prod.fst
  place_eq (v : Wire) (i : Nat) : (b'.receiver? i).map (·.place v) =
    if w = v ∧ rx = i then some place else (b.receiver? i).map (·.place v)

namespace Moves

theorem refl (h : b.receiver? rx = some r) (w : Wire) : b.Moves b rx w (r.place w) where
  channel _ := rfl
  subscriptions := rfl
  numbers := rfl
  place_eq v i := by
    split
    · next e => rw [← e.1, ← e.2, h, Option.map_some]
    · rfl

theorem move (h : b.receiver? rx = some r) {r' : Receiver} {w : Wire}
    (others : ∀ v, v ≠ w → r'.place v = r.place v) : b.Moves (b.move rx r') rx w (r'.place w) where
  channel := channel_move b rx r'
  subscriptions := rfl
  numbers := by
    simp only [Bus.move, List.map_map]
    refine List.map_congr_left fun x _ ↦ ?_
    simp only [Function.comp_apply]
    split <;> rfl
  place_eq v i := by
    rw [receiver?_move]
    by_cases hi : i = rx
    · subst hi
      by_cases hv : v = w
      · simp [h, hv]
      · simp [h, others v hv, Ne.symm hv]
    · simp [hi, Ne.symm hi]

end Moves

/-- A receiver that reads is told what is at its place, and goes on behind it. -/
theorem read_of_receiver? (h : b.receiver? rx = some r) (mode : Mode) (w : Wire) :
    (b.read rx mode w).1 = (w.read (b.channel w) (r.place w) mode).1 ∧
      b.Moves (b.read rx mode w).2 rx w (w.read (b.channel w) (r.place w) mode).2 := by
  cases w with
  | events =>
    cases mode with
    | receive =>
      simp only [read, receive, h, Wire.read, channel, Receiver.place]
      cases b.events.read r.events with
      | message m => exact ⟨rfl, .move h (r.place_of_ne_events (r.events + 1))⟩
      | missed n => exact ⟨rfl, .move h (r.place_of_ne_events b.events.sent)⟩
      | nothing => exact ⟨rfl, .refl h .events⟩
    | poll =>
      simp only [read, poll, h, Wire.read, channel, Receiver.place]
      cases b.events.next? r.events with
      | some x => exact ⟨rfl, .move h (r.place_of_ne_events x.2)⟩
      | none => exact ⟨rfl, .refl h .events⟩
  | errors =>
    cases mode with
    | receive | poll =>
      simp only [read, pollError, receiveError, h, Wire.read, channel, Receiver.place]
      cases b.errors.read r.errors with
      | message m => exact ⟨rfl, .move h (r.place_of_ne_errors (r.errors + 1))⟩
      | missed n => exact ⟨rfl, .move h (r.place_of_ne_errors b.errors.oldest)⟩
      | nothing => exact ⟨rfl, .refl h .errors⟩

/-- The places of a receiver behind a subscription: a new one is behind all messages. -/
theorem receiver?_subscribe (fresh : ∀ x ∈ b.receivers, x.1 < b.subscriptions) (i : Nat) :
    b.subscribe.2.receiver? i =
      if i = b.subscriptions then some ⟨b.events.sent, b.errors.sent⟩ else b.receiver? i := by
  simp only [receiver?, subscribe, List.lookup_append]
  by_cases hi : i = b.subscriptions
  · have unknown : b.receivers.lookup i = none := by
      refine List.lookup_eq_none_iff.mpr fun x hx ↦ ?_
      have := fresh x hx
      simp
      omega
    simp [hi ▸ unknown, hi]
  · simp [hi, List.lookup_cons, beq_eq_false_iff_ne.mpr hi]

@[simp] theorem fst_subscribe (b : Bus) : b.subscribe.1 = b.subscriptions := rfl

@[simp] theorem subscriptions_subscribe (b : Bus) :
    b.subscribe.2.subscriptions = b.subscriptions + 1 := rfl

theorem receiver?_unsubscribe (b : Bus) (rx i : Nat) :
    (b.unsubscribe rx).receiver? i = if i = rx then none else b.receiver? i := by
  simp only [receiver?, unsubscribe]
  induction b.receivers with
  | nil => simp
  | cons head rest ih =>
    obtain ⟨j, old⟩ := head
    by_cases hj : j = rx <;> by_cases hi : i = j <;> grind

@[simp] theorem channel_subscribe (b : Bus) (w : Wire) :
    b.subscribe.2.channel w = b.channel w := by
  cases w <;> rfl

@[simp] theorem channel_unsubscribe (b : Bus) (rx : Nat) (w : Wire) :
    (b.unsubscribe rx).channel w = b.channel w := by
  cases w <;> rfl

theorem channel_send_self (b : Bus) (w : Wire) (m : w.Message) :
    (b.send w m).channel w = (b.channel w).send m := by
  cases w <;> rfl

theorem channel_send_of_ne {v w : Wire} (b : Bus) (m : w.Message) (h : v ≠ w) :
    (b.send w m).channel v = b.channel v := by
  cases v <;> cases w <;> first | rfl | exact absurd rfl h

@[simp] theorem receiver?_send (b : Bus) (w : Wire) (m : w.Message) :
    (b.send w m).receiver? = b.receiver? := by
  cases w <;> rfl

@[simp] theorem receivers_send (b : Bus) (w : Wire) (m : w.Message) :
    (b.send w m).receivers = b.receivers := by
  cases w <;> rfl

@[simp] theorem subscriptions_send (b : Bus) (w : Wire) (m : w.Message) :
    (b.send w m).subscriptions = b.subscriptions := by
  cases w <;> rfl

end Bus

end LivePage
