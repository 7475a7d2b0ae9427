import LivePage.Event.Basic
import LivePage.Event.Channel

/-!
# The bus

Whoever subscribes reads two channels, one of events and one of failures. A reader that has
fallen behind learns how many messages it has missed.
-/

namespace LivePage

/-- The places of a reader in the two channels. -/
structure Receiver where
  events : Nat
  errors : Nat
deriving DecidableEq, Repr, Inhabited

inductive ReceiveError where
  | lagged (count : Nat)
  | failed (count : Nat)
deriving DecidableEq, Repr

def ReceiveError.message : ReceiveError → String
  | lagged count => s!"Event lagged: {count}"
  | failed count => s!"Event Receive failed: channel lagged by {count}"

structure Bus where
  capacity : Nat
  events : Channel Event
  errors : Channel ErrorEvent
  /-- Receivers with their numbers; numbers are not used again. -/
  receivers : List (Nat × Receiver) := []
  subscriptions : Nat := 0
deriving Repr, Inhabited

namespace Bus

/-- A channel holds a power of two of messages, at least as many as were asked for. -/
def ofCapacity (capacity : Nat) : Bus :=
  let capacity := max capacity 1
  ⟨capacity, { size := capacity.nextPowerOfTwo }, { size := capacity.nextPowerOfTwo }, [], 0⟩

/-- Adds a receiver, which reads what is sent from now on. -/
def subscribe (b : Bus) : Nat × Bus :=
  (b.subscriptions, { b with
    receivers := b.receivers ++ [(b.subscriptions, ⟨b.events.sent, b.errors.sent⟩)]
    subscriptions := b.subscriptions + 1 })

def unsubscribe (b : Bus) (rx : Nat) : Bus :=
  { b with receivers := b.receivers.filter (·.1 != rx) }

def publish (b : Bus) (e : Event) : Bus := { b with events := b.events.send e }

def publishError (b : Bus) (e : ErrorEvent) : Bus := { b with errors := b.errors.send e }

def announce (b : Bus) : Notice → Bus
  | .event e => b.publish e
  | .error e => b.publishError e

def receiver? (b : Bus) (rx : Nat) : Option Receiver := b.receivers.lookup rx

/-- Puts a receiver to other places. -/
def move (b : Bus) (rx : Nat) (r : Receiver) : Bus :=
  { b with receivers := b.receivers.map fun (i, old) => if i = rx then (i, r) else (i, old) }

/-- The next event, or nothing yet. A receiver that has missed events goes on behind the last. -/
def receive (b : Bus) (rx : Nat) : Except ReceiveError (Option Event) × Bus :=
  match b.receiver? rx with
  | none => (.ok none, b)
  | some r =>
    match b.events.read r.events with
    | .message e => (.ok (some e), b.move rx { r with events := r.events + 1 })
    | .missed n => (.error (.lagged n), b.move rx { r with events := b.events.sent })
    | .nothing => (.ok none, b)

/-- The next event that can still be read, if there is one. -/
def poll (b : Bus) (rx : Nat) : Option Event × Bus :=
  match b.receiver? rx with
  | none => (none, b)
  | some r =>
    match b.events.next? r.events with
    | some (e, place) => (some e, b.move rx { r with events := place })
    | none => (none, b)

/-- The next failure, or nothing yet. A receiver that has missed some goes on with the oldest. -/
def receiveError (b : Bus) (rx : Nat) : Except ReceiveError (Option ErrorEvent) × Bus :=
  match b.receiver? rx with
  | none => (.ok none, b)
  | some r =>
    match b.errors.read r.errors with
    | .message e => (.ok (some e), b.move rx { r with errors := r.errors + 1 })
    | .missed n => (.error (.failed n), b.move rx { r with errors := b.errors.oldest })
    | .nothing => (.ok none, b)

/-- The next failure; nothing also where the receiver learns that it has missed some. -/
def pollError (b : Bus) (rx : Nat) : Option ErrorEvent × Bus :=
  match b.receiveError rx with
  | (.ok e, b) => (e, b)
  | (.error _, b) => (none, b)

/-- How many have subscribed and are still there. -/
def size (b : Bus) : Nat := b.receivers.length

end Bus

end LivePage
