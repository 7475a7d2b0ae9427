/-!
# Channels

The messages of a channel are a row in which each has a place, and every reader has a place of its
own in it. Only the last messages can still be read; a reader whose next message is not among
them has missed some.
-/

namespace LivePage

structure Channel (α : Type) where
  /-- How many messages can be read at most. -/
  size : Nat
  /-- All messages, in the order in which they were sent. -/
  log : Array α := #[]
deriving Repr, Inhabited

/-- What a reader finds at its place. -/
inductive Reading (α : Type) where
  | message (a : α)
  | missed (count : Nat)
  | nothing
deriving DecidableEq, Repr

namespace Channel

variable {α : Type}

/-- How many messages were sent, which is the place of the next one. -/
def sent (c : Channel α) : Nat := c.log.size

def send (c : Channel α) (a : α) : Channel α := { c with log := c.log.push a }

/-- The place of the oldest message that can be read. -/
def oldest (c : Channel α) : Nat := c.sent - c.size

/-- What is at a place. -/
def read (c : Channel α) (place : Nat) : Reading α :=
  if place < c.oldest then .missed (c.oldest - place)
  else match c.log[place]? with
    | some a => .message a
    | none => .nothing

/-- The first message at a place or behind it that can be read, and the place behind it. -/
def next? (c : Channel α) (place : Nat) : Option (α × Nat) :=
  let place := max place c.oldest
  c.log[place]?.map (·, place + 1)

@[simp] theorem sent_send (c : Channel α) (a : α) : (c.send a).sent = c.sent + 1 := by
  simp [send, sent]

@[simp] theorem size_send (c : Channel α) (a : α) : (c.send a).size = c.size := rfl

theorem toList_log_send (c : Channel α) (a : α) : (c.send a).log.toList = c.log.toList ++ [a] := by
  simp [send]

end Channel

end LivePage
