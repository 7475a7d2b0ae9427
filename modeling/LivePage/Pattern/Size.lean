/-!
# Sizes of automata

An automaton is paid for by its states and by the lists in them, and it may not grow without
limit.
-/

namespace LivePage

namespace Pattern

/-- States so far, and the bytes of the lists in them. -/
structure Size where
  states : Nat := 0
  bytes : Nat := 0
deriving DecidableEq, Repr, Inhabited

namespace Size

/-- The memory for a state without lists. -/
def stateBytes : Nat := 32

/-- The memory for a link to a state, and for one that is taken with some bytes only. -/
def linkBytes : Nat := 4
def rangeBytes : Nat := 8

def memory (s : Size) : Nat := stateBytes * s.states + s.bytes

def maxMemory : Nat := 10 * 1024 * 1024

/-- What two parts take together. -/
def append (s t : Size) : Size := ⟨s.states + t.states, s.bytes + t.bytes⟩

/-- Adds states and bytes, within the limit. -/
def add? (s : Size) (states bytes : Nat) : Option Size :=
  let t : Size := ⟨s.states + states, s.bytes + bytes⟩
  if t.memory ≤ maxMemory then some t else none

end Size

end Pattern

end LivePage
