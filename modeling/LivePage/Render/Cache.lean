import LivePage.Fields

/-!
# Caches

A cache keeps a limited number of values by key, and the keys in the order in which they were
written. A full cache loses its oldest value; a key that is written again becomes the newest.
Every value can be given a time after which it is removed; the removal of a value that is no
longer there does nothing.
-/

namespace LivePage

structure Cache.Entry (α : Type) where
  /-- No two values that were ever written have the same stamp. -/
  stamp : Nat
  value : α
deriving Repr

/-- The removal of an entry at a time. -/
structure Cache.Expiry where
  due : Nat
  key : String
  stamp : Nat
deriving DecidableEq, Repr

structure Cache (α : Type) where
  maxSize : Nat
  /-- How long a value is kept; zero is for ever. -/
  ttl : Nat
  entries : Fields (Cache.Entry α) := []
  /-- The keys, oldest first. -/
  order : List String := []
  stamps : Nat := 0
  expiries : List Cache.Expiry := []
deriving Repr

namespace Cache

variable {α : Type}

def size (c : Cache α) : Nat := c.entries.length

def get? (c : Cache α) (key : String) : Option α := (c.entries.get? key).map (·.value)

def contains (c : Cache α) (key : String) : Bool := (c.entries.get? key).isSome

def remove (c : Cache α) (key : String) : Cache α :=
  if c.contains key then
    { c with entries := c.entries.erase key, order := c.order.filter (· != key) }
  else c

def clear (c : Cache α) : Cache α := { c with entries := [], order := [] }

/-- Makes room for one more entry, and tells the key that had to go, if any. -/
def makeRoom (c : Cache α) : Option String × Cache α :=
  if c.size < c.maxSize then (none, c)
  else match c.order with
    | [] => (none, c)
    | oldest :: r => (some oldest, { c with entries := c.entries.erase oldest, order := r })

/-- Adds the newest entry, and the removal of it. -/
def append (c : Cache α) (now : Nat) (key : String) (v : α) : Cache α :=
  let stamp := c.stamps + 1
  { c with
    entries := c.entries.insert key ⟨stamp, v⟩
    order := c.order ++ [key]
    stamps := stamp
    expiries := if c.ttl = 0 then c.expiries else c.expiries ++ [⟨now + c.ttl, key, stamp⟩] }

/-- Writes a value, and tells the key that had to go, if any. A cache without room keeps
nothing. -/
def insert (c : Cache α) (now : Nat) (key : String) (v : α) : Option String × Cache α :=
  if c.maxSize = 0 then (none, c)
  else
    let (evicted, c) := (c.remove key).makeRoom
    (evicted, c.append now key v)

/-- Removes an entry, unless its key was written again. -/
def drop (c : Cache α) (x : Expiry) : Cache α :=
  if (c.entries.get? x.key).any (·.stamp == x.stamp) then c.remove x.key else c

/-- Does the removals that are due. -/
def expire (c : Cache α) (now : Nat) : Cache α :=
  let due := c.expiries.filter (·.due ≤ now)
  let later := c.expiries.filter (now < ·.due)
  { due.foldl drop c with expiries := later }

end Cache

end LivePage
