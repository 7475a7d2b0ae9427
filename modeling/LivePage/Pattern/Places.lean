import LivePage.Pattern.Basic
import Std.Data.HashMap

/-!
# Matching

A place is between two characters of a text, or at one of its ends. Matching carries sets of
places, as numbers whose bits tell the members: from the places that a match may start at to those
that it can end at.
-/

namespace LivePage

namespace Pattern

/-- A set of places. -/
abbrev Places := Nat

/-- The places of a range at which something holds. -/
def Places.gather (p : Nat → Bool) (start size : Nat) : Places :=
  if size ≤ 1 then if size = 1 ∧ p start then 1 else 0
  else
    let half := size / 2
    Places.gather p start half ||| Places.gather p (start + half) (size - half) <<< half
termination_by size

/-- What a pattern is for a text. -/
inductive Route where
  /-- Goes on over the character behind each of some places. -/
  | cross (places : Places)
  /-- Goes on at some places only. -/
  | hold (places : Places)
  | times (r : Route) (least : Nat) (most : Option Nat)
  | seq (rs : List Route)
  | alt (rs : List Route)
deriving Inhabited

/-- A text, and the places in front of characters that patterns ask for, by their codes. -/
structure TextIndex where
  text : Array Char
  known : Std.HashMap Nat Places := {}

namespace TextIndex

/-- The places in front of characters with a property. -/
def before (g : TextIndex) (p : Char → Bool) : Places :=
  Places.gather (fun i => (g.text[i]?).any p) 0 g.text.size

def beforeChar (g : TextIndex) (c : Char) : Places :=
  (g.known.get? c.toNat).getD (g.before (· == c))

def learn (g : TextIndex) (c : Char) : TextIndex :=
  if g.known.contains c.toNat then g
  else { g with known := g.known.insert c.toNat (g.before (· == c)) }

def places (g : TextIndex) : Nat := g.text.size + 1

/-- The places at which an assertion holds. -/
def holding (g : TextIndex) (a : Assertion) : Places :=
  Places.gather (fun i => a.holds (if i = 0 then none else g.text[i - 1]?) g.text[i]?) 0 g.places

end TextIndex

mutual

/-- Learns the characters of a pattern's texts. -/
def prepare (g : TextIndex) : Pattern → TextIndex
  | text cs => cs.foldl TextIndex.learn g
  | times p _ _ _ => p.prepare g
  | group _ p => p.prepare g
  | seq ps => prepareAll g ps
  | alt ps => prepareAll g ps
  | _ => g

def prepareAll (g : TextIndex) : List Pattern → TextIndex
  | [] => g
  | p :: ps => prepareAll (p.prepare g) ps

end

mutual

def route (g : TextIndex) : Pattern → Route
  | empty => .seq []
  | text cs => .seq (cs.map fun c => .cross (g.beforeChar c))
  | set s => .cross (g.before s.contains)
  | look a => .hold (g.holding a)
  | times p least most _ => .times (p.route g) least most
  | group _ p => p.route g
  | seq ps => .seq (routeAll g [] ps)
  | alt ps => .alt (routeAll g [] ps)

def routeAll (g : TextIndex) (done : List Route) : List Pattern → List Route
  | [] => done.reverse
  | p :: ps => routeAll g (p.route g :: done) ps

end

namespace Route

/-- Applies a step a number of times, until that makes no difference. -/
def iterate (step : Places → Places) : Nat → Places → Places
  | 0, places => places
  | n + 1, places =>
    let next := step places
    if next = places then places else iterate step n next

/-- The places that a step reaches in at most so many applications, where `latest` are those that
were reached last. -/
def reach (step : Places → Places) : Nat → (latest places : Places) → Places
  | 0, _, places => places
  | n + 1, latest, places =>
    let all := places ||| step latest
    if all = places then places else reach step n (all ^^^ places) all

mutual

/-- The places that a match from given places can end at. Every place that can be reached at all
is reached in as many repetitions as the text has places. -/
def ends (count : Nat) : Route → Places → Places
  | cross front, places => (places &&& front) <<< 1
  | hold held, places => places &&& held
  | times r least most, places =>
    let start := iterate (r.ends count) (min least count) places
    reach (r.ends count) (min ((most.map (· - least)).getD count) count) start start
  | seq rs, places => endsAll count rs places
  | alt rs, places => endsAny count 0 rs places

def endsAll (count : Nat) : List Route → Places → Places
  | [], places => places
  | r :: rs, places => if places = 0 then 0 else endsAll count rs (r.ends count places)

def endsAny (count : Nat) (reached : Places) : List Route → Places → Places
  | [], _ => reached
  | r :: rs, places => endsAny count (reached ||| r.ends count places) rs places

end

end Route

/-- Whether a pattern matches anywhere in a text. -/
def occursIn (p : Pattern) (text : String) : Bool :=
  let g := p.prepare { text := text.toList.toArray }
  (p.route g).ends g.places (Nat.pow 2 g.places - 1) != 0

end Pattern

end LivePage
