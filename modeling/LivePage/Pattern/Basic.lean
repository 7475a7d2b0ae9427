import LivePage.Text.Blank
import LivePage.Text.Property

/-!
# Patterns

A pattern is a regular expression with assertions on the place between two characters. Patterns
are kept in a simple form: sequences and choices are not nested directly, texts that follow each
other are one text, and a choice between single characters is a set.
-/

namespace LivePage

/-- What words have to do with a place. -/
inductive WordPlace where
  | boundary
  | noBoundary
  | start
  | stop
  /-- No word goes on from before the place. -/
  | startHalf
  /-- No word goes on behind the place. -/
  | stopHalf
deriving DecidableEq, Repr

/-- What must hold between the characters before and after a place. -/
inductive Assertion where
  | textStart
  | textEnd
  | lineStart
  | lineEnd
  /-- Lines end by a carriage return, a line feed or both, but not between the two. -/
  | anyLineStart
  | anyLineEnd
  | word (place : WordPlace) (ascii : Bool)
deriving DecidableEq, Repr

namespace Assertion

def isAsciiWord (c : Char) : Bool := c.isAlphanum || c == '_'

def isWord (c : Char) : Bool :=
  if c.toNat < 0x80 then isAsciiWord c else Text.wordChars.contains c

/-- Whether an assertion holds between two characters; none is beyond the text. -/
def holds (before after : Option Char) : Assertion → Bool
  | textStart => before.isNone
  | textEnd => after.isNone
  | lineStart => before.isNone || before == some '\n'
  | lineEnd => after.isNone || after == some '\n'
  | anyLineStart =>
    before.isNone || before == some '\n' || (before == some '\r' && after != some '\n')
  | anyLineEnd => after.isNone || after == some '\r' || (after == some '\n' && before != some '\r')
  | word place ascii =>
    let isWord := if ascii then isAsciiWord else isWord
    let (left, right) := (before.any isWord, after.any isWord)
    match place with
    | .boundary => left != right
    | .noBoundary => left == right
    | .start => !left && right
    | .stop => left && !right
    | .startHalf => !left
    | .stopHalf => !right

end Assertion

inductive Pattern where
  | empty
  | text (cs : List Char)
  /-- A set without members never matches. -/
  | set (s : CharSet)
  | look (a : Assertion)
  /-- At least and at most so many times; `lazy` ones prefer fewer. -/
  | times (p : Pattern) (least : Nat) (most : Option Nat) (isLazy : Bool)
  /-- A group that remembers what it matched, under an index. -/
  | group (index : Nat) (p : Pattern)
  | seq (ps : List Pattern)
  | alt (ps : List Pattern)
deriving Repr, Inhabited

namespace Pattern

/-- The number of bytes of a text. -/
def byteCount (cs : List Char) : Nat := cs.foldl (fun n c => n + c.utf8Size) 0

mutual

def same : Pattern → Pattern → Bool
  | empty, empty => true
  | text cs, text ds => cs == ds
  | set s, set t => s == t
  | look a, look b => a == b
  | times p l m z, times q l' m' z' => l == l' && m == m' && z == z' && same p q
  | group i p, group j q => i == j && same p q
  | seq ps, seq qs => sameAll ps qs
  | alt ps, alt qs => sameAll ps qs
  | _, _ => false

def sameAll : List Pattern → List Pattern → Bool
  | [], [] => true
  | p :: ps, q :: qs => if same p q then sameAll ps qs else false
  | _, _ => false

end

/-! ## Lengths and ends -/

mutual

/-- The bytes of the longest text that a pattern matches; none without a bound, and for what
never matches. -/
def longest : Pattern → Option Nat
  | empty => some 0
  | text cs => some (byteCount cs)
  | set s => s.spans.getLast?.map fun (_, b) => (Char.ofNat b).utf8Size
  | look _ => some 0
  | times p _ most _ => most.bind fun n => p.longest.map (n * ·)
  | group _ p => p.longest
  | seq ps => longestSum 0 ps
  | alt ps => longestMax 0 ps

def longestSum (n : Nat) : List Pattern → Option Nat
  | [] => some n
  | p :: ps =>
    match p.longest with
    | some m => longestSum (n + m) ps
    | none => none

def longestMax (n : Nat) : List Pattern → Option Nat
  | [] => some n
  | p :: ps =>
    match p.longest with
    | some m => longestMax (max n m) ps
    | none => none

end

mutual

/-- The bytes of the shortest text that a pattern matches; none where a part never matches. -/
def shortest : Pattern → Option Nat
  | empty => some 0
  | text cs => some (byteCount cs)
  | set s => s.spans.head?.map fun (a, _) => (Char.ofNat a).utf8Size
  | look _ => some 0
  | times p least _ _ => p.shortest.map (least * ·)
  | group _ p => p.shortest
  | seq ps => shortestSum 0 ps
  | alt ps => shortestMin none ps

def shortestSum (n : Nat) : List Pattern → Option Nat
  | [] => some n
  | p :: ps =>
    match p.shortest with
    | some m => shortestSum (n + m) ps
    | none => none

def shortestMin (best : Option Nat) : List Pattern → Option Nat
  | [] => best
  | p :: ps =>
    match p.shortest with
    | some m => shortestMin (some ((best.map (min m)).getD m)) ps
    | none => none

end

/-- Whether a pattern matches no more than the empty text. -/
def isPoint (p : Pattern) : Bool := p.longest == some 0

mutual

/-- Whether every match has an assertion in front of its first character. -/
def startsWith (a : Assertion) : Pattern → Bool
  | look b => a == b
  | times p least _ _ => 0 < least && p.startsWith a
  | group _ p => p.startsWith a
  | seq ps => startsWithAny a ps
  | alt ps => startsWithAll a ps
  | _ => false

def startsWithAny (a : Assertion) : List Pattern → Bool
  | [] => false
  | p :: ps => if p.startsWith a then true else if p.isPoint then startsWithAny a ps else false

def startsWithAll (a : Assertion) : List Pattern → Bool
  | [] => true
  | p :: ps => if p.startsWith a then startsWithAll a ps else false

end

mutual

/-- Whether every match has an assertion behind its last character. -/
def endsWith (a : Assertion) : Pattern → Bool
  | look b => a == b
  | times p least _ _ => 0 < least && p.endsWith a
  | group _ p => p.endsWith a
  | seq ps => endsWithLast a false ps
  | alt ps => endsWithAll a ps
  | _ => false

/-- `found` tells that a part has the assertion behind it, and that none after it has text. -/
def endsWithLast (a : Assertion) (found : Bool) : List Pattern → Bool
  | [] => found
  | p :: ps => endsWithLast a (p.endsWith a || (found && p.isPoint)) ps

def endsWithAll (a : Assertion) : List Pattern → Bool
  | [] => true
  | p :: ps => if p.endsWith a then endsWithAll a ps else false

end

/-! ## Building patterns in simple form -/

/-- A single character of a set, or one character that is a text. -/
def ofSet (s : CharSet) : Pattern :=
  match s.only? with
  | some c => text [c]
  | none => set s

/-- Adds a part behind others, which come last first after the text that ends them. -/
def addPart : List Char × List Pattern → Pattern → List Char × List Pattern
  | (pending, done), empty => (pending, done)
  | (pending, done), text cs => (cs.reverseAux pending, done)
  | ([], done), p => ([], p :: done)
  | (pending, done), p => ([], p :: text pending.reverse :: done)

/-- Parts one after the other. -/
def ofParts (parts : List Pattern) : Pattern :=
  let flat := parts.flatMap fun p => match p with
    | seq ps => ps
    | p => [p]
  let done := match flat.foldl addPart ([], []) with
    | ([], done) => done
    | (pending, done) => text pending.reverse :: done
  match done with
  | [] => empty
  | [p] => p
  | ps => seq ps.reverse

/-- The set that a pattern of one character is. -/
def set? : Pattern → Option CharSet
  | set s => some s
  | text [c] => some (.singleton c)
  | _ => none

/-- Choices that are no longer looked into for a common front. -/
def ofBranches (branches : List Pattern) : Pattern :=
  let flat := branches.flatMap fun p => match p with
    | alt ps => ps
    | p => [p]
  match flat with
  | [p] => p
  | flat =>
    match flat.mapM set? with
    | some sets => ofSet (.unions sets)
    | none => alt flat

def parts? : Pattern → Option (List Pattern)
  | seq ps => some ps
  | _ => none

/-- How many parts two sequences have in common at their fronts. -/
def commonFront : Nat → List Pattern → List Pattern → Nat
  | n, p :: ps, q :: qs => if same p q then commonFront (n + 1) ps qs else n
  | n, _, _ => n

/-- A choice; what its branches all start with comes in front of it. The rest of the branches has
no common front. -/
def ofChoices (choices : List Pattern) : Pattern :=
  match ofBranches choices with
  | alt flat =>
    match flat.mapM parts? with
    | some (first :: others) =>
      let n := others.foldl (fun n ps => min n (commonFront 0 first ps)) first.length
      if n = 0 then alt flat
      else ofParts (first.take n ++
        [ofBranches ((first :: others).map fun ps => ofParts (ps.drop n))])
    | _ => alt flat
  | p => p

/-- A repetition; of a pattern without text, once is as good as more often. -/
def repeated (p : Pattern) (least : Nat) (most : Option Nat) (isLazy : Bool) : Pattern :=
  let (least, most) :=
    if p.isPoint then (min least 1, some (min (most.getD 1) 1)) else (least, most)
  if least = 0 ∧ most = some 0 then empty
  else if least = 1 ∧ most = some 1 then p
  else times p least most isLazy

end Pattern

end LivePage
