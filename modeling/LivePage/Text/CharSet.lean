import LivePage.Text.Span
import LivePage.Text.Table.Case

/-!
# Sets of characters

A set of characters is a list of spans in ascending order, no two of which touch each other. A
span may run over the code points of surrogates; only characters are members.
-/

namespace LivePage

open Text (Span)

structure CharSet where
  spans : List Span
deriving DecidableEq, Repr, Inhabited

namespace CharSet

/-- The last code point. -/
def lastPoint : Nat := 0x10ffff

/-- The character after one; surrogates are passed over. -/
def after (n : Nat) : Nat := if n = 0xd7ff then 0xe000 else n + 1

/-- The character before one. -/
def before (n : Nat) : Nat := if n = 0xe000 then 0xd7ff else n - 1

def empty : CharSet := ⟨[]⟩

def all : CharSet := ⟨[(0, lastPoint)]⟩

/-- Adds a span that starts no earlier than those so far, which are in descending order. -/
def addSpan : List Span → Span → List Span
  | (a, b) :: r, (c, d) => if c ≤ b + 1 then (a, max b d) :: r else (c, d) :: (a, b) :: r
  | [], s => [s]

/-- The characters of spans in any order. -/
def ofSpans (spans : List Span) : CharSet :=
  ⟨((spans.mergeSort fun s t => s.1 ≤ t.1).foldl addSpan []).reverse⟩

def ofPoints (points : List Nat) : CharSet := ofSpans (points.map fun n => (n, n))

def span (first last : Char) : CharSet := ⟨[(first.toNat, last.toNat)]⟩

def singleton (c : Char) : CharSet := span c c

/-- The characters of a table. -/
def ofTable (table : String) : CharSet :=
  ofSpans ((Text.tableWords table).flatMap Text.wordSpans)

def holdsIn (n : Nat) : List Span → Bool
  | [] => false
  | (a, b) :: r => a ≤ n && (n ≤ b || holdsIn n r)

def contains (s : CharSet) (c : Char) : Bool := holdsIn c.toNat s.spans

def union (s t : CharSet) : CharSet := ofSpans (s.spans ++ t.spans)

def unions (sets : List CharSet) : CharSet := ofSpans (sets.flatMap (·.spans))

def inter (s t : CharSet) : CharSet :=
  ⟨s.spans.flatMap fun (a, b) => t.spans.filterMap fun (c, d) =>
    if max a c ≤ min b d then some (max a c, min b d) else none⟩

def gapsAfter (last : Nat) : List Span → List Span
  | [] => if last < lastPoint then [(after last, lastPoint)] else []
  | (a, b) :: r => (after last, before a) :: gapsAfter b r

/-- What is between spans. A gap that has only surrogates in it ends before it starts. -/
def gaps : List Span → List Span
  | [] => [(0, lastPoint)]
  | (a, b) :: r => (if 0 < a then [(0, before a)] else []) ++ gapsAfter b r

/-- The characters outside of a set. A gap with no character in it counts as its two ends. -/
def negate (s : CharSet) : CharSet := ⟨(gaps s.spans).map fun (a, b) => (min a b, max a b)⟩

/-- The characters of one set that are not in another. -/
def difference (s t : CharSet) : CharSet :=
  s.inter ⟨(gaps t.spans).filter fun (a, b) => a ≤ b⟩

/-- The characters of exactly one of two sets. -/
def exclusive (s t : CharSet) : CharSet := (s.union t).difference (s.inter t)

def isAscii (s : CharSet) : Bool := s.spans.all fun (_, b) => b < 0x80

/-- The only member of a set. -/
def only? (s : CharSet) : Option Char :=
  match s.spans with
  | [(a, b)] => if a = b then some (Char.ofNat a) else none
  | _ => none

/-- Characters that differ by case only from others, each with the one that stands for them. -/
def foldings : List (Nat × Nat) := Text.tableTargets Text.Table.folding

/-- A set together with the characters that differ from its members by case only. -/
def folded (s : CharSet) : CharSet :=
  let pairs := foldings.filter fun (n, t) => holdsIn n s.spans || holdsIn t s.spans
  let targets := ofPoints (pairs.map (·.2))
  let more := foldings.filter fun (_, t) => holdsIn t targets.spans
  if pairs.isEmpty then s
  else unions [s, targets, ofPoints (more.map (·.1))]

/-- A set of ASCII characters together with these in the other case. -/
def foldedAscii (s : CharSet) : CharSet :=
  let small := s.inter (span 'a' 'z')
  let large := s.inter (span 'A' 'Z')
  unions [s, ⟨small.spans.map fun (a, b) => (a - 32, b - 32)⟩,
    ⟨large.spans.map fun (a, b) => (a + 32, b + 32)⟩]

end CharSet

end LivePage
