import LivePage.Pattern.Escape

/-!
# Classes in brackets

A class in brackets has characters, spans, named classes and classes of its own, and operators on
the sets that these make. The operators have no precedence over each other.
-/

namespace LivePage

namespace Pattern

/-- How deep the parts of a pattern may be nested. -/
def maxDepth : Nat := 250

/-- What operators do with the sets at their sides. -/
inductive SetOperator where
  | inter
  | difference
  | exclusive
deriving DecidableEq, Repr

def SetOperator.apply : SetOperator → CharSet → CharSet → CharSet
  | inter, s, t => s.inter t
  | difference, s, t => s.difference t
  | exclusive, s, t => s.exclusive t

/-- A set and how deep its parts are nested. -/
structure NestedSet where
  set : CharSet
  depth : Nat

/-- A class that has been opened: whether it is negated, the operator that waits for its right
side, and the items since then, last first. -/
structure Bracket where
  negated : Bool
  pending : Option (NestedSet × SetOperator) := none
  items : List NestedSet := []

namespace Bracket

def add (b : Bracket) (s : NestedSet) : Bracket := { b with items := s :: b.items }

def addSet (b : Bracket) (s : CharSet) : Bracket := b.add ⟨s, 0⟩

/-- The items as one set; a single one is no deeper for that. -/
def itemSet (b : Bracket) : NestedSet :=
  let deepest := b.items.foldl (fun n s => max n s.depth) 0
  ⟨.unions (b.items.map (·.set)), if b.items.length < 2 then deepest else deepest + 1⟩

/-- The set that a class is so far. The sides of an operator are taken without regard to case, if
the flags say so. -/
def left (f : Flags) (b : Bracket) : NestedSet :=
  match b.pending with
  | none => b.itemSet
  | some (l, op) =>
    let r := b.itemSet
    let fold (s : CharSet) : CharSet :=
      if !f.ignoreCase then s else if f.unicode then s.folded else s.foldedAscii
    ⟨op.apply (fold l.set) (fold r.set), max l.depth r.depth + 1⟩

end Bracket

/-- Classes of ASCII characters by their names. -/
def asciiClass? : String → Option CharSet
  | "alnum" => some ⟨[(0x30, 0x39), (0x41, 0x5a), (0x61, 0x7a)]⟩
  | "alpha" => some ⟨[(0x41, 0x5a), (0x61, 0x7a)]⟩
  | "ascii" => some ⟨[(0, 0x7f)]⟩
  | "blank" => some ⟨[(0x9, 0x9), (0x20, 0x20)]⟩
  | "cntrl" => some ⟨[(0, 0x1f), (0x7f, 0x7f)]⟩
  | "digit" => some asciiDigit
  | "graph" => some ⟨[(0x21, 0x7e)]⟩
  | "lower" => some ⟨[(0x61, 0x7a)]⟩
  | "print" => some ⟨[(0x20, 0x7e)]⟩
  | "punct" => some ⟨[(0x21, 0x2f), (0x3a, 0x40), (0x5b, 0x60), (0x7b, 0x7e)]⟩
  | "space" => some asciiSpace
  | "upper" => some ⟨[(0x41, 0x5a)]⟩
  | "word" => some asciiWord
  | "xdigit" => some ⟨[(0x30, 0x39), (0x41, 0x46), (0x61, 0x66)]⟩
  | _ => none

/-- A named class between `[:` and `:]`, behind its first bracket: its set, whether it is negated,
and the rest. Anything else is a class in brackets that has those characters. -/
def readAsciiClass? : List Char → Option (CharSet × Bool × List Char)
  | ':' :: r =>
    let (negated, r) := match r with
      | '^' :: r => (true, r)
      | r => (false, r)
    let name := r.takeWhile (· != ':')
    match r.drop name.length with
    | ':' :: ']' :: rest => (asciiClass? (String.ofList name)).map (·, negated, rest)
    | _ => none
  | _ => none

/-- The next character that is not blank, behind the present one; in front of it there may be a
sign of comments. -/
def peek (f : Flags) (r : List Char) : Option Char :=
  if f.verbose then
    match r.dropWhile Text.isBlank with
    | '#' :: r => (r.dropWhile Text.isBlank).head?
    | r => r.head?
  else r.head?

/-- A character or an escape inside of a class. -/
def readItem? (f : Flags) : List Char → Option (Escape × List Char)
  | [] => none
  | '\\' :: r => readEscape? f r
  | c :: r => some (.char c false, r)

/-- Characters of a class without Unicode are ASCII. -/
def spanSet? (f : Flags) (first last : Char) : Option CharSet :=
  if last < first then none
  else if !f.unicode && 0x80 ≤ last.toNat then none
  else some (.span first last)

/-- Reads an item of a class, and the end of a span that it starts. A hyphen in front of a closing
bracket or of another hyphen does not make a span. -/
def readSpan? (f : Flags) (cs : List Char) : Option (CharSet × List Char) :=
  (readItem? f cs).bind fun (item, r) =>
    let alone : Option (CharSet × List Char) :=
      match item with
      | .char c _ => (spanSet? f c c).map (·, r)
      | .set s => some (s, r)
      | .look _ => none
    match skip f r with
    | [] => none
    | '-' :: r' =>
      if peek f r' = some ']' ∨ peek f r' = some '-' then alone
      else
        match item, readItem? f (skip f r') with
        | .char first _, some (.char last _, rest) => (spanSet? f first last).map (·, rest)
        | _, _ => none
    | _ => alone

/-- Hyphens in front of a class stand for themselves. -/
def readHyphens (f : Flags) (b : Bracket) (cs : List Char) : Bracket × List Char :=
  match cs with
  | '-' :: r => readHyphens f (b.addSet (.singleton '-')) (skip f r)
  | cs => (b, cs)
termination_by cs.length
decreasing_by simpa using Nat.lt_succ_of_le (length_skip_le f r)

/-- Opens a class behind its bracket. A closing bracket in front stands for itself. -/
def openBracket (f : Flags) (cs : List Char) : Bracket × List Char :=
  let (negated, r) := match skip f cs with
    | '^' :: r => (true, skip f r)
    | r => (false, r)
  match readHyphens f { negated } r with
  | (b, ']' :: r) =>
    if b.items.isEmpty then (b.addSet (.singleton ']'), skip f r) else (b, ']' :: r)
  | opened => opened

/-- Reads the items of a class up to the bracket that closes the outermost one; `outer` are the
classes around the present one. -/
def readBrackets? (f : Flags) :
    (fuel : Nat) → Bracket → (outer : List Bracket) → List Char → Option (NestedSet × List Char)
  | 0, _, _, _ => none
  | fuel + 1, b, outer, cs =>
    let operator (op : SetOperator) (r : List Char) : Option (NestedSet × List Char) :=
      readBrackets? f fuel { b with pending := some (b.left f, op), items := [] } outer r
    if maxDepth < outer.length + (b.pending.elim 0 (·.1.depth)) then none
    else match skip f cs with
    | [] => none
    | ']' :: r =>
      let inner := b.left f
      (foldAndNegate? f b.negated inner.set).bind fun s =>
        let closed : NestedSet := ⟨s, inner.depth + 1⟩
        match outer with
        | [] => some (closed, r)
        | b :: outer => readBrackets? f fuel (b.add closed) outer r
    | '[' :: r =>
      match readAsciiClass? r with
      | some (s, negated, r) =>
        (foldAndNegate? f negated s).bind fun s => readBrackets? f fuel (b.addSet s) outer r
      | none =>
        let (inner, r) := openBracket f r
        readBrackets? f fuel inner (b :: outer) r
    | '&' :: '&' :: r => operator .inter r
    | '-' :: '-' :: r => operator .difference r
    | '~' :: '~' :: r => operator .exclusive r
    | cs => (readSpan? f cs).bind fun (s, r) => readBrackets? f fuel (b.addSet s) outer r

/-- Reads a class behind its bracket. -/
def readBracket? (f : Flags) (cs : List Char) : Option (NestedSet × List Char) :=
  let (b, r) := openBracket f cs
  readBrackets? f (r.length + 1) b [] r

end Pattern

end LivePage
