import LivePage.Pattern.Basic
import LivePage.Pattern.Sharing

/-!
# Weights of patterns

A pattern is matched by two automata, one that reads forwards and one that reads backwards. A
pattern for which either would be too large is refused.
-/

namespace LivePage

namespace Pattern

inductive Direction where
  | forward
  | backward
deriving DecidableEq

/-- The automaton of a part. Where the part ends by a choice, a way on from it is a link more. -/
structure Built where
  size : Size
  choice : Bool

/-- The size with a way on from the end of a part. -/
def Built.join? (b : Built) : Option Size :=
  b.size.add? 0 (if b.choice then Size.linkBytes else 0)

/-- The size with a state behind a part. -/
def Built.finish? (b : Built) (states bytes : Nat) (choice : Bool) : Option Built :=
  b.join?.bind fun s => (s.add? states bytes).map (⟨·, choice⟩)

/-- A number of states in a row. -/
def row? (s : Size) (states : Nat) : Option Built := (s.add? states 0).map (⟨·, false⟩)

/-- More of what a step builds. -/
def copiesAfter? (step : Size → Option Built) : Nat → Built → Option Built
  | 0, b => some b
  | n + 1, b =>
    match b.join?.bind step with
    | some b => copiesAfter? step n b
    | none => none

/-- A number of copies of what a step builds; none of them is a state that does nothing. -/
def copies? (step : Size → Option Built) : Nat → Size → Option Built
  | 0, s => row? s 1
  | n + 1, s => (step s).bind (copiesAfter? step n)

/-- Copies each of which may be left out, with all that follow. -/
def optionalCopies? (step : Size → Option Built) : Nat → Built → Option Built
  | 0, b => some b
  | n + 1, b =>
    match (b.join?.bind (·.add? 1 (2 * Size.linkBytes))).bind step with
    | some b => optionalCopies? step n b
    | none => none

/-- A repetition of what a step builds, which may match the empty text or not. -/
def buildTimes? (step : Size → Option Built) (hasText : Bool) (least : Nat) (most : Option Nat)
    (s : Size) : Option Built :=
  let links := 2 * Size.linkBytes
  match least, most with
  | 0, some 1 => ((s.add? 1 links).bind step).bind (·.finish? 1 0 false)
  | 0, none =>
    if hasText then
      (((s.add? 1 Size.linkBytes).bind step).bind Built.join?).map (⟨·, true⟩)
    else (step s).bind (·.finish? 3 (2 * links) false)
  | least, none => (copies? step least s).bind (·.finish? 1 Size.linkBytes true)
  | least, some most =>
    (copies? step least s).bind fun b =>
      if least = most then some b
      else
        ((b.size.add? 1 0).bind fun size =>
          optionalCopies? step (most - least) { b with size }).bind (·.finish? 0 0 false)

/-- A set; one of ASCII characters is a single list of ranges. -/
def buildSet? (d : Direction) (c : CharSet) (s : Size) : Option Built :=
  let size :=
    if c.isAscii then s.add? 2 (Size.rangeBytes * c.spans.length)
    else
      let runs := c.spans.flatMap Text.Span.runs
      match d with
      | .forward => addForward? s runs
      | .backward => addBackward? s runs
  size.map (⟨·, false⟩)

/-- Makes a part a branch behind so many others. The states that a choice starts and ends with
come behind its second branch. -/
def joinBranch? (count : Nat) (choice : Bool) (b : Built) : Option Built :=
  match count with
  | 0 => some b
  | 1 => (Built.join? ⟨b.size, choice⟩).bind fun size =>
    Built.finish? { b with size } 2 (2 * Size.linkBytes) b.choice
  | _ => b.finish? 0 Size.linkBytes b.choice

def text? : Pattern → Option (List Char)
  | text cs => some cs
  | _ => none

/-- The bytes of texts, in the order in which they are read. -/
def textBytes (d : Direction) (cs : List Char) : List Nat :=
  let bytes := cs.flatMap fun c => Text.encode c.toNat
  match d with
  | .forward => bytes
  | .backward => bytes.reverse

mutual

/-- A pattern with the parts of its sequences in the opposite order. -/
def reversed : Pattern → Pattern
  | times p least most isLazy => times p.reversed least most isLazy
  | group i p => group i p.reversed
  | seq ps => seq (reversedAll [] ps)
  | alt ps => alt (reversedAll [] ps).reverse
  | p => p

/-- The parts in the opposite order, each reversed, in front of some. -/
def reversedAll (done : List Pattern) : List Pattern → List Pattern
  | [] => done
  | p :: ps => reversedAll (p.reversed :: done) ps

end

mutual

/-- Adds the automaton of a pattern; forwards, groups are remembered at both of their ends. -/
def build? (d : Direction) : Pattern → Size → Option Built
  | empty, s => row? s 1
  | look _, s => row? s 1
  | text cs, s => row? s (byteCount cs)
  | set c, s => buildSet? d c s
  | times p least most _, s =>
    buildTimes? (build? d p) (p.shortest.any (0 < ·)) least most s
  | group _ p, s =>
    match d with
    | .forward => ((s.add? 1 0).bind (build? d p)).bind (·.finish? 1 0 false)
    | .backward => build? d p s
  | seq ps, s => buildSeq? d none s ps
  | alt ps, s =>
    match ps.mapM text? with
    | some texts => (addTexts? s (texts.map (textBytes d))).map (⟨·, false⟩)
    | none => buildAlt? d 0 false s ps

/-- Parts behind one that is built. -/
def buildSeq? (d : Direction) (before : Option Built) (s : Size) : List Pattern → Option Built
  | [] => before
  | p :: ps =>
    match ((before.elim (some s) Built.join?).bind (build? d p)) with
    | some b => buildSeq? d (some b) b.size ps
    | none => none

/-- Branches of a choice behind so many others, the last of which ended by a choice or not. -/
def buildAlt? (d : Direction) (count : Nat) (choice : Bool) (s : Size) :
    List Pattern → Option Built
  | [] => some ⟨s, false⟩
  | p :: ps =>
    match (build? d p s).bind (joinBranch? count choice) with
    | some b => buildAlt? d (count + 1) b.choice b.size ps
    | none => none

end

/-- The size of the whole automaton. Where a match may start anywhere, states pass over what comes
before it. -/
def automaton? (d : Direction) (p : Pattern) : Option Size :=
  let (fixed, p) := match d with
    | .forward => (p.startsWith .textStart, p)
    | .backward => (p.endsWith .textEnd, p.reversed)
  let start : Option Size :=
    if fixed then Size.add? {} 1 0
    else Size.add? {} 3 (Size.rangeBytes + 2 * Size.linkBytes)
  match d with
  | .forward => ((start.bind (build? d (group 0 p))).bind Built.join?).bind (·.add? 1 0)
  | .backward => ((start.bind (build? d p)).bind Built.join?).bind (·.add? 1 0)

/-- With so many texts to choose from, no automaton is built. -/
def manyTexts : Nat := 3000

def isManyTexts : Pattern → Bool
  | alt ps => manyTexts ≤ ps.length && ps.all fun p => (text? p).isSome
  | _ => false

/-- Whether a pattern is not too large to be matched. -/
def fits (p : Pattern) : Bool :=
  p.isManyTexts || ((automaton? .forward p).isSome && (automaton? .backward p).isSome)

end Pattern

end LivePage
