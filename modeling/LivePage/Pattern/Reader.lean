import LivePage.Pattern.Bracket
import LivePage.Text.Letter

/-!
# Reading patterns

The text of a pattern has the usual operators, groups with names and flags, classes in brackets
and escapes. There is no look-around. A text that is no pattern is none; nothing depends on why.
-/

namespace LivePage

namespace Pattern

/-! ## Flags and names -/

/-- Sets or clears a flag. -/
def setFlag? (f : Flags) (on : Bool) : Char → Option Flags
  | 'i' => some { f with ignoreCase := on }
  | 'm' => some { f with multiLine := on }
  | 's' => some { f with dotAll := on }
  | 'U' => some { f with swapGreed := on }
  | 'u' => some { f with unicode := on }
  | 'R' => some { f with anyLineEnd := on }
  | 'x' => some { f with verbose := on }
  | _ => none

/-- What flags come before: a group, or the rest of the group that they stand in. -/
inductive FlagScope where
  | group
  | rest
deriving DecidableEq

/-- Reads flags up to a colon or a closing parenthesis. Each occurs once at most, and so does the
hyphen in front of those that are cleared; it is not the last. -/
def readFlags? (f : Flags) (on : Bool) (seen : List Char) :
    List Char → Option (Flags × FlagScope × List Char)
  | [] => none
  | c :: r =>
    if c = ':' ∨ c = ')' then
      if seen.head? = some '-' ∨ (c = ')' ∧ seen = []) then none
      else some (f, if c = ':' then .group else .rest, r)
    else if seen.contains c then none
    else if c = '-' then readFlags? f false (c :: seen) r
    else (setFlag? f on c).bind fun f => readFlags? f on (c :: seen) r

def isNamePart (c : Char) : Bool :=
  c == '_' || c == '.' || c == '[' || c == ']' || Text.isAlphanumeric c

/-- The name of a group, behind its opening angle bracket; no two groups share a name. -/
def readGroupName? (names : List String) (cs : List Char) : Option (String × List Char) :=
  let name := cs.takeWhile (· != '>')
  match name, cs.drop name.length with
  | c :: more, '>' :: rest =>
    let s := String.ofList name
    if (c == '_' || Text.isAlphabetic c) && more.all isNamePart && !names.contains s then
      some (s, rest)
    else none
  | _, _ => none

/-! ## Counts -/

/-- Decimal digits behind a number; what is too large stays so. -/
def readDigits (f : Flags) (n : Option Nat) (cs : List Char) : Option Nat × List Char :=
  match cs with
  | c :: r =>
    if c.isDigit then
      readDigits f (some (min (10 * n.getD 0 + (c.toNat - '0'.toNat)) (Nat.pow 2 32))) (skip f r)
    else (n, c :: r)
  | [] => (n, [])
termination_by cs.length
decreasing_by simpa using Nat.lt_succ_of_le (length_skip_le f r)

/-- A decimal of 32 bits between blanks. -/
def readDecimal? (f : Flags) (cs : List Char) : Option (Nat × List Char) :=
  match readDigits f none (cs.dropWhile Text.isBlank) with
  | (some n, r) => if n < Nat.pow 2 32 then some (n, r.dropWhile Text.isBlank) else none
  | (none, _) => none

/-- The least and the greatest count of a repetition, behind its opening brace. -/
def readCount? (f : Flags) (cs : List Char) : Option (Nat × Option Nat × List Char) :=
  (readDecimal? f (skip f cs)).bind fun (least, r) =>
    match r with
    | '}' :: r => some (least, some least, r)
    | ',' :: r =>
      match skip f r with
      | '}' :: r => some (least, none, r)
      | r =>
        (readDecimal? f r).bind fun (most, r) =>
          match r with
          | '}' :: r => if most < least then none else some (least, some most, r)
          | _ => none
    | _ => none

/-! ## Groups -/

/-- What has been read of a sequence. -/
inductive Part where
  /-- Flags that hold from there on. -/
  | flags
  /-- A pattern, and how deep its parts are nested. -/
  | pattern (p : Pattern) (depth : Nat)

namespace Part

def pattern? : Part → Option Pattern
  | flags => none
  | pattern p _ => some p

def depth : Part → Nat
  | flags => 0
  | pattern _ n => n

end Part

def deepest (parts : List Part) : Nat := parts.foldl (fun n p => max n p.depth) 0

/-- A group that has been opened: the flags to return to, the index under which it is remembered,
the branches that are done, and the parts of the present one, both last first. -/
structure Level where
  before : Flags := {}
  index : Option Nat := none
  branches : List Part := []
  parts : List Part := []
deriving Inhabited

namespace Level

def add (l : Level) (p : Part) : Level := { l with parts := p :: l.parts }

/-- The present branch. A single part is no deeper for being one. -/
def branch (l : Level) : Part :=
  match l.parts with
  | [] => .pattern .empty 0
  | [.flags] => .pattern .empty 0
  | [p] => p
  | parts => .pattern (ofParts (parts.reverse.filterMap Part.pattern?)) (deepest parts + 1)

/-- Ends the present branch. -/
def next (l : Level) : Level := { l with branches := l.branch :: l.branches, parts := [] }

/-- All branches, as a choice if there are several. -/
def choice (l : Level) : Pattern × Nat :=
  match l.branches, l.branch with
  | [], p => (p.pattern?.getD .empty, p.depth)
  | branches, p =>
    let all := p :: branches
    (ofChoices (all.reverse.filterMap Part.pattern?), deepest all + 1)

/-- The group itself. -/
def close (l : Level) : Part :=
  let (p, depth) := l.choice
  .pattern (match l.index with
    | some i => group i p
    | none => p) (depth + 1)

end Level

/-- Where a reader stands: the flags in force, the number of groups that are remembered and their
names, the innermost open group and those around it. -/
structure Reading where
  flags : Flags := {}
  groups : Nat := 0
  names : List String := []
  level : Level := {}
  outer : List Level := []
deriving Inhabited

namespace Reading

/-- Adds a part, unless it is nested too deep. -/
def add? (s : Reading) (p : Part) : Option Reading :=
  if maxDepth < p.depth then none else some { s with level := s.level.add p }

def addPattern? (s : Reading) (p : Pattern) (r : List Char) : Option (Reading × List Char) :=
  (s.add? (.pattern p 0)).map (·, r)

/-- A character stands for itself, or for all that differ from it by case only. Without Unicode a
number stands for a byte, and those beyond ASCII are no characters. -/
def character? (f : Flags) (c : Char) (numbered : Bool) : Option Pattern :=
  if f.unicode then
    some (if f.ignoreCase then ofSet (CharSet.singleton c).folded else text [c])
  else if numbered && 0x80 ≤ c.toNat then none
  else
    some (if f.ignoreCase then ofSet (CharSet.singleton c).foldedAscii else text [c])

/-- Any character, as a rule but for the end of a line. -/
def dot? (f : Flags) : Option CharSet :=
  if !f.unicode then none
  else if f.dotAll then some .all
  else if f.anyLineEnd then some (CharSet.ofPoints [0xa, 0xd]).negate
  else some (CharSet.singleton '\n').negate

def lineStart (f : Flags) : Assertion :=
  if !f.multiLine then .textStart else if f.anyLineEnd then .anyLineStart else .lineStart

def lineEnd (f : Flags) : Assertion :=
  if !f.multiLine then .textEnd else if f.anyLineEnd then .anyLineEnd else .lineEnd

/-- Repeats the last part; a question mark changes whether it is lazy. Flags cannot be
repeated. -/
def repeat? (s : Reading) (least : Nat) (most : Option Nat) (r : List Char) :
    Option (Reading × List Char) :=
  let (marked, r) := match r with
    | '?' :: r => (true, r)
    | r => (false, r)
  match s.level.parts with
  | .pattern p depth :: parts =>
    let again := repeated p least most (marked != s.flags.swapGreed)
    ({ s with level := { s.level with parts } }.add? (.pattern again (depth + 1))).map (·, r)
  | _ => none

/-- Opens a group with some flags. -/
def opened? (s : Reading) (flags : Flags) (index : Option Nat) (r : List Char) :
    Option (Reading × List Char) :=
  if maxDepth ≤ s.outer.length then none
  else
    some ({ s with flags, level := { before := s.flags, index }, outer := s.level :: s.outer }, r)

/-- Opens a group that is remembered. -/
def remembered? (s : Reading) (r : List Char) : Option (Reading × List Char) :=
  { s with groups := s.groups + 1 }.opened? s.flags (some (s.groups + 1)) r

/-- Reads what follows an opening parenthesis. -/
def open? (s : Reading) (cs : List Char) : Option (Reading × List Char) :=
  match skip s.flags cs with
  | '?' :: '=' :: _ | '?' :: '!' :: _ => none
  | '?' :: '<' :: '=' :: _ | '?' :: '<' :: '!' :: _ => none
  | '?' :: 'P' :: '<' :: r | '?' :: '<' :: r =>
    (readGroupName? s.names r).bind fun (name, r) =>
      { s with names := name :: s.names }.remembered? r
  | '?' :: r =>
    (readFlags? s.flags true [] r).bind fun (flags, scope, r) =>
      match scope with
      | .group => s.opened? flags none r
      | .rest => ({ s with flags }.add? .flags).map (·, r)
  | r => s.remembered? r

/-- Ends the innermost group; flags that were set in it end as well. -/
def close? (s : Reading) : Option Reading :=
  match s.outer with
  | [] => none
  | level :: outer => { s with flags := s.level.before, level, outer }.add? s.level.close

/-- Reads the next part or operator. -/
def step? (s : Reading) : List Char → Option (Reading × List Char)
  | [] => none
  | c :: r =>
    match c with
    | '(' => s.open? r
    | ')' => s.close?.map (·, r)
    | '|' =>
      if maxDepth < s.level.branch.depth then none else some ({ s with level := s.level.next }, r)
    | '[' =>
      (readBracket? s.flags r).bind fun (inner, r) =>
        (s.add? (.pattern (ofSet inner.set) inner.depth)).map (·, r)
    | '*' => s.repeat? 0 none r
    | '+' => s.repeat? 1 none r
    | '?' => s.repeat? 0 (some 1) r
    | '{' =>
      (readCount? s.flags r).bind fun (least, most, r) =>
        s.repeat? least most (skip s.flags r)
    | '.' => (dot? s.flags).bind fun chars => s.addPattern? (set chars) r
    | '^' => s.addPattern? (look (lineStart s.flags)) r
    | '$' => s.addPattern? (look (lineEnd s.flags)) r
    | '\\' =>
      (readEscape? s.flags r).bind fun (e, r) =>
        match e with
        | .char c numbered => (character? s.flags c numbered).bind fun p => s.addPattern? p r
        | .set chars => s.addPattern? (ofSet chars) r
        | .look a => s.addPattern? (look a) r
    | c => (character? s.flags c false).bind fun p => s.addPattern? p r

/-- Reads to the end, where no group is open any more. -/
def run? : (fuel : Nat) → Reading → List Char → Option Pattern
  | 0, _, _ => none
  | fuel + 1, s, cs =>
    match skip s.flags cs with
    | [] =>
      let (p, depth) := s.level.choice
      if s.outer.isEmpty && depth ≤ maxDepth then some p else none
    | cs => (s.step? cs).bind fun (s, r) => run? fuel s r

end Reading

/-- The pattern that a text spells. -/
def read? (cs : List Char) : Option Pattern := Reading.run? (cs.length + 1) {} cs

end Pattern

end LivePage
