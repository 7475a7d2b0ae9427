import LivePage.Pattern.Basic
import LivePage.Text.ClassName

/-!
# Escapes in patterns

What a backslash and the characters behind it stand for, under the flags that are in force. There
are no references to groups. Where the flags make blanks and comments mean nothing they may also
stand inside of escapes.
-/

namespace LivePage

namespace Pattern

/-- How a pattern is read and what it means. -/
structure Flags where
  ignoreCase : Bool := false
  multiLine : Bool := false
  dotAll : Bool := false
  /-- Repetitions are lazy unless marked, and not the other way round. -/
  swapGreed : Bool := false
  unicode : Bool := true
  /-- Lines may end by carriage returns as well. -/
  anyLineEnd : Bool := false
  /-- Blanks and comments mean nothing. -/
  verbose : Bool := false
deriving Inhabited

def skipVerbose (inComment : Bool) : List Char → List Char
  | [] => []
  | c :: r =>
    if inComment then skipVerbose (c != '\n') r
    else if c = '#' then skipVerbose true r
    else if Text.isBlank c then skipVerbose false r
    else c :: r

/-- Leaves out blanks and comments where they mean nothing. -/
def skip (f : Flags) (cs : List Char) : List Char :=
  if f.verbose then skipVerbose false cs else cs

theorem length_skipVerbose_le (b : Bool) (cs : List Char) :
    (skipVerbose b cs).length ≤ cs.length := by
  induction cs generalizing b with
  | nil => simp [skipVerbose]
  | cons c r ih =>
    simp only [skipVerbose, List.length_cons]
    split
    · exact Nat.le_succ_of_le (ih _)
    split
    · exact Nat.le_succ_of_le (ih _)
    split
    · exact Nat.le_succ_of_le (ih _)
    · simp

theorem length_skip_le (f : Flags) (cs : List Char) : (skip f cs).length ≤ cs.length := by
  unfold skip
  split
  · exact length_skipVerbose_le _ _
  · exact Nat.le_refl _

/-- What an escape stands for. A character that is written by its number is told apart. -/
inductive Escape where
  | char (c : Char) (numbered : Bool)
  | set (s : CharSet)
  | look (a : Assertion)
deriving Inhabited

/-! ## Characters by number -/

def charOf? (n : Nat) : Option Char := if n.isValidChar then some (Char.ofNat n) else none

/-- A fixed number of hexadecimal digits behind a number. -/
def readHex? (f : Flags) : (count n : Nat) → List Char → Option (Nat × List Char)
  | 0, n, r => some (n, r)
  | count + 1, n, c :: r =>
    (Text.hexDigit? c).bind fun d => readHex? f count (16 * n + d) (skip f r)
  | _, _, [] => none

/-- Hexadecimal digits up to a closing brace; what is too large for a character stays so. -/
def readBraced? (f : Flags) (n : Option Nat) (cs : List Char) : Option (Nat × List Char) :=
  match cs with
  | [] => none
  | '}' :: r => n.map (·, skip f r)
  | c :: r =>
    match Text.hexDigit? c with
    | some d => readBraced? f (some (min (16 * n.getD 0 + d) (Nat.pow 2 32))) (skip f r)
    | none => none
termination_by cs.length
decreasing_by simpa using Nat.lt_succ_of_le (length_skip_le f r)

/-- A character by its number, of a fixed size or between braces. -/
def readNumbered? (f : Flags) (size : Nat) (cs : List Char) : Option (Char × List Char) :=
  let number := match skip f cs with
    | '{' :: r => readBraced? f none (skip f r)
    | r => readHex? f size 0 r
  number.bind fun (n, r) => (charOf? n).map (·, r)

/-! ## Classes by name -/

/-- The characters before and behind the first occurrence of a mark. -/
def cutAt? (mark : List Char) (before : List Char) : List Char → Option (List Char × List Char)
  | [] => none
  | c :: r =>
    if mark.isPrefixOf (c :: r) then some (before.reverse, (c :: r).drop mark.length)
    else cutAt? mark (c :: before) r

/-- A class by what its braces hold, and whether it is what they do not name. -/
def classOf? (name : List Char) : Option (CharSet × Bool) :=
  let valued (parts : List Char × List Char) (negated : Bool) : Option (CharSet × Bool) :=
    (Text.classOfValue? (Text.plainName parts.1) (Text.plainName parts.2)).map (·, negated)
  match cutAt? ['!', '='] [] name, cutAt? [':'] [] name, cutAt? ['='] [] name with
  | some parts, _, _ => valued parts true
  | none, some parts, _ => valued parts false
  | none, none, some parts => valued parts false
  | none, none, none => (Text.classNamed? (Text.plainName name)).map (·, false)

/-- Characters up to a closing brace. -/
def readName? (f : Flags) (name : List Char) (cs : List Char) :
    Option (List Char × List Char) :=
  match cs with
  | [] => none
  | '}' :: r => some (name.reverse, r)
  | c :: r => readName? f (c :: name) (skip f r)
termination_by cs.length
decreasing_by simpa using Nat.lt_succ_of_le (length_skip_le f r)

/-- A set as it is or without regard to case, and what is outside of that if it is negated. -/
def foldAndNegate? (f : Flags) (negated : Bool) (s : CharSet) : Option CharSet :=
  if f.unicode then
    let s := if f.ignoreCase then s.folded else s
    some (if negated then s.negate else s)
  else
    let s := if f.ignoreCase then s.foldedAscii else s
    /- Without Unicode a set may have ASCII characters only. -/
    if negated || !s.isAscii then none else some s

/-- A class behind `\p` or `\P`: a letter, or a name between braces. -/
def readClass? (f : Flags) (negated : Bool) (cs : List Char) : Option (CharSet × List Char) :=
  let named := match skip f cs with
    | [] => none
    | '\\' :: _ => none
    | '{' :: r => readName? f [] (skip f r)
    | c :: r => some ([c], skip f r)
  named.bind fun (name, r) =>
    if f.unicode then
      (classOf? name).bind fun (s, different) =>
        (foldAndNegate? f (negated != different) s).map (·, r)
    else none

/-- A class that has a letter of its own. Sets of ASCII characters have no negation. -/
def letterClass? (f : Flags) (negated : Bool) (unicode ascii : CharSet) : Option CharSet :=
  if f.unicode then some (if negated then unicode.negate else unicode)
  else if negated then none
  else some ascii

def asciiDigit : CharSet := .span '0' '9'
def asciiSpace : CharSet := ⟨[(0x9, 0xd), (0x20, 0x20)]⟩
def asciiWord : CharSet := ⟨[(0x30, 0x39), (0x41, 0x5a), (0x5f, 0x5f), (0x61, 0x7a)]⟩

/-! ## Word boundaries -/

/-- A special boundary by its name between braces. Braces that do not start by a letter belong
to a repetition. -/
def readBoundary? (f : Flags) (cs : List Char) : Option (WordPlace × List Char) :=
  let isPart (c : Char) : Bool := c.isAlpha || c == '-'
  match cs with
  | '{' :: r =>
    match skip f r with
    | [] => none
    | c :: r' =>
      if isPart c then
        (readName? f [] (c :: r')).bind fun (name, rest) =>
          match String.ofList name with
          | "start" => some (.start, rest)
          | "end" => some (.stop, rest)
          | "start-half" => some (.startHalf, rest)
          | "end-half" => some (.stopHalf, rest)
          | _ => none
      else some (.boundary, cs)
  | cs => some (.boundary, cs)

/-! ## All escapes -/

/-- Characters with a meaning of their own. -/
def metaChars : List Char :=
  ['\\', '.', '+', '*', '?', '(', ')', '|', '[', ']', '{', '}', '^', '$', '#', '&', '-', '~']

/-- Characters that stand for themselves behind a backslash. -/
def isEscapable (c : Char) : Bool :=
  metaChars.contains c || (c.toNat < 0x80 && !c.isAlphanum && c != '<' && c != '>')

/-- Reads what follows a backslash. -/
def readEscape? (f : Flags) : List Char → Option (Escape × List Char)
  | [] => none
  | c :: r =>
    let numbered (size : Nat) : Option (Escape × List Char) :=
      (readNumbered? f size r).map fun (c, r) => (.char c false, r)
    let char (c : Char) : Option (Escape × List Char) := some (.char c false, r)
    let look (a : Assertion) : Option (Escape × List Char) := some (.look a, r)
    let word (place : WordPlace) : Assertion := .word place !f.unicode
    let letter (negated : Bool) (unicode ascii : CharSet) : Option (Escape × List Char) :=
      (letterClass? f negated unicode ascii).map fun s => (.set s, r)
    match c with
    | 'x' =>
      (readNumbered? f 2 r).map fun (c, r') => (.char c (!((skip f r).head? == some '{')), r')
    | 'u' => numbered 4
    | 'U' => numbered 8
    | 'p' => (readClass? f false r).map fun (s, r) => (.set s, r)
    | 'P' => (readClass? f true r).map fun (s, r) => (.set s, r)
    | 'd' => letter false Text.decimals asciiDigit
    | 'D' => letter true Text.decimals asciiDigit
    | 's' => letter false Text.whiteSpace asciiSpace
    | 'S' => letter true Text.whiteSpace asciiSpace
    | 'w' => letter false Text.wordChars asciiWord
    | 'W' => letter true Text.wordChars asciiWord
    | 'a' => char '\x07'
    | 'f' => char '\x0c'
    | 't' => char '\t'
    | 'n' => char '\n'
    | 'r' => char '\r'
    | 'v' => char '\x0b'
    | 'A' => look .textStart
    | 'z' => look .textEnd
    | 'b' => (readBoundary? f r).map fun (place, r) => (.look (word place), r)
    | 'B' => look (word .noBoundary)
    | '<' => look (word .start)
    | '>' => look (word .stop)
    | c => if isEscapable c then char c else none

end Pattern

end LivePage
