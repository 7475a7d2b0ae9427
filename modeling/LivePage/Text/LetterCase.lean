import LivePage.Text.Letter
import LivePage.Text.Table.Case

/-!
# Upper- and lowercase text

The full case mappings of Unicode 17: a character may have an uppercase of several characters,
and a sigma at the end of a word has a lowercase of its own.
-/

namespace LivePage.Text

/-- Characters with an uppercase of one character that is not ASCII's own, and these. -/
def upperTargets : Array (Nat × Nat) := (tableTargets Table.toUpper).toArray

def lowerTargets : Array (Nat × Nat) := (tableTargets Table.toLower).toArray

/-- Characters with an uppercase of several characters, each in front of these. -/
def upperSequences : List (List Nat) := tableWords Table.upperSequence

/-- The target of a character, and without one the character itself. -/
def target (targets : Array (Nat × Nat)) (c : Char) : Char :=
  match targets.find? (·.1 == c.toNat) with
  | some (_, n) => Char.ofNat n
  | none => c

def upperChar (c : Char) : List Char :=
  if isAscii c then [c.toUpper]
  else match upperSequences.find? (·.head? == some c.toNat) with
    | some (_ :: ns) => ns.map Char.ofNat
    | _ => [target upperTargets c]

def lowerChar (c : Char) : List Char :=
  if isAscii c then [c.toLower]
  else if c == 'İ' then ['i', '\u0307']
  else [target lowerTargets c]

def casedChars : CharSet :=
  (CharSet.union cased (.ofTable Table.recentCased)).difference (.ofTable Table.formerlyCased)

def isCased (c : Char) : Bool := casedChars.contains c

def caseIgnorableChars : CharSet := .union caseIgnorable (.ofTable Table.recentCaseIgnorable)

/-- Characters that stand inside words without being letters of them. -/
def isCaseIgnorable (c : Char) : Bool := caseIgnorableChars.contains c

/-- Whether a letter with a case comes next, after what may stand inside a word. -/
def meetsCased (cs : List Char) : Bool :=
  ((cs.dropWhile isCaseIgnorable).head?.map isCased).getD false

def upper (cs : List Char) : List Char := cs.flatMap upperChar

/-- Lowercase of what follows the characters `before`, which are in reverse. -/
def lowerAfter : (before : List Char) → List Char → List Char
  | _, [] => []
  | before, c :: r =>
    let here :=
      if c == 'Σ' then [if meetsCased before && !meetsCased r then 'ς' else 'σ'] else lowerChar c
    here ++ lowerAfter (c :: before) r

def lower (cs : List Char) : List Char := lowerAfter [] cs

end LivePage.Text
