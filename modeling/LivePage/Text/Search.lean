/-!
# Searching text

Where a text occurs in another one, and what is left when its occurrences are cut out or
replaced.
-/

namespace LivePage.Text

/-- The first place where a text occurs. -/
def find? (needle : List Char) : List Char → Option Nat
  | [] => if needle.isEmpty then some 0 else none
  | c :: r => if needle.isPrefixOf (c :: r) then some 0 else (find? needle r).map (· + 1)

/-- The parts between the occurrences of a separator, from the left; `skip` characters of the
separator are still ahead, and `part` holds what was read of the present part, last first. -/
def splitFrom (sep : List Char) : (skip : Nat) → (part : List Char) → List Char → List (List Char)
  | _, part, [] => [part.reverse]
  | skip + 1, part, _ :: r => splitFrom sep skip part r
  | 0, part, c :: r =>
    if sep.isPrefixOf (c :: r) then part.reverse :: splitFrom sep (sep.length - 1) [] r
    else splitFrom sep 0 (c :: part) r

/-- The parts between the occurrences of a separator; without one, the characters. -/
def split (sep cs : List Char) : List (List Char) :=
  if sep.isEmpty then cs.map ([·]) else splitFrom sep 0 [] cs

/-- Replaces the first occurrence of a text. -/
def replaceFirst (old new cs : List Char) : List Char :=
  match find? old cs with
  | some i => cs.take i ++ new ++ cs.drop (i + old.length)
  | none => cs

end LivePage.Text
