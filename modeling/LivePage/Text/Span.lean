/-!
# Spans of characters

A span is a range of code points. Tables of characters are written as words between blanks, each
of which joins hexadecimal numbers by hyphens.
-/

namespace LivePage.Text

/-- First and last code point. -/
abbrev Span := Nat × Nat

def hexDigit? (c : Char) : Option Nat :=
  if c.isDigit then some (c.toNat - '0'.toNat)
  else if 'a' ≤ c ∧ c ≤ 'f' then some (c.toNat - 'a'.toNat + 10)
  else if 'A' ≤ c ∧ c ≤ 'F' then some (c.toNat - 'A'.toNat + 10)
  else none

/-- Reads words behind some that are done; the numbers of the present one come last first. -/
def wordsFrom (done : List (List Nat)) (word : List Nat) : List Char → List (List Nat)
  | [] => (if word.isEmpty then done else word.reverse :: done).reverse
  | c :: r =>
    match hexDigit? c, word with
    | some d, [] => wordsFrom done [d] r
    | some d, n :: more => wordsFrom done ((16 * n + d) :: more) r
    | none, [] => wordsFrom done [] r
    | none, word =>
      if c = '-' then wordsFrom done (0 :: word) r else wordsFrom (word.reverse :: done) [] r

/-- The numbers of each word of a table. -/
def tableWords (table : String) : List (List Nat) := wordsFrom [] [] table.toList

/-- The members of a span with a step between them. -/
def stepped (first last step : Nat) : List Nat :=
  (List.range ((last - first) / step + 1)).map fun i => first + step * i

/-- A word stands for a character, or for the characters of a span; with a third number, for
those of them that are as many steps from the first. -/
def wordSpans : List Nat → List Span
  | [n] => [(n, n)]
  | [first, last] => [(first, last)]
  | [first, last, step] => (stepped first last step).map fun n => (n, n)
  | _ => []

/-- A word starts with the target of the first of its characters; the others have the targets
that follow it at the same distances. -/
def wordTargets : List Nat → List (Nat × Nat)
  | [target, n] => [(n, target)]
  | [target, first, last] => (stepped first last 1).map fun n => (n, target + (n - first))
  | [target, first, last, step] =>
    (stepped first last step).map fun n => (n, target + (n - first))
  | _ => []

/-- The characters of a table of targets, each with its own. -/
def tableTargets (table : String) : List (Nat × Nat) := (tableWords table).flatMap wordTargets

end LivePage.Text
