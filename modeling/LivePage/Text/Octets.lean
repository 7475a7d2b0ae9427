import LivePage.Text.Span

/-!
# Spans of characters as bytes

The characters of a span have encodings of one to four bytes. They fall into runs in which each
byte of an encoding varies over a range of its own, whatever the others are.
-/

namespace LivePage.Text

/-- The number of bytes of a text. -/
def byteLength (cs : List Char) : Nat := cs.foldr (fun c n => c.utf8Size + n) 0

/-- A range for each byte. -/
abbrev Octets := List (Nat × Nat)

/-- The bytes of a code point. -/
def encode (n : Nat) : List Nat :=
  if n < 0x80 then [n]
  else if n < 0x800 then [0xc0 + n / 64, 0x80 + n % 64]
  else if n < 0x10000 then [0xe0 + n / 4096, 0x80 + n / 64 % 64, 0x80 + n % 64]
  else [0xf0 + n / 262144, 0x80 + n / 4096 % 64, 0x80 + n / 64 % 64, 0x80 + n % 64]

/-- The last code point before encodings get longer, within a span. -/
def lengthCut? (first last : Nat) : Option Nat :=
  [0x7f, 0x7ff, 0xffff].find? fun n => first ≤ n && n < last

/-- The last code point before a block of a size, where a span starts or ends inside of one and is
not inside of a single one. -/
def blockCut? (first last size : Nat) : Option Nat :=
  if first / size = last / size then none
  else if first % size ≠ 0 then some ((first / size + 1) * size - 1)
  else if last % size ≠ size - 1 then some (last / size * size - 1)
  else none

/-- Where to cut a span so that the parts are closer to runs. -/
def cut? (first last : Nat) : Option Nat :=
  (lengthCut? first last).or
    (if last < 0x80 then none else [64, 4096, 262144].findSome? (blockCut? first last))

/-- The runs of a span without surrogates. -/
def runs (first last : Nat) : List Octets :=
  if last < first then []
  else match cut? first last with
    | some n =>
      if first ≤ n ∧ n < last then runs first n ++ runs (n + 1) last
      else [(encode first).zip (encode last)]
    | none => [(encode first).zip (encode last)]
termination_by last - first

/-- The runs of a span; surrogates are passed over. -/
def Span.runs (s : Span) : List Octets :=
  if s.1 < 0xe000 ∧ 0xd7ff < s.2 then Text.runs s.1 0xd7ff ++ Text.runs 0xe000 s.2
  else Text.runs s.1 s.2

end LivePage.Text
