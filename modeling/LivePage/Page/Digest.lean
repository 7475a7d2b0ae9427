import LivePage.Json.Writer
import LivePage.Page.Encode

/-!
# Digests of pages

A page has one canonical text. Its digest is a short name for this text: a 32-bit polynomial of
the text's UTF-16 units, written in base 36.
-/

namespace LivePage

namespace Digest

/-- The UTF-16 units of a text. -/
def units (text : String) : List Nat :=
  text.toList.flatMap fun c =>
    let n := c.toNat
    if n < 0x10000 then [n]
    else [0xD800 + (n - 0x10000) / 0x400, 0xDC00 + (n - 0x10000) % 0x400]

/-- Takes one more unit into a word. -/
def push (h : Int32) (unit : Nat) : Int32 := (h <<< 5) - h + Int32.ofNat unit

def word (units : List Nat) : Int32 := units.foldl push 0

/-- The absolute value of a word, which the least word has as well. -/
def magnitude (w : Int32) : Nat := w.toInt.natAbs

def digitChar (d : Nat) : Char :=
  if d < 10 then Char.ofNat ('0'.toNat + d) else Char.ofNat ('a'.toNat + (d - 10))

/-- The digits of a number in base 36. -/
def digits (n : Nat) : List Nat :=
  if n < 36 then [n] else digits (n / 36) ++ [n % 36]
termination_by n

def numeral (n : Nat) : String := String.ofList ((digits n).map digitChar)

def ofText (text : String) : String := numeral (magnitude (word (units text)))

end Digest

namespace Page

def canonical (p : Page) : String := Json.compact p.toValue

def digest (p : Page) : String := Digest.ofText p.canonical

end Page

end LivePage
