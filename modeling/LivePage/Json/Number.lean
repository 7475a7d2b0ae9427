import LivePage.Decimal.Read
import LivePage.Value.Basic

/-!
# Numbers in documents

A number without point and exponent that fits a 64-bit word is an integer. Every other one is a
float: as many leading digits as fit a 64-bit word, scaled once by a power of ten.
-/

namespace LivePage.Json

/-- Why a text is not a document: a character that cannot stand there, or its early end. -/
inductive Fault where
  | malformed
  | ended
deriving DecidableEq, Repr

def Fault.message : Fault → String
  | malformed => "unexpected character"
  | ended => "unexpected end of text"

/-- What is wrong where something else had to follow. -/
def faultAt : List Char → Fault
  | [] => .ended
  | _ :: _ => .malformed

def wordBound : Nat := Nat.pow 2 64

/-- Leading digits as a number, as long as it fits a word, and the digits left over. -/
def takeWord (n : Nat) : List Char → Nat × List Char
  | [] => (n, [])
  | c :: r =>
    let m := 10 * n + Decimal.digitValue c
    if m < wordBound then takeWord m r else (n, c :: r)

def tenTo (n : Nat) : Float := Float.ofScientific 1 false n

/-- Multiplies or divides by a power of ten, in steps that a float can hold; none if the result
is too great. After three steps down only zero is left. -/
def scale (f : Float) (e : Int) : Nat → Option Float
  | 0 => some f
  | steps + 1 =>
    if e.natAbs ≤ 308 then
      if 0 ≤ e then
        let g := f * tenTo e.natAbs
        if g.isInf then none else some g
      else some (f / tenTo e.natAbs)
    else if f == 0.0 then some f
    else if 0 ≤ e then none
    else scale (f / tenTo 308) (e + 308) steps

/-- The sign and the digits of a number. -/
structure Literal where
  negative : Bool
  whole : List Char
  fraction : List Char
  exponent : Int

def Literal.float? (l : Literal) : Option Number :=
  let (n, dropped) := takeWord 0 l.whole
  let (m, unused) := takeWord n l.fraction
  let places := l.fraction.length - unused.length
  let e := (dropped.length : Int) - places + l.exponent
  let f := if m = 0 then some 0.0 else scale (Float.ofNat m) e 4
  f.bind fun f => Number.ofFloat? (if l.negative then -f else f)

/-- The number of a literal without point and exponent. -/
def Literal.integer? (l : Literal) : Option Number :=
  let n := Decimal.ofDigits l.whole
  if l.negative then
    if 0 < n ∧ n ≤ Nat.pow 2 63 then some (.int (-n)) else l.float?
  else if n < wordBound then some (.int n)
  else l.float?

/-- A mark, an optional sign and at least one digit. -/
def readExponent (cs : List Char) : Except Fault (Int × List Char) :=
  let (negative, r) := Decimal.takeSign cs
  let (digits, r) := Decimal.takeDigits r
  if digits.isEmpty then .error (faultAt r)
  else
    let n : Int := Decimal.ofDigits digits
    .ok (if negative then -n else n, r)

/-- Reads a number after its sign; there is none where it is too great for a float. -/
def readNumber (negative : Bool) (cs : List Char) :
    Except Fault (Option Number × List Char) := do
  let (whole, r) := Decimal.takeDigits cs
  if whole.isEmpty then throw (faultAt r)
  if whole.head? = some '0' ∧ 1 < whole.length then throw .malformed
  let plain : Literal := ⟨negative, whole, [], 0⟩
  let (fraction, r, pointed) ← match r with
    | '.' :: r =>
      let (fraction, r) := Decimal.takeDigits r
      if fraction.isEmpty then throw (faultAt r) else pure (fraction, r, true)
    | r => pure ([], r, false)
  match r with
  | mark :: after =>
    if mark = 'e' ∨ mark = 'E' then
      let (e, r) ← readExponent after
      return (Literal.float? ⟨negative, whole, fraction, e⟩, r)
    else if pointed then return (Literal.float? ⟨negative, whole, fraction, 0⟩, r)
    else return (plain.integer?, r)
  | [] =>
    if pointed then return (Literal.float? ⟨negative, whole, fraction, 0⟩, r)
    else return (plain.integer?, r)

end LivePage.Json
