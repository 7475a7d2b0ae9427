import LivePage.Binary

/-!
# Shortest decimals

Every positive finite number has an interval of reals that round to it. The shortest decimal is
the one of fewest digits in that interval, and among those the nearest to the number.
-/

namespace LivePage.Decimal

/-- The decimal `digits * 10 ^ exponent`. -/
structure Digits where
  digits : Nat
  exponent : Int
deriving DecidableEq, Repr

/-- A positive number of quarter units: `4 * mantissa` of them make the number, and those from
`low` to `high` round to it, the ends only where `closed`. -/
structure Interval where
  low : Nat
  value : Nat
  high : Nat
  /-- Quarter units are `2 ^ exponent`. -/
  exponent : Int
  closed : Bool

/-- Numbers below a power of two lie twice as close as those above. -/
def Interval.ofNumber (mantissa : Nat) (exponent : Int) : Interval :=
  { low := 4 * mantissa - (if mantissa = Nat.pow 2 52 ∧ exponent ≠ -1074 then 1 else 2)
    value := 4 * mantissa
    high := 4 * mantissa + 2
    exponent := exponent - 2
    closed := mantissa % 2 == 0 }

/-- The greatest power of ten that is not above `n / d`. -/
def magnitude (n d : Nat) : Int :=
  let guess := (((n.log2 : Int) - d.log2) * 30103).fdiv 100000 - 1
  let reaches (p : Int) : Bool := d * Nat.pow 10 p.toNat ≤ n * Nat.pow 10 (-p).toNat
  if reaches (guess + 2) then guess + 2
  else if reaches (guess + 1) then guess + 1
  else guess

/-- The nearest decimal of the interval on the grid of multiples of `10 ^ p`. -/
def Interval.onGrid? (i : Interval) (p : Int) : Option Digits :=
  let unit := Nat.pow 10 p.toNat * Nat.pow 2 (-i.exponent).toNat
  let scale := Nat.pow 10 (-p).toNat * Nat.pow 2 i.exponent.toNat
  let inside (k : Nat) : Bool :=
    if i.closed then i.low * scale ≤ k * unit && k * unit ≤ i.high * scale
    else i.low * scale < k * unit && k * unit < i.high * scale
  let below := i.value * scale / unit
  let rest := i.value * scale % unit
  match inside below, inside (below + 1) with
  | true, true =>
    some ⟨if 2 * rest < unit ∨ 2 * rest = unit ∧ below % 2 = 0 then below else below + 1, p⟩
  | true, false => some ⟨below, p⟩
  | false, true => some ⟨below + 1, p⟩
  | false, false => none

/-- Tries ever finer grids; seventeen digits are always enough. -/
def Interval.search (i : Interval) : Nat → Int → Digits
  | 0, _ => ⟨0, 0⟩
  | tries + 1, p => (i.onGrid? p).getD (i.search tries (p - 1))

/-- Moves the zeros at the end of the digits into the exponent. -/
def Digits.trim (d : Digits) : Nat → Digits
  | 0 => d
  | fuel + 1 =>
    if d.digits % 10 = 0 then (⟨d.digits / 10, d.exponent + 1⟩ : Digits).trim fuel else d

def shortest (mantissa : Nat) (exponent : Int) : Digits :=
  let i := Interval.ofNumber mantissa exponent
  let top := magnitude (mantissa * Nat.pow 2 exponent.toNat) (Nat.pow 2 (-exponent).toNat)
  (i.search 18 top).trim 2

end LivePage.Decimal
