/-!
# Exact arithmetic on floating-point numbers

A finite number is a sign, a natural number and a power of two. Whole parts, remainders and
clamped integers are computed on these parts, so no step here rounds.
-/

namespace LivePage.Binary

/-- What a number is made of; a finite one is `± mantissa * 2 ^ exponent`. -/
inductive Parts where
  | nan
  | infinite (negative : Bool)
  | finite (negative : Bool) (mantissa : Nat) (exponent : Int)
deriving DecidableEq, Repr

def Parts.ofBits (b : UInt64) : Parts :=
  let negative := b >>> 63 == 1
  let biased := ((b >>> 52) &&& 0x7ff).toNat
  let fraction := (b &&& 0xfffffffffffff).toNat
  if biased = 0x7ff then
    if fraction = 0 then .infinite negative else .nan
  else if biased = 0 then .finite negative fraction (-1074)
  else .finite negative (fraction + Nat.pow 2 52) (biased - 1075)

def parts (x : Float) : Parts := .ofBits x.toBits

def signed (negative : Bool) (n : Nat) : Int := if negative then -(n : Int) else n

@[simp] theorem signed_false (n : Nat) : signed false n = n := rfl
@[simp] theorem signed_true (n : Nat) : signed true n = -n := rfl

/-- The number `± mantissa * 2 ^ exponent`, for a mantissa below `2 ^ 53` and an exponent that
is at least `-1074`. -/
def compose (negative : Bool) (mantissa : Nat) (exponent : Int) : Float :=
  let shift := min (52 - mantissa.log2) (exponent + 1074).toNat
  let mantissa := mantissa <<< shift
  let exponent := exponent - shift
  let magnitude :=
    if mantissa < Nat.pow 2 52 then mantissa
    else (exponent + 1075).toNat * Nat.pow 2 52 + (mantissa - Nat.pow 2 52)
  Float.ofBits (magnitude + (if negative then Nat.pow 2 63 else 0)).toUInt64

/-- The part of a finite number before the point, and whether anything but zeros follows. -/
def split (mantissa : Nat) : Int → Nat × Bool
  | .ofNat e => (mantissa * Nat.pow 2 e, false)
  | .negSucc e => (mantissa / Nat.pow 2 (e + 1), mantissa % Nat.pow 2 (e + 1) != 0)

/-- Rounds toward zero; there is no whole part of a number that is not finite. -/
def truncate? (x : Float) : Option Int :=
  match parts x with
  | .finite negative m e => some (signed negative (split m e).1)
  | _ => none

/-- The integer that a number is. -/
def whole? (x : Float) : Option Int :=
  match parts x with
  | .finite negative m e =>
    let (n, rest) := split m e
    if rest then none else some (signed negative n)
  | _ => none

/-- The nearest integer of an interval after rounding toward zero; `NaN` becomes zero. -/
def clamp (lo hi : Int) (x : Float) : Int :=
  match parts x with
  | .nan => 0
  | .infinite negative => if negative then lo else hi
  | .finite negative m e => max lo (min hi (signed negative (split m e).1))

/-- The part before the point, as far as a word of so many bits reaches. -/
def word (bits : Nat) (x : Float) : Nat := (clamp 0 (Nat.pow 2 bits - 1 : Nat) x).toNat

/-- A whole number chosen from the part before the point. -/
private def onWhole (choose : Bool → Nat → Bool → Int) (x : Float) : Float :=
  match parts x with
  | .finite negative m e =>
    let (n, rest) := split m e
    Float.ofInt (choose negative n rest)
  | _ => x

def floor : Float → Float :=
  onWhole fun negative n rest => signed negative n - (if negative && rest then 1 else 0)

def ceil : Float → Float :=
  onWhole fun negative n rest => signed negative n + (if !negative && rest then 1 else 0)

def trunc : Float → Float :=
  onWhole fun negative n _ => signed negative n

/-- What is left of the first number after taking away the second as often as it fits; the sign
is the first number's. -/
def remainder (x y : Float) : Float :=
  match parts x, parts y with
  | .finite negative m e, .finite _ n f =>
    if n = 0 then 0.0 / 0.0
    else
      let low := min e f
      compose negative ((m <<< (e - low).toNat) % (n <<< (f - low).toNat)) low
  | .finite _ _ _, .infinite _ => x
  | _, _ => 0.0 / 0.0

/-- The greatest integer up to which every integer is a number of its own. -/
def maxSafe : Int := 9007199254740991

/-- The integer that a number is, where integers are still exact. -/
def safeInteger? (x : Float) : Option Int :=
  (whole? x).filter fun n => n.natAbs ≤ maxSafe.natAbs

end LivePage.Binary
