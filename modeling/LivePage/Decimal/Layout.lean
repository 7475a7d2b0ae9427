import LivePage.Decimal.Shortest

/-!
# Decimal text of numbers

Both written forms of a number take its shortest digits. A `Layout` says where the point may
stand, when an exponent is written and how the special numbers are spelled.
-/

namespace LivePage.Decimal

/-- How the digits of a number are laid out. -/
structure Layout where
  /-- Powers of ten of the leading digit that are written without an exponent. -/
  positional : Int → Bool
  /-- Whether a whole number ends in `.0`. -/
  keepsPoint : Bool

/-- Decimals as they are displayed: never an exponent, no point in a whole number. -/
def Layout.display : Layout := ⟨fun _ => true, false⟩

/-- Decimals in documents: always a point or an exponent, so that they read back as decimals. -/
def Layout.document : Layout := ⟨fun p => -5 ≤ p && p < 16, true⟩

def zeros (n : Nat) : String := String.ofList (List.replicate n '0')

private def digitText (n : Nat) : String := String.ofList (Nat.toDigits 10 n)

/-- Text of digits and a power of ten, with the point in its place. -/
def positionalText (keepsPoint : Bool) (d : Digits) : String :=
  let text := digitText d.digits
  if 0 ≤ d.exponent then
    text ++ zeros d.exponent.toNat ++ (if keepsPoint then ".0" else "")
  else
    let places := (-d.exponent).toNat
    if places < text.length then
      let whole := text.length - places
      String.ofList (text.toList.take whole) ++ "." ++ String.ofList (text.toList.drop whole)
    else "0." ++ zeros (places - text.length) ++ text

/-- Text with one digit before the point and a signed exponent. -/
def exponentText (d : Digits) : String :=
  let text := digitText d.digits
  let power := d.exponent + text.length - 1
  let sign := if power < 0 then "e-" else "e+"
  let fraction := String.ofList (text.toList.drop 1)
  String.ofList (text.toList.take 1) ++ (if fraction.isEmpty then "" else "." ++ fraction) ++
    sign ++ digitText power.natAbs

def Layout.digits (l : Layout) (d : Digits) : String :=
  let power := d.exponent + (digitText d.digits).length - 1
  if l.positional power then positionalText l.keepsPoint d else exponentText d

/-- The text of a number. -/
def Layout.text (l : Layout) (x : Float) : String :=
  match Binary.parts x with
  | .nan => "NaN"
  | .infinite negative => if negative then "-inf" else "inf"
  | .finite negative m e =>
    (if negative then "-" else "") ++
      (if m = 0 then (if l.keepsPoint then "0.0" else "0") else l.digits (shortest m e))

/-- The quotient of two naturals, rounded to the nearest, a tie to the even neighbour. -/
def roundDiv (n d : Nat) : Nat :=
  let q := n / d
  let r := n % d
  if 2 * r < d ∨ 2 * r = d ∧ q % 2 = 0 then q else q + 1

/-- Text with exactly `places` digits after the point, the nearest decimal to the exact value. -/
def fixedText (places : Nat) (x : Float) : String :=
  match Binary.parts x with
  | .nan => "NaN"
  | .infinite negative => if negative then "-inf" else "inf"
  | .finite negative m e =>
    let n := roundDiv (m * Nat.pow 2 e.toNat * Nat.pow 10 places) (Nat.pow 2 (-e).toNat)
    let text := digitText n
    let text := zeros (places + 1 - text.length) ++ text
    let whole := text.length - places
    (if negative then "-" else "") ++ String.ofList (text.toList.take whole) ++
      (if places = 0 then "" else "." ++ String.ofList (text.toList.drop whole))

end LivePage.Decimal
