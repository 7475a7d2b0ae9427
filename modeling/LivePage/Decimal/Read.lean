/-!
# Reading decimals

A decimal is a sign, digits with at most one point among them, and an exponent. `readFloat?`
also knows the names of infinity and of the number that is none, in letters of either case.
-/

namespace LivePage.Decimal

def digitValue (c : Char) : Nat := c.toNat - '0'.toNat

/-- The number written by decimal digits that follow the digits of another one. -/
def appendDigits (n : Nat) (cs : List Char) : Nat := cs.foldl (fun n c => 10 * n + digitValue c) n

/-- The number written by decimal digits, which are cut in halves so many times. -/
def ofHalves : (cuts : Nat) → List Char → Nat
  | 0, cs => appendDigits 0 cs
  | cuts + 1, cs =>
    let (front, back) := cs.splitAt (cs.length / 2)
    ofHalves cuts front * Nat.pow 10 back.length + ofHalves cuts back

/-- The number written by decimal digits. Long ones are cut, so that most products are short. -/
def ofDigits (cs : List Char) : Nat := ofHalves (cs.length / 16).log2 cs

@[simp] theorem appendDigits_nil (n : Nat) : appendDigits n [] = n := rfl

@[simp] theorem appendDigits_cons (n : Nat) (c : Char) (cs : List Char) :
    appendDigits n (c :: cs) = appendDigits (10 * n + digitValue c) cs := List.foldl_cons ..

@[simp] theorem appendDigits_append (n : Nat) (cs ds : List Char) :
    appendDigits n (cs ++ ds) = appendDigits (appendDigits n cs) ds := List.foldl_append ..

theorem appendDigits_eq (n : Nat) (cs : List Char) :
    appendDigits n cs = n * Nat.pow 10 cs.length + appendDigits 0 cs := by
  induction cs generalizing n with
  | nil => simp
  | cons c cs ih =>
    rw [appendDigits_cons, appendDigits_cons, ih, ih (10 * 0 + digitValue c), List.length_cons,
      Nat.pow]
    grind

theorem ofHalves_eq (cuts : Nat) (cs : List Char) : ofHalves cuts cs = appendDigits 0 cs := by
  induction cuts generalizing cs with
  | zero => rfl
  | succ cuts ih =>
    simp only [ofHalves, List.splitAt_eq, ih]
    rw [← appendDigits_eq, ← appendDigits_append, List.take_append_drop]

theorem ofDigits_eq (cs : List Char) : ofDigits cs = appendDigits 0 cs := ofHalves_eq ..

/-- The digits at the front, and what follows them. -/
def takeDigits (cs : List Char) : List Char × List Char :=
  (cs.takeWhile Char.isDigit, cs.dropWhile Char.isDigit)

/-- The number nearest to `n * 10 ^ e`, infinite where all finite ones are too small. The power of
ten of its first digit is estimated, as a bound within which the number is computed. -/
def scientific (n : Nat) (e : Int) : Float :=
  let power : Int := (n.log2 * 30103 / 100000 : Nat) + e
  if n = 0 then 0.0
  else if 400 < power then 1.0 / 0.0
  else if power < -400 then 0.0
  else Float.ofScientific n (e < 0) e.natAbs

/-- The sign at the front of a text, and what follows it. -/
def takeSign : List Char → Bool × List Char
  | '-' :: r => (true, r)
  | '+' :: r => (false, r)
  | r => (false, r)

/-- Digits with at most one point among them: the number without the point, the digits behind it,
and what follows. There is at least one digit. -/
def takeDecimal? (cs : List Char) : Option (Nat × Nat × List Char) :=
  let (whole, rest) := takeDigits cs
  let (fraction, rest) := match rest with
    | '.' :: r => takeDigits r
    | r => ([], r)
  if whole.isEmpty && fraction.isEmpty then none
  else some (ofDigits (whole ++ fraction), fraction.length, rest)

/-- A mark, an optional sign and at least one digit, and what follows them. -/
def takeExponent? : List Char → Option (Int × List Char)
  | [] => none
  | mark :: r =>
    if mark = 'e' ∨ mark = 'E' then
      let (negative, r) := takeSign r
      let (digits, r) := takeDigits r
      if digits.isEmpty then none
      else some (if negative then -(ofDigits digits : Int) else ofDigits digits, r)
    else none

/-- Reads a whole text as digits with an optional point and an optional exponent. -/
def readMagnitude? (cs : List Char) : Option Float :=
  (takeDecimal? cs).bind fun (n, places, rest) =>
    match rest, takeExponent? rest with
    | [], _ => some (scientific n (-places))
    | _, some (e, []) => some (scientific n (e - places))
    | _, _ => none

/-- The number at the front of a text; an exponent that is not complete does not belong to it. -/
def leadingFloat? (cs : List Char) : Option Float :=
  let (negative, rest) := takeSign cs
  (takeDecimal? rest).map fun (n, places, rest) =>
    let x := scientific n (((takeExponent? rest).map (·.1)).getD 0 - places)
    if negative then -x else x

private def lowered (cs : List Char) : String := String.ofList (cs.map Char.toLower)

/-- Reads a whole text as a number. -/
def readFloat? (cs : List Char) : Option Float :=
  let (negative, rest) := takeSign cs
  let magnitude :=
    if lowered rest = "inf" ∨ lowered rest = "infinity" then some (1.0 / 0.0)
    else if lowered rest = "nan" then some (0.0 / 0.0)
    else readMagnitude? rest
  magnitude.map fun x => if negative then -x else x

end LivePage.Decimal
