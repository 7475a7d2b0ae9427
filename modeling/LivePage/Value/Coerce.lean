import LivePage.Decimal.Layout
import LivePage.Decimal.Read
import LivePage.Text.Blank
import LivePage.Value.Basic

/-!
# Coercions and comparisons

How a value counts as a truth value, as a number and as text, and when two values are equal or
ordered. Expressions, conditions and templates share these rules.
-/

namespace LivePage

/-- A number as it is displayed: a whole one that is still exact has no point. -/
def Number.display : Number → String
  | .int n => toString n
  | .float x _ =>
    match Binary.safeInteger? x with
    | some n => toString n
    | none => Decimal.Layout.display.text x

/-- The result of an operation on numbers: an integer where it is whole and still exact, and
null where it is not finite. -/
def Value.ofFloat (x : Float) : Value :=
  match Binary.safeInteger? x with
  | some n => .int n
  | none => ((Number.ofFloat? x).map Value.num).getD .null

/-- The float that a text stands for: zero for a blank one, `NaN` for one that is no number. -/
def numberOfText (s : String) : Float :=
  match Text.trim s.toList with
  | [] => 0.0
  | cs => (Decimal.readFloat? cs).getD (0.0 / 0.0)

namespace Value

def truthy : Value → Bool
  | null => false
  | bool b => b
  | num n => n.toFloat != 0.0 && !n.toFloat.isNaN
  | str s => s != ""
  | arr _ => true
  | obj _ => true

/-- Lists and objects are empty without content, all else where it counts as false. -/
def empty : Value → Bool
  | arr items => items.isEmpty
  | obj m => m.isEmpty
  | v => !v.truthy

/-- A list of one item is read as the item. -/
def toNumber : Value → Float
  | null => 0.0
  | bool b => if b then 1.0 else 0.0
  | num n => n.toFloat
  | str s => numberOfText s
  | arr [] => 0.0
  | arr [v] => v.toNumber
  | arr _ => 0.0 / 0.0
  | obj _ => 0.0 / 0.0

mutual

/-- A value as text; the items of a list are joined by commas. -/
def display : Value → String
  | null => "null"
  | bool b => if b then "true" else "false"
  | num n => n.display
  | str s => s
  | arr items => ",".intercalate (displayItems items)
  | obj _ => "[object Object]"

/-- Null is displayed as nothing inside a list. -/
def displayItems : List Value → List String
  | [] => []
  | null :: r => "" :: displayItems r
  | v :: r => display v :: displayItems r

end

mutual

/-- Equal in structure, where numbers are equal as floats. -/
def strictEq : Value → Value → Bool
  | null, null => true
  | bool a, bool b => a == b
  | num a, num b => a.toFloat == b.toFloat
  | str a, str b => a == b
  | arr a, arr b => strictEqItems a b
  | obj a, obj b => strictEqMembers a b
  | _, _ => false

def strictEqItems : List Value → List Value → Bool
  | [], [] => true
  | x :: a, y :: b => strictEq x y && strictEqItems a b
  | _, _ => false

def strictEqMembers : Fields Value → Fields Value → Bool
  | [], [] => true
  | (k, x) :: a, (l, y) :: b => k == l && strictEq x y && strictEqMembers a b
  | _, _ => false

end

/-- Equal as floats, neither of them `NaN`. -/
def numberEq (a b : Value) : Bool :=
  !a.toNumber.isNaN && a.toNumber == b.toNumber

/-- Null equals null alone; numbers, text and booleans are compared as numbers. -/
def looseEq : Value → Value → Bool
  | null, null => true
  | null, _ => false
  | _, null => false
  | num a, str b => numberEq (num a) (str b)
  | str a, num b => numberEq (str a) (num b)
  | bool a, b => numberEq (bool a) b
  | a, bool b => numberEq a (bool b)
  | a, b => strictEq a b

/-- The order of two floats; none if one is `NaN`. -/
def orderFloats (a b : Float) : Option Ordering :=
  if a < b then some .lt
  else if b < a then some .gt
  else if a == b then some .eq
  else none

/-- Two texts are in the order of their code points, all else in the order of numbers. -/
def order : Value → Value → Option Ordering
  | str a, str b => some (compare a b)
  | a, b => orderFloats a.toNumber b.toNumber

end Value

end LivePage
