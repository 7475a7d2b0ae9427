import LivePage.Fields

/-!
# Values

Page data is made of null, booleans, numbers, text, lists and objects. A number keeps whether it
is an integer; every other number is finite.
-/

namespace LivePage

inductive Number where
  | int (n : Int)
  | float (x : Float) (finite : x.isFinite = true)
deriving DecidableEq, Repr

namespace Number

/-- There is no number for a float that is not finite. -/
def ofFloat? (x : Float) : Option Number :=
  if h : x.isFinite = true then some (.float x h) else none

/-- The float nearest to a number. -/
def toFloat : Number → Float
  | int n => Float.ofInt n
  | float x _ => x

@[simp] theorem toFloat_int (n : Int) : toFloat (int n) = Float.ofInt n := rfl
@[simp] theorem toFloat_float (x : Float) (h : x.isFinite = true) : toFloat (float x h) = x := rfl

end Number

inductive Value where
  | null
  | bool (b : Bool)
  | num (n : Number)
  | str (s : String)
  | arr (items : List Value)
  | obj (members : List (String × Value))
deriving Repr, Inhabited

namespace Value

def int (n : Int) : Value := .num (.int n)

def nat (n : Nat) : Value := .int n

/-- The object of some members, in any order; the last of a key stays. -/
def object (members : List (String × Value)) : Value := .obj (Fields.ofList members)

def kindName : Value → String
  | null => "null"
  | bool _ => "boolean"
  | num _ => "number"
  | str _ => "string"
  | arr _ => "array"
  | obj _ => "object"

def isNull : Value → Bool
  | null => true
  | _ => false

def text? : Value → Option String
  | str s => some s
  | _ => none

/-- The members of an object, and none of anything else. -/
def members : Value → Fields Value
  | obj m => m
  | _ => []

/-- A list that is written only where it has items. -/
def listMember (k : String) : List Value → Fields Value
  | [] => []
  | vs => [(k, .arr vs)]

/-- An object that is written only where it has members. -/
def objectMember (k : String) : Fields Value → Fields Value
  | [] => []
  | m => [(k, .obj m)]

@[simp] theorem isNull_null : isNull null = true := rfl

theorem isNull_iff {v : Value} : v.isNull = true ↔ v = null := by
  cases v <;> simp [isNull]

end Value

end LivePage
