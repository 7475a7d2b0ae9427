import LivePage.Expr.Fault
import LivePage.Json.Writer
import LivePage.Text.LetterCase
import LivePage.Text.Search
import LivePage.Value.Coerce

/-!
# Functions of the expression language

There are global functions, functions of a few named groups, and methods of values. Nothing else
can be called from an expression.
-/

namespace LivePage.Builtin

/-- The groups that functions may be called on by name. -/
def groups : List String := ["Math", "JSON", "Date", "Object", "Array"]

def isGroup (name : String) : Bool := groups.contains name

def constant? : String → String → Option Value
  | "Math", "PI" => some (.ofFloat 3.141592653589793)
  | "Math", "E" => some (.ofFloat 2.718281828459045)
  | _, _ => none

/-- An argument that is not given is null. -/
def arg (args : List Value) (i : Nat) : Value := args.getD i .null

def require (function : String) (args : List Value) (expected : Nat) : Except EvalFault Unit :=
  if args.length < expected then .error (.argumentCount function expected args.length) else .ok ()

/-- What a character is worth as a digit in a radix up to 36. -/
def digit? (radix : Nat) (c : Char) : Option Nat :=
  let n := c.toNat
  let value :=
    if c.isDigit then some (n - '0'.toNat)
    else if 'a' ≤ c ∧ c ≤ 'z' then some (n - 'a'.toNat + 10)
    else if 'A' ≤ c ∧ c ≤ 'Z' then some (n - 'A'.toNat + 10)
    else none
  value.filter (· < radix)

/-- The digits at the front of a text. -/
def leadingDigits (radix : Nat) : List Char → List Nat
  | [] => []
  | c :: r =>
    match digit? radix c with
    | some d => d :: leadingDigits radix r
    | none => []

/-- The integer at the front of a text, behind blanks and a sign; null if there is none, or if it
is beyond 63 bits. -/
def parseInt (text : List Char) (radix : Nat) : Value :=
  if radix < 2 ∨ 36 < radix then .null
  else
    let (negative, body) := Decimal.takeSign (Text.trimStart text)
    let digits := leadingDigits radix body
    let n := digits.foldl (fun n d => radix * n + d) 0
    if digits.isEmpty ∨ Nat.pow 2 63 ≤ n then .null
    else .int (if negative then -n else n)

/-- The number at the front of a text, behind blanks; null if there is none. -/
def parseFloat (text : List Char) : Value :=
  ((Decimal.leadingFloat? (Text.trimStart text)).map Value.ofFloat).getD .null

/-- The greater of two numbers; `NaN` gives way. -/
def maxFloat (a b : Float) : Float :=
  if a.isNaN then b else if b.isNaN then a else if a < b then b else a

/-- The smaller of two numbers; `NaN` gives way. -/
def minFloat (a b : Float) : Float :=
  if a.isNaN then b else if b.isNaN then a else if b < a then b else a

def sign (x : Float) : Float :=
  if x == 0.0 then 0.0 else if x.isNaN then x else if x < 0.0 then -1.0 else 1.0

def unaryMath? : String → Option (Float → Float)
  | "abs" => some Float.abs
  | "ceil" => some Binary.ceil
  | "floor" => some Binary.floor
  | "round" => some fun x => Binary.floor (x + 0.5)
  | "sqrt" => some Float.sqrt
  | "trunc" => some Binary.trunc
  | "sign" => some sign
  | _ => none

/-- Calls a function that belongs to no group. -/
def callGlobal (name : String) (args : List Value) : Except EvalFault Value :=
  match name with
  | "String" => .ok (.str ((args.head?.map Value.display).getD ""))
  | "Number" => .ok (.ofFloat ((args.head?.map Value.toNumber).getD 0.0))
  | "Boolean" => .ok (.bool (arg args 0).truthy)
  | "parseInt" => do
    require name args 1
    let radix := match arg args 1 with
      | .null => 10
      | v => Binary.word 32 v.toNumber
    return parseInt (arg args 0).display.toList radix
  | "parseFloat" => do
    require name args 1
    return parseFloat (arg args 0).display.toList
  | "isNaN" => .ok (.bool (arg args 0).toNumber.isNaN)
  | "isFinite" => .ok (.bool (arg args 0).toNumber.isFinite)
  | _ => .error (.unknownFunction name)

def callMath (name : String) (args : List Value) : Except EvalFault Value :=
  let qualified := "Math." ++ name
  match name with
  | "max" => .ok (.ofFloat ((args.map Value.toNumber).foldl maxFloat (-1.0 / 0.0)))
  | "min" => .ok (.ofFloat ((args.map Value.toNumber).foldl minFloat (1.0 / 0.0)))
  | "pow" => do
    require qualified args 2
    return .ofFloat (Float.pow (arg args 0).toNumber (arg args 1).toNumber)
  | _ =>
    match unaryMath? name with
    | some f => do
      require qualified args 1
      return .ofFloat (f (arg args 0).toNumber)
    | none => .error (.unknownFunction qualified)

/-- The members that an object function sees: those of an object, and none of other values. -/
def objectMembers (qualified : String) : Value → Except EvalFault (Fields Value)
  | .obj m => .ok m
  | .null => .error (.typeMismatch qualified Value.null.kindName)
  | _ => .ok []

/-- Calls a function of a group, at a time in milliseconds. -/
def callGroup (clock : Int) (group name : String) (args : List Value) : Except EvalFault Value :=
  let qualified := group ++ "." ++ name
  match group, name with
  | "Math", _ => callMath name args
  | "JSON", "stringify" => .ok (.str (Json.compact (arg args 0)))
  | "JSON", "parse" => do
    require qualified args 1
    match arg args 0 with
    | .str text => (Json.parse text).mapError (.invalidArgument qualified)
    | v => throw (.typeMismatch "JSON.parse" v.kindName)
  | "Date", "now" => .ok (.int clock)
  | "Object", "keys" => do
    let m ← objectMembers qualified (arg args 0)
    return .arr (m.map fun (k, _) => .str k)
  | "Object", "values" => do
    let m ← objectMembers qualified (arg args 0)
    return .arr (m.map fun (_, v) => v)
  | "Object", "entries" => do
    let m ← objectMembers qualified (arg args 0)
    return .arr (m.map fun (k, v) => .arr [.str k, v])
  | "Array", "isArray" =>
    .ok (.bool (match arg args 0 with
      | .arr _ => true
      | _ => false))
  | _, _ => .error (.unknownFunction qualified)

/-- A bound of a slice; one below zero counts from the end. -/
def sliceBound (length : Nat) (v : Value) (fallback : Nat) : Nat :=
  match v with
  | .null => fallback
  | v =>
    let n := v.toNumber
    if n.isNaN then 0
    else if n < 0.0 then length - Binary.word 64 (-n)
    else min (Binary.word 64 n) length

/-- Start and end of a slice, where the end is not before the start. -/
def sliceBounds (args : List Value) (length : Nat) : Nat × Nat :=
  let start := sliceBound length (arg args 0) 0
  let stop := sliceBound length (arg args 1) length
  (start, max start stop)

def slice {α : Type} (bounds : Nat × Nat) (xs : List α) : List α :=
  (xs.drop bounds.1).take (bounds.2 - bounds.1)

/-- A bound of a substring; one below zero is zero. -/
def substringBound (length : Nat) (v : Value) (fallback : Nat) : Nat :=
  match v with
  | .null => fallback
  | v =>
    let n := v.toNumber
    if n.isNaN || n < 0.0 then 0 else min (Binary.word 64 n) length

def substringBounds (args : List Value) (length : Nat) : Nat × Nat :=
  let a := substringBound length (arg args 0) 0
  let b := substringBound length (arg args 1) length
  (min a b, max a b)

private def ofChars (cs : List Char) : Value := .str (String.ofList cs)

def callText (s : String) (name : String) (args : List Value) : Except EvalFault Value :=
  let cs := s.toList
  let text (i : Nat) : List Char := (arg args i).display.toList
  match name with
  | "toUpperCase" => .ok (ofChars (Text.upper cs))
  | "toLowerCase" => .ok (ofChars (Text.lower cs))
  | "trim" => .ok (ofChars (Text.trim cs))
  | "includes" => .ok (.bool (Text.find? (text 0) cs).isSome)
  | "startsWith" => .ok (.bool ((text 0).isPrefixOf cs))
  | "endsWith" => .ok (.bool ((text 0).isSuffixOf cs))
  | "indexOf" =>
    .ok (match Text.find? (text 0) cs with
      | some i => .nat i
      | none => .int (-1))
  | "charAt" =>
    let i := (arg args 0).toNumber
    let c := if i >= 0.0 then cs[Binary.word 64 i]? else none
    .ok (ofChars c.toList)
  | "slice" => .ok (ofChars (slice (sliceBounds args cs.length) cs))
  | "substring" => .ok (ofChars (slice (substringBounds args cs.length) cs))
  | "split" =>
    match arg args 0 with
    | .null => .ok (.arr [.str s])
    | sep => .ok (.arr ((Text.split sep.display.toList cs).map ofChars))
  | "replace" => do
    require "replace" args 2
    return ofChars (Text.replaceFirst (text 0) (text 1) cs)
  | "concat" => .ok (.str (args.foldl (fun acc v => acc ++ v.display) s))
  | _ => .error (.unknownFunction ("string." ++ name))

def callList (items : List Value) (name : String) (args : List Value) : Except EvalFault Value :=
  match name with
  | "includes" => .ok (.bool (items.any (·.strictEq (arg args 0))))
  | "indexOf" =>
    .ok (match items.findIdx? (·.strictEq (arg args 0)) with
      | some i => .nat i
      | none => .int (-1))
  | "join" =>
    let sep := match arg args 0 with
      | .null => ","
      | v => v.display
    .ok (.str (sep.intercalate (Value.displayItems items)))
  | "slice" => .ok (.arr (slice (sliceBounds args items.length) items))
  | "concat" =>
    .ok (.arr (items ++ args.flatMap fun v => match v with
      | .arr more => more
      | v => [v]))
  | "reverse" => .ok (.arr items.reverse)
  | _ => .error (.unknownFunction ("array." ++ name))

/-- Calls a method of a value. -/
def callMethod (receiver : Value) (name : String) (args : List Value) : Except EvalFault Value :=
  if name = "toString" then .ok (.str receiver.display)
  else match receiver with
    | .str s => callText s name args
    | .arr items => callList items name args
    | .num n =>
      if name = "toFixed" then
        let places := (Binary.clamp 0 100 (arg args 0).toNumber).toNat
        .ok (.str (Decimal.fixedText places n.toFloat))
      else .error (.unknownFunction (receiver.kindName ++ "." ++ name))
    | _ => .error (.unknownFunction (receiver.kindName ++ "." ++ name))

end LivePage.Builtin
