import LivePage.Proofs.Safety.Number

/-!
# Functions cannot crash

Functions take arguments by their place, cut a text where another one was found in it, and take
characters or items from one bound to another.  They require the arguments that they take; a text
is found where a character starts; and bounds are in order and not beyond the end, whatever the
arguments are: negative or huge, no number at all, or not given.

Functions without such steps are the running ones.
-/

namespace LivePage

namespace Text

theorem find?_le {needle cs : List Char} {i : Nat} (h : find? needle cs = some i) :
    i ≤ cs.length := by
  induction cs generalizing i with
  | nil =>
    rw [find?, Option.ite_none_right_eq_some] at h
    exact Nat.le_of_eq (Option.some.inj h.2).symm
  | cons c r ih =>
    rw [find?] at h
    split at h
    · exact Nat.le_trans (Nat.le_of_eq (Option.some.inj h).symm) (Nat.zero_le _)
    · obtain ⟨j, hj, rfl⟩ := Option.map_eq_some_iff.mp h
      exact Nat.succ_le_succ (ih hj)

/-- The byte at which a text first occurs in another one. -/
def findByte? (needle cs : List Char) : Option Nat :=
  (find? needle cs).map fun i ↦ byteLength (cs.take i)

end Text

namespace Builtin

/-! ## Bounds -/

variable {length fallback : Nat} {v : Value}

theorem sliceBound_le (h : fallback ≤ length) : sliceBound length v fallback ≤ length := by
  unfold sliceBound
  split
  · exact h
  · dsimp only
    split
    · exact Nat.zero_le _
    · split
      · exact Nat.sub_le _ _
      · exact Nat.min_le_right _ _

theorem substringBound_le (h : fallback ≤ length) :
    substringBound length v fallback ≤ length := by
  unfold substringBound
  split
  · exact h
  · dsimp only
    split
    · exact Nat.zero_le _
    · exact Nat.min_le_right _ _

/-- Bounds of so many characters or items. -/
def InBounds (bounds : Nat × Nat) (length : Nat) : Prop := bounds.1 ≤ bounds.2 ∧ bounds.2 ≤ length

theorem inBounds_slice (args : List Value) (length : Nat) :
    InBounds (sliceBounds args length) length :=
  ⟨Nat.le_max_left _ _,
    Nat.max_le.mpr ⟨sliceBound_le (Nat.zero_le _), sliceBound_le (Nat.le_refl _)⟩⟩

theorem inBounds_substring (args : List Value) (length : Nat) :
    InBounds (substringBounds args length) length :=
  ⟨Nat.le_trans (Nat.min_le_left _ _) (Nat.le_max_left _ _),
    Nat.max_le.mpr ⟨substringBound_le (Nat.zero_le _), substringBound_le (Nat.le_refl _)⟩⟩

end Builtin

namespace Checked

open Builtin (arg require)

/-! ## Functions -/

/-- What is done with enough arguments. -/
def required (function : String) (args : List Value) (expected : Nat)
    (f : Checked (Except EvalFault Value)) : Checked (Except EvalFault Value) :=
  match require function args expected with
  | .error e => .ok (.error e)
  | .ok () => f

/-- What is between two bounds. -/
def slice {α : Type} (bounds : Nat × Nat) (xs : List α) : Checked (List α) :=
  range bounds.1 bounds.2 xs

def callGlobal (name : String) (args : List Value) : Checked (Except EvalFault Value) :=
  match name with
  | "parseInt" => required name args 1 do
    let radix := match arg args 1 with
      | .null => 10
      | v => Binary.word 32 v.toNumber
    let v ← item args 0
    let n ← parseInt v.display.toList radix
    return .ok n
  | "parseFloat" => required name args 1 do
    let v ← item args 0
    let x ← parseFloat v.display.toList
    return .ok x
  | _ => .ok (Builtin.callGlobal name args)

def callMath (name : String) (args : List Value) : Checked (Except EvalFault Value) :=
  let qualified := "Math." ++ name
  match name with
  | "max" | "min" => .ok (Builtin.callMath name args)
  | "pow" => required qualified args 2 do
    let base ← item args 0
    let exponent ← item args 1
    return .ok (.ofFloat (Float.pow base.toNumber exponent.toNumber))
  | _ =>
    match Builtin.unaryMath? name with
    | some f => required qualified args 1 do
      let v ← item args 0
      return .ok (.ofFloat (f v.toNumber))
    | none => .ok (.error (.unknownFunction qualified))

def callGroup (clock : Int) (group name : String) (args : List Value) :
    Checked (Except EvalFault Value) :=
  let qualified := group ++ "." ++ name
  match group, name with
  | "Math", _ => callMath name args
  | "JSON", "parse" => required qualified args 1 do
    match ← item args 0 with
    | .str text => return (Json.parse text).mapError (.invalidArgument qualified)
    | v => return .error (.typeMismatch "JSON.parse" v.kindName)
  | _, _ => .ok (Builtin.callGroup clock group name args)

def callText (s : String) (name : String) (args : List Value) :
    Checked (Except EvalFault Value) :=
  let cs := s.toList
  match name with
  | "indexOf" =>
    match Text.findByte? (arg args 0).display.toList cs with
    | some byte => do
      let front ← before cs byte
      return .ok (.nat front.length)
    | none => .ok (.ok (.int (-1)))
  | "slice" => do
    let found ← slice (Builtin.sliceBounds args cs.length) cs
    return .ok (.str (String.ofList found))
  | "substring" => do
    let found ← slice (Builtin.substringBounds args cs.length) cs
    return .ok (.str (String.ofList found))
  | _ => .ok (Builtin.callText s name args)

def callList (items : List Value) (name : String) (args : List Value) :
    Checked (Except EvalFault Value) :=
  match name with
  | "slice" => do
    let found ← slice (Builtin.sliceBounds args items.length) items
    return .ok (.arr found)
  | _ => .ok (Builtin.callList items name args)

/-- Calls a method of a value. -/
def callMethod (receiver : Value) (name : String) (args : List Value) :
    Checked (Except EvalFault Value) :=
  if name = "toString" then .ok (.ok (.str receiver.display))
  else match receiver with
    | .str s => callText s name args
    | .arr items => callList items name args
    | _ => .ok (Builtin.callMethod receiver name args)

variable {args : List Value}

theorem required_eq {function : String} {expected : Nat}
    {f : Checked (Except EvalFault Value)} {r : Except EvalFault Value}
    (h : expected ≤ args.length → f = .ok r) : required function args expected f =
      .ok (require function args expected >>= fun _ ↦ r) := by
  rw [required, require]
  by_cases less : args.length < expected
  · rw [if_pos less]
    rfl
  · rw [if_neg less, h (Nat.le_of_not_lt less)]
    rfl

theorem item_eq {i : Nat} (h : i < args.length) : item args i = .ok (arg args i) := by
  rw [item, arg, List.getD_eq_getElem?_getD, List.getElem?_eq_getElem h]
  rfl

theorem slice_eq {α : Type} {bounds : Nat × Nat} {xs : List α}
    (h : Builtin.InBounds bounds xs.length) : slice bounds xs = .ok (Builtin.slice bounds xs) :=
  range_eq h.1 h.2

theorem callGlobal_eq (name : String) (args : List Value) :
    callGlobal name args = .ok (Builtin.callGlobal name args) := by
  unfold callGlobal
  split
  · refine required_eq fun enough ↦ ?_
    rw [item_eq enough]
    dsimp only [bind, Except.bind]
    rw [parseInt_eq]
    rfl
  · refine required_eq fun enough ↦ ?_
    rw [item_eq enough]
    dsimp only [bind, Except.bind]
    rw [parseFloat_eq]
    rfl
  · rfl

theorem callMath_eq (name : String) (args : List Value) :
    callMath name args = .ok (Builtin.callMath name args) := by
  unfold callMath
  dsimp only
  split
  · rfl
  · rfl
  · refine required_eq fun enough ↦ ?_
    rw [item_eq (Nat.lt_of_succ_le (Nat.le_of_succ_le enough)), item_eq enough]
    rfl
  · next max min pow =>
    rw [Builtin.callMath]
    cases Builtin.unaryMath? name with
    | none => rfl
    | some f =>
      refine required_eq fun enough ↦ ?_
      rw [item_eq enough]
      rfl
    all_goals assumption

theorem callGroup_eq (clock : Int) (group name : String) (args : List Value) :
    callGroup clock group name args = .ok (Builtin.callGroup clock group name args) := by
  unfold callGroup
  dsimp only
  split
  · exact callMath_eq name args
  · refine required_eq fun enough ↦ ?_
    rw [item_eq enough]
    dsimp only [bind, Except.bind]
    cases arg args 0 <;> rfl
  · rfl

theorem callText_eq (s name : String) (args : List Value) :
    callText s name args = .ok (Builtin.callText s name args) := by
  unfold callText
  dsimp only
  split
  · rw [Text.findByte?, Builtin.callText]
    cases found : Text.find? (arg args 0).display.toList s.toList with
    | none => rfl
    | some i =>
      have le := Text.find?_le found
      have cut := before_append (s.toList.take i) (s.toList.drop i)
      rw [List.take_append_drop] at cut
      simp only [Option.map_some, cut, bind, Except.bind, List.length_take_of_le le]
      rfl
  · rw [slice_eq (Builtin.inBounds_slice args _)]
    rfl
  · rw [slice_eq (Builtin.inBounds_substring args _)]
    rfl
  · rfl

theorem callList_eq (items : List Value) (name : String) (args : List Value) :
    callList items name args = .ok (Builtin.callList items name args) := by
  unfold callList
  split
  · rw [slice_eq (Builtin.inBounds_slice args _)]
    rfl
  · rfl

theorem callMethod_eq (receiver : Value) (name : String) (args : List Value) :
    callMethod receiver name args = .ok (Builtin.callMethod receiver name args) := by
  unfold callMethod Builtin.callMethod
  split
  · rfl
  · cases receiver with
    | str s => exact callText_eq s name args
    | arr items => exact callList_eq items name args
    | _ => rfl

end Checked

end LivePage
