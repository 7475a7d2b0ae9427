import LivePage.Proofs.Outcome
import LivePage.Text.Octets

/-!
# Steps that can crash

Some steps stop a program where what they need does not hold: a text is cut at a byte inside of a
character, items are taken that are not there, a counter goes below zero, a machine word overflows.
Here such steps ask for what they need, and say so where it does not hold.
-/

namespace LivePage

/-- What stops a program. -/
inductive Crash where
  /-- A text is cut where no character starts and it does not end. -/
  | boundary (byte : Nat)
  /-- Items are taken from `start` to `stop`, of so many. -/
  | range (start stop length : Nat)
  | missing (index : Nat)
  /-- A number without sign goes below zero. -/
  | underflow
  /-- A machine word has no such number. -/
  | overflow
  | radix (n : Nat)
  /-- Calls go on and on. -/
  | endless
deriving DecidableEq, Repr

/-- What comes of steps that can crash. -/
abbrev Checked := Except Crash

namespace Text

@[simp] theorem byteLength_nil : byteLength [] = 0 := rfl

@[simp] theorem byteLength_cons (c : Char) (cs : List Char) :
    byteLength (c :: cs) = c.utf8Size + byteLength cs := rfl

@[simp] theorem byteLength_append (cs ds : List Char) :
    byteLength (cs ++ ds) = byteLength cs + byteLength ds := by
  induction cs with
  | nil => simp
  | cons c r ih => simp only [List.cons_append, byteLength_cons, ih, Nat.add_assoc]

/-- The characters in front of a byte and those from it on, if it is inside of no character. -/
def cutAt? : List Char → Nat → Option (List Char × List Char)
  | [], n => if n = 0 then some ([], []) else none
  | c :: r, n =>
    if n = 0 then some ([], c :: r)
    else if n < c.utf8Size then none
    else (cutAt? r (n - c.utf8Size)).map fun (front, back) ↦ (c :: front, back)

theorem cutAt?_eq_some_iff {cs front back : List Char} {n : Nat} :
    cutAt? cs n = some (front, back) ↔ cs = front ++ back ∧ byteLength front = n := by
  constructor
  · intro h
    induction cs generalizing n front with
    | nil =>
      rw [cutAt?, Option.ite_none_right_eq_some] at h
      obtain ⟨rfl, ⟨⟩⟩ := h
      exact ⟨rfl, rfl⟩
    | cons c r ih =>
      rw [cutAt?] at h
      split at h
      · next e =>
        cases h
        exact ⟨rfl, e.symm⟩
      · rw [Option.ite_none_left_eq_some, Option.map_eq_some_iff] at h
        obtain ⟨le, ⟨front, back⟩, hr, ⟨⟩⟩ := h
        obtain ⟨rfl, hn⟩ := ih hr
        refine ⟨rfl, ?_⟩
        rw [byteLength_cons]
        omega
  · rintro ⟨rfl, rfl⟩
    induction front with
    | nil => cases back <;> rfl
    | cons c r ih =>
      have := c.utf8Size_pos
      rw [List.cons_append, cutAt?, if_neg (by simp; omega), if_neg (by simp),
        byteLength_cons, Nat.add_sub_cancel_left, ih, Option.map_some]

theorem byteLength_eq_utf8ByteSize (cs : List Char) :
    byteLength cs = (String.ofList cs).utf8ByteSize := by
  induction cs with
  | nil => rfl
  | cons c r ih =>
    rw [byteLength_cons, ih, ← List.singleton_append, String.ofList_append,
      String.utf8ByteSize_append, ← String.singleton_eq_ofList, String.utf8ByteSize_singleton]

/-- A text can be cut where its encoding can. -/
theorem isSome_cutAt?_iff {s : String} {n : Nat} :
    (cutAt? s.toList n).isSome ↔ (String.Pos.Raw.mk n).IsValid s := by
  rw [String.Pos.Raw.isValid_iff_exists_take_toList]
  constructor
  · intro h
    obtain ⟨⟨front, back⟩, hc⟩ := Option.isSome_iff_exists.mp h
    obtain ⟨e, rfl⟩ := cutAt?_eq_some_iff.mp hc
    refine ⟨front.length, ?_⟩
    rw [e, List.take_left]
    exact byteLength_eq_utf8ByteSize front
  · rintro ⟨i, hi⟩
    have hn : byteLength (s.toList.take i) = n := (byteLength_eq_utf8ByteSize _).trans hi.symm
    rw [cutAt?_eq_some_iff.mpr ⟨(List.take_append_drop i s.toList).symm, hn⟩]
    rfl

end Text

namespace Checked

/-- What is in front of a byte of a text. -/
def before (cs : List Char) (byte : Nat) : Checked (List Char) :=
  match Text.cutAt? cs byte with
  | some (front, _) => .ok front
  | none => .error (.boundary byte)

/-- What is in a text from a byte on. -/
def behind (cs : List Char) (byte : Nat) : Checked (List Char) :=
  match Text.cutAt? cs byte with
  | some (_, back) => .ok back
  | none => .error (.boundary byte)

/-- The items from `start` to `stop`. -/
def range {α : Type} (start stop : Nat) (xs : List α) : Checked (List α) :=
  if start ≤ stop ∧ stop ≤ xs.length then .ok ((xs.drop start).take (stop - start))
  else .error (.range start stop xs.length)

def item {α : Type} (xs : List α) (i : Nat) : Checked α :=
  match xs[i]? with
  | some x => .ok x
  | none => .error (.missing i)

/-- What is left of a number without sign. -/
def minus (a b : Nat) : Checked Nat := if b ≤ a then .ok (a - b) else .error .underflow

/-- The negative of an integer of 64 bits. -/
def negate (n : Int) : Checked Int :=
  if n = -(Nat.pow 2 63 : Nat) then .error .overflow else .ok (-n)

theorem before_append (front back : List Char) :
    before (front ++ back) (Text.byteLength front) = .ok front := by
  rw [before, Text.cutAt?_eq_some_iff.mpr ⟨rfl, rfl⟩]

/-- The second byte is inside of the first character. -/
example : before ['é', 'a'] 1 = .error (.boundary 1) := rfl

theorem behind_append (front back : List Char) :
    behind (front ++ back) (Text.byteLength front) = .ok back := by
  rw [behind, Text.cutAt?_eq_some_iff.mpr ⟨rfl, rfl⟩]

theorem range_eq {α : Type} {start stop : Nat} {xs : List α} (h : start ≤ stop)
    (hs : stop ≤ xs.length) : range start stop xs = .ok ((xs.drop start).take (stop - start)) :=
  if_pos ⟨h, hs⟩

theorem minus_add (a b : Nat) : minus (a + b) b = .ok a := by
  rw [minus, if_pos (Nat.le_add_left b a), Nat.add_sub_cancel]

theorem negate_of_nonneg {n : Int} (h : 0 ≤ n) : negate n = .ok (-n) := by
  have word : 0 < Nat.pow 2 63 := Nat.pow_pos (Nat.zero_lt_two)
  exact if_neg (by omega)

end Checked

end LivePage
