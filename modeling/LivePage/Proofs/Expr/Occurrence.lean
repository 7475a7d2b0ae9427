import LivePage.Proofs.Expr.Slice
import LivePage.Proofs.Number.Sum
import LivePage.Proofs.Text.Search

/-!
# Where a text occurs, in expressions

The methods that look for a text, the length of a text and slices all count characters.  So a slice
that is as long as the text, from the place where it was found, is the text, and no slice from a
place before is.  A place is a number in an expression, and numbers are exact below `2 ^ 53`, which
is more than the characters of any text.
-/

namespace LivePage.Expr

open Text

variable {env : Env} {x y p : Expr} {s t : String} {i j : Nat}

/-! ## Slices from a place -/

/-- Whether the slice from a place, as long as the text that is looked for, is this text. -/
def isAt (x y p : Expr) : Expr :=
  .binary .strictEqual
    (.call (.member x "slice" false) [p, .binary .add p (.member y "length" false)] false) y

theorem slice_nat (hj : j ≤ s.length) (hij : i ≤ j) (hs : s.length < 2 ^ 53) :
    Builtin.callMethod (.str s) "slice" [.nat i, .nat j] =
      .ok (.str (.ofList ((s.toList.drop i).take (j - i)))) := by
  have finite (n : Nat) (hn : n < 2 ^ 53) : (Number.int n).toFloat.isFinite = true :=
    Binary.isFinite_of_isInt (Binary.isInt_natCast hn)
  have place (n : Nat) (hn : n ≤ s.length) : Builtin.place s.length (.int n) = n := by
    rw [Builtin.place_int ⟨by omega, by omega⟩ hs.le, Builtin.denoted, if_neg (by omega)]
    omega
  rw [← Builtin.between_eq_take_drop]
  have hslice := Builtin.slice_text (finite i (by omega)) (finite j (by omega)) (s := s) (by omega)
  rwa [place i (by omega), place j hj] at hslice

theorem eval_isAt (hx : x.eval env = .ok (.str s)) (hy : y.eval env = .ok (.str t))
    (hp : p.eval env = .ok (.nat j)) (hj : j + t.length ≤ s.length) (hs : s.length < 2 ^ 53) :
    (isAt x y p).eval env = .ok (.bool (decide (t.toList <+: s.toList.drop j))) := by
  have hlength : (member y "length" false).eval env = .ok (.nat t.length) :=
    eval_member hy nofun "length" false
  have hend : (binary .add p (.member y "length" false)).eval env = .ok (.nat (j + t.length)) := by
    rw [eval_binary hp hlength]
    exact applyBinary_add_nat (by omega)
  have hslice := eval_method hx nofun (evalItems_cons hp (evalItems_cons hend evalItems_nil))
    "slice" false false
  rw [slice_nat hj (Nat.le_add_right _ _) hs, Nat.add_sub_cancel_left] at hslice
  rw [isAt, eval_binary hslice hy]
  refine congrArg (fun b ↦ Except.ok (Value.bool b)) ?_
  rw [Bool.eq_iff_iff, decide_eq_true_iff, List.prefix_iff_eq_take, String.length_toList]
  constructor
  · intro h
    have he : String.ofList ((s.toList.drop j).take t.length) = t := beq_iff_eq.mp h
    rw [← he, String.toList_ofList, he]
  · intro h
    apply beq_iff_eq.mpr
    rw [← h, String.ofList_toList]

/-! ## Methods that look for a text -/

theorem callMethod_includes (s t : String) : Builtin.callMethod (.str s) "includes" [.str t] =
    .ok (.bool (find? t.toList s.toList).isSome) := rfl

theorem callMethod_startsWith (s t : String) : Builtin.callMethod (.str s) "startsWith" [.str t] =
    .ok (.bool (t.toList.isPrefixOf s.toList)) := rfl

theorem callMethod_indexOf (s t : String) : Builtin.callMethod (.str s) "indexOf" [.str t] =
    .ok ((find? t.toList s.toList).elim (.int (-1)) .nat) := by
  have htext : (Builtin.arg [.str t] 0).display = t := rfl
  rw [Builtin.callMethod, if_neg (by decide)]
  change Builtin.callText s "indexOf" [.str t] = _
  rw [Builtin.callText]
  simp only [htext]
  cases find? t.toList s.toList <;> rfl

/-- A prefix is what is found at the first place of all. -/
theorem isPrefixOf_iff_of_isLeast (h : IsLeast {k | t.toList <+: s.toList.drop k} i) :
    t.toList.isPrefixOf s.toList = true ↔ i = 0 := by
  rw [List.isPrefixOf_iff_prefix]
  constructor
  · intro hp
    exact Nat.le_zero.mp (h.2 hp)
  · rintro rfl
    exact h.1

/-- Before the first place a text does not occur. -/
theorem prefix_drop_iff_of_isLeast (h : IsLeast {k | t.toList <+: s.toList.drop k} i)
    (hj : j ≤ i) : t.toList <+: s.toList.drop j ↔ j = i := by
  constructor
  · intro hp
    exact le_antisymm hj (h.2 hp)
  · rintro rfl
    exact h.1

/-- A text is included where it occurs, and its index is then the first place where it does, counted
in characters: so too is the first byte where its bytes occur.  The slice of its length from there
is the text, and no slice of this length from a place before is; and the other text starts with it
just where this place is the first of all.  The index of a text that is not included is -1.  Lengths
count characters as well.  Only where an expression adds a length to a place, the sum has to be one
that floats hold: that is below `2 ^ 53`, where the places of every text are. -/
theorem places_agree (env : Env) {x y : Expr} {s t : String} (hx : x.eval env = .ok (.str s))
    (hy : y.eval env = .ok (.str t)) :
    let method (name : String) := Expr.call (.member x name false) [y] false
    ∃ included starts : Bool,
      (method "includes").eval env = .ok (.bool included) ∧
      (method "startsWith").eval env = .ok (.bool starts) ∧
      (Expr.member x "length" false).eval env = .ok (.nat s.toList.length) ∧
      (included = true ↔ t.toList <:+: s.toList) ∧
      (included = false → (method "indexOf").eval env = .ok (.int (-1))) ∧
      (included = true → ∃ i : Nat, (method "indexOf").eval env = .ok (.nat i) ∧
        IsLeast {j | t.toList <+: s.toList.drop j} i ∧
        IsLeast {b | octets t.toList <+: (octets s.toList).drop b}
          (octets (s.toList.take i)).length ∧
        (starts = true ↔ i = 0) ∧
        (s.length < 2 ^ 53 → ∀ (p : Expr) (j : Nat), p.eval env = .ok (.nat j) → j ≤ i →
          (isAt x y p).eval env = .ok (.bool (decide (j = i))))) := by
  intro method
  have hmethod (name : String) := eval_method hx nofun (evalItems_cons hy evalItems_nil) name false
    false
  have hlength : (Expr.member x "length" false).eval env = .ok (.nat s.toList.length) := by
    rw [eval_member hx nofun, String.length_toList]
    rfl
  refine ⟨_, _, (hmethod _).trans (callMethod_includes s t),
    (hmethod _).trans (callMethod_startsWith s t), hlength, isSome_find?_iff, ?_, ?_⟩
  · intro hnone
    have hfind : find? t.toList s.toList = none := by simpa using hnone
    rw [hmethod, callMethod_indexOf, hfind, Option.elim_none]
  · intro hsome
    obtain ⟨i, hi⟩ := Option.isSome_iff_exists.mp hsome
    have hleast := isLeast_of_find? hi
    have hbyte : findByte? t.toList s.toList = some (octets (s.toList.take i)).length := by
      rw [findByte?, hi, length_octets]
      rfl
    have hindex : (method "indexOf").eval env = .ok (.nat i) := by
      rw [hmethod, callMethod_indexOf, hi, Option.elim_some]
    refine ⟨i, hindex, hleast, isLeast_of_findByte? hbyte, isPrefixOf_iff_of_isLeast hleast, ?_⟩
    intro hs p j hp hj
    have hend : j + t.length ≤ s.length := by
      have := length_add_le_of_find? hi
      rw [String.length_toList, String.length_toList] at this
      omega
    rw [eval_isAt hx hy hp hend hs]
    simp only [prefix_drop_iff_of_isLeast hleast hj]

/-- A text is found behind a character of four bytes, which counts as one place, and its second
occurrence does not count. -/
theorem places_agree_in_mixed_text :
    let env : Env := ⟨[], 0⟩
    let x := Expr.literal (.str "😀é€é€")
    let y := Expr.literal (.str "é€")
    x.eval env = .ok (.str "😀é€é€") ∧ y.eval env = .ok (.str "é€") ∧
    (Expr.call (.member x "includes" false) [y] false).eval env = .ok (.bool true) ∧
    (Expr.call (.member x "indexOf" false) [y] false).eval env = .ok (.nat 1) ∧
    (Expr.call (.member x "startsWith" false) [y] false).eval env = .ok (.bool false) ∧
    (isAt x y (.call (.member x "indexOf" false) [y] false)).eval env = .ok (.bool true) ∧
    (isAt x y (.literal (.nat 0))).eval env = .ok (.bool false) := by
  intro env x y
  have value := eval_literal env
  obtain ⟨included, starts, hincludes, hstarts, -, hiff, -, hfound⟩ :=
    places_agree env (value (.str "😀é€é€")) (value (.str "é€"))
  have hincluded : included = true := hiff.mpr ⟨['😀'], ['é', '€'], by decide⟩
  obtain ⟨i, hindex, hleast, -, hzero, hslices⟩ := hfound hincluded
  have hone : IsLeast {j | "é€".toList <+: "😀é€é€".toList.drop j} 1 := by
    refine ⟨⟨['é', '€'], by decide⟩, fun j hj ↦ ?_⟩
    cases j with
    | zero =>
      have : ¬ "é€".toList <+: "😀é€é€".toList.drop 0 := by decide
      exact absurd hj this
    | succ j => omega
  obtain rfl : i = 1 := hleast.unique hone
  have hnot : starts = false := by
    rw [← Bool.not_eq_true, hzero]
    decide
  rw [hincluded] at hincludes
  rw [hnot] at hstarts
  have hslice := hslices (by decide)
  exact ⟨value _, value _, hincludes, hindex, hstarts, hslice _ 1 hindex le_rfl,
    hslice _ 0 (value (.nat 0)) (Nat.zero_le _)⟩

end LivePage.Expr
