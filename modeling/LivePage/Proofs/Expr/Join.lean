import LivePage.Proofs.Expr.Method
import LivePage.Proofs.Text.Search

/-!
# Texts that are split and joined

A text is split at the first place where the separator occurs, and what is behind it is split again.
With the separator between them the parts are the text, so joining them undoes the split.  Both
methods display a separator that is no text in the same way.  Without a separator a text is not
split, and one part is joined by any separator to itself.
-/

namespace LivePage

namespace Text

variable {sep cs part : List Char} {parts : List (List Char)} {i skip : Nat}

/-- The parts between the occurrences of a separator, each of them the first one in what is left. -/
inductive Parts (sep : List Char) : List Char → List (List Char) → Prop where
  | last {cs : List Char} (h : ¬ sep <:+: cs) : Parts sep cs [cs]
  | next {cs : List Char} {i : Nat} {parts : List (List Char)}
      (h : IsLeast {j | sep <+: cs.drop j} i) (rest : Parts sep (cs.drop (i + sep.length)) parts) :
      Parts sep cs (cs.take i :: parts)

theorem Parts.ne_nil (h : Parts sep cs parts) : parts ≠ [] := by
  cases h <;> nofun

/-- Parts with the separator between them are the text. -/
theorem Parts.intercalate_eq (h : Parts sep cs parts) : sep.intercalate parts = cs := by
  induction h with
  | last => exact List.intercalate_singleton
  | @next cs i parts hleast rest ih =>
    obtain ⟨behind, hbehind⟩ := hleast.1
    rw [List.intercalate_cons_of_ne_nil rest.ne_nil, ih, ← List.drop_drop, ← hbehind,
      List.drop_left, List.append_assoc, hbehind, List.take_append_drop]

/-! ## Splitting -/

theorem splitFrom_skip (sep : List Char) (skip : Nat) (part cs : List Char) :
    splitFrom sep skip part cs = splitFrom sep 0 part (cs.drop skip) := by
  induction cs generalizing skip with
  | nil =>
    rw [List.drop_nil]
    cases skip <;> rfl
  | cons c r ih =>
    cases skip with
    | zero => rfl
    | succ skip => exact ih skip

theorem splitFrom_of_none (h : find? sep cs = none) :
    splitFrom sep 0 part cs = [part.reverse ++ cs] := by
  induction cs generalizing part with
  | nil => rw [splitFrom, List.append_nil]
  | cons c r ih =>
    rw [find?] at h
    split at h
    · cases h
    · next hp =>
      rw [splitFrom, if_neg hp, ih (Option.map_eq_none_iff.mp h), List.reverse_cons,
        List.append_assoc, List.singleton_append]

theorem splitFrom_of_some (hne : sep ≠ []) (h : find? sep cs = some i) :
    splitFrom sep 0 part cs =
      (part.reverse ++ cs.take i) :: splitFrom sep 0 [] (cs.drop (i + sep.length)) := by
  induction cs generalizing part i with
  | nil =>
    rw [find?, if_neg (mt List.isEmpty_iff.mp hne)] at h
    cases h
  | cons c r ih =>
    rw [find?] at h
    split at h
    · next hp =>
      cases h
      obtain ⟨n, hn⟩ := Nat.exists_eq_succ_of_ne_zero (mt List.length_eq_zero_iff.mp hne)
      rw [splitFrom, if_pos hp, splitFrom_skip, hn, Nat.zero_add, List.take_zero, List.append_nil]
      rfl
    · next hp =>
      obtain ⟨j, hj, rfl⟩ := Option.map_eq_some_iff.mp h
      rw [splitFrom, if_neg hp, ih hj, List.reverse_cons, List.append_assoc, Nat.add_right_comm]
      rfl

theorem parts_splitFrom (hne : sep ≠ []) (cs : List Char) :
    Parts sep cs (splitFrom sep 0 [] cs) := by
  induction hlen : cs.length using Nat.strong_induction_on generalizing cs with
  | _ n ih =>
    cases hfind : find? sep cs with
    | none =>
      rw [splitFrom_of_none hfind]
      exact .last (find?_eq_none_iff.mp hfind)
    | some i =>
      have hle := length_add_le_of_find? hfind
      have hpos := List.length_pos_of_ne_nil hne
      rw [splitFrom_of_some hne hfind]
      refine .next (isLeast_of_find? hfind) (ih _ ?_ _ rfl)
      rw [List.length_drop]
      omega

theorem split_of_ne_nil (hne : sep ≠ []) (cs : List Char) :
    split sep cs = splitFrom sep 0 [] cs := if_neg (mt List.isEmpty_iff.mp hne)

theorem parts_split (hne : sep ≠ []) (cs : List Char) : Parts sep cs (split sep cs) :=
  split_of_ne_nil hne cs ▸ parts_splitFrom hne cs

theorem intercalate_chars (cs : List Char) : List.intercalate [] (cs.map ([·])) = cs := by
  induction cs with
  | nil => rfl
  | cons c r ih =>
    cases r with
    | nil => exact List.intercalate_singleton
    | cons d r =>
      have hne : (d :: r).map ([·]) ≠ [] := List.cons_ne_nil _ _
      rw [List.map_cons, List.intercalate_cons_of_ne_nil hne, ih]
      rfl

end Text

namespace Builtin

variable {s : String} {v : Value} {args : List Value} {parts : List String}

/-- What a text is split into by a separator: all of it without one, its characters by one that is
displayed as nothing, and else the parts between the occurrences of what is displayed. -/
inductive Divides (s : String) : Value → List String → Prop where
  | whole : Divides s .null [s]
  | characters {v : Value} (hv : v ≠ .null) (h : v.display = "") :
      Divides s v (s.toList.map String.singleton)
  | parts {v : Value} {parts : List String} (hv : v ≠ .null) (hne : v.display ≠ "")
      (h : Text.Parts v.display.toList s.toList (parts.map String.toList)) : Divides s v parts

/-! ## What the methods come to -/

theorem callMethod_split (s : String) (args : List Value) : callMethod (.str s) "split" args =
    match arg args 0 with
    | .null => .ok (.arr [.str s])
    | v => .ok (.arr ((Text.split v.display.toList s.toList).map (.str <| .ofList ·))) := rfl

theorem callMethod_split_of_null (h : arg args 0 = .null) :
    callMethod (.str s) "split" args = .ok (.arr [.str s]) := by
  rw [callMethod_split, h]

theorem callMethod_split_of_ne (h : arg args 0 = v) (hv : v ≠ .null) :
    callMethod (.str s) "split" args =
      .ok (.arr (((Text.split v.display.toList s.toList).map .ofList).map .str)) := by
  rw [callMethod_split, h, List.map_map]
  cases v with
  | null => exact absurd rfl hv
  | _ => rfl

/-- What a separator is displayed as between items; a comma without one. -/
def separator : Value → String
  | .null => ","
  | v => v.display

theorem separator_of_ne (hv : v ≠ .null) : separator v = v.display := by
  cases v with
  | null => exact absurd rfl hv
  | _ => rfl

theorem displayItems_str (parts : List String) :
    Value.displayItems (parts.map .str) = parts := by
  induction parts with
  | nil => rfl
  | cons p r ih =>
    rw [List.map_cons, Value.displayItems, ih, Value.display]
    nofun

theorem callMethod_join (args : List Value) (parts : List String) :
    callMethod (.arr (parts.map .str)) "join" args =
      .ok (.str ((separator (arg args 0)).intercalate parts)) := by
  conv_rhs => rw [← displayItems_str parts]
  change Except.ok (Value.str ((match arg args 0 with
    | .null => ","
    | v => v.display).intercalate _)) = _
  cases arg args 0 <;> rfl

/-! ## Joining what was split -/

theorem ofList_split_empty (s : String) :
    (Text.split [] s.toList).map String.ofList = s.toList.map String.singleton := by
  change (s.toList.map ([·])).map String.ofList = _
  rw [List.map_map]
  rfl

theorem exists_divides (s : String) (args : List Value) : ∃ parts, Divides s (arg args 0) parts ∧
    callMethod (.str s) "split" args = .ok (.arr (parts.map .str)) := by
  by_cases hv : arg args 0 = .null
  · rw [hv]
    exact ⟨[s], .whole, callMethod_split_of_null hv⟩
  · refine ⟨_, ?_, callMethod_split_of_ne rfl hv⟩
    by_cases hne : (arg args 0).display = ""
    · rw [hne, String.toList_empty, ofList_split_empty]
      exact .characters hv hne
    · refine .parts hv hne ?_
      have hid : String.toList ∘ String.ofList = id := funext fun cs ↦ String.toList_ofList
      rw [List.map_map, hid, List.map_id]
      exact Text.parts_split (mt String.toList_eq_nil_iff.mp hne) _

/-- The separator that a text was split by puts its parts together again. -/
theorem Divides.intercalate_eq (h : Divides s v parts) : (separator v).intercalate parts = s := by
  rw [← String.toList_inj, String.toList_intercalate]
  cases h with
  | whole => exact List.intercalate_singleton
  | characters hv h =>
    have hchars : (s.toList.map String.singleton).map String.toList = s.toList.map ([·]) := by
      rw [List.map_map]
      apply List.map_congr_left
      intro c _
      exact String.toList_singleton c
    rw [separator_of_ne hv, h, hchars]
    exact Text.intercalate_chars s.toList
  | parts hv hne h =>
    rw [separator_of_ne hv]
    exact h.intercalate_eq

end Builtin

namespace Expr

/-- A text that is split is in parts, told by the first argument, and joining them with the same
arguments, be there one or none, comes to the text. -/
theorem join_split (env : Env) {x : Expr} {arguments : List Expr} {s : String} {args : List Value}
    (hx : x.eval env = .ok (.str s)) (hargs : evalItems env arguments = .ok args) :
    let method (target : Expr) (name : String) := call (member target name false) arguments false
    ∃ parts : List String, Builtin.Divides s (Builtin.arg args 0) parts ∧
      (method x "split").eval env = .ok (.arr (parts.map .str)) ∧
      (method (method x "split") "join").eval env = .ok (.str s) := by
  intro method
  obtain ⟨parts, hdivides, hcall⟩ := Builtin.exists_divides s args
  have hsplit : (method x "split").eval env = .ok (.arr (parts.map .str)) := by
    rw [eval_method hx nofun hargs, hcall]
  refine ⟨parts, hdivides, hsplit, ?_⟩
  rw [eval_method hsplit nofun hargs, Builtin.callMethod_join, hdivides.intercalate_eq]

/-- A separator that is a number splits where its digits are, also next to each other and at the
end. -/
theorem join_split_at_digits :
    let env : Env := ⟨[], 0⟩
    let x := literal (.str "a00b0")
    let split := call (member x "split" false) [literal (.nat 0)] false
    x.eval env = .ok (.str "a00b0") ∧
    evalItems env [literal (.nat 0)] = .ok [.nat 0] ∧
    split.eval env = .ok (.arr [.str "a", .str "", .str "b", .str ""]) ∧
    (call (member split "join" false) [literal (.nat 0)] false).eval env = .ok (.str "a00b0") := by
  intro env x split
  have value := eval_literal env
  have hargs := evalItems_cons (value (.nat 0)) evalItems_nil
  obtain ⟨parts, -, -, hjoin⟩ := join_split env (value (.str "a00b0")) hargs
  have hsplit := eval_method (value (.str "a00b0")) (by simp) hargs "split" false false
  exact ⟨value _, hargs, hsplit.trans rfl, hjoin⟩

end Expr

end LivePage
