import LivePage.Proofs.Context.Document
import LivePage.Proofs.Path.Lens
import LivePage.Proofs.Path.Scan

/-!
# Paths as text

A path is written as its keys, with a point in front of each but the first, and its indices in
brackets.  Keys without points and opening brackets are read back as they are written, also where
they look like numbers or hold quotes and closing brackets, and so what is written at the text of a
path is found at the same text.
-/

namespace LivePage

section Digits

variable {i : Nat}

theorem notMem_toDigits {c : Char} (hc : c.isDigit = false) : c ∉ Nat.toDigits 10 i := by
  intro hm
  have := Nat.isDigit_of_mem_toDigits (by decide) (by decide) hm
  simp [hc] at this

/-- The digits of a word are read as the index that they spell. -/
theorem readIndex?_toDigits (h : i < 2 ^ 64) : readIndex? (Nat.toDigits 10 i) = some i := by
  have hdigits : (Nat.toDigits 10 i).all Char.isDigit = true :=
    List.all_eq_true.mpr fun c hc ↦ Nat.isDigit_of_mem_toDigits (by decide) (by decide) hc
  have hne : (Nat.toDigits 10 i).isEmpty = false := by simp
  have hvalue : (Nat.toDigits 10 i).foldl (fun n c ↦ 10 * n + (c.toNat - '0'.toNat)) 0 = i :=
    Nat.ofDigitChars_ten_toDigits
  have hplus : ∀ r, Nat.toDigits 10 i ≠ '+' :: r := fun r he ↦
    notMem_toDigits (by decide) (he ▸ List.mem_cons_self)
  unfold readIndex?
  split
  · next r he => exact absurd he (hplus r)
  · simp only [hne, hdigits, hvalue, Bool.not_true, Bool.or_self, Bool.false_eq_true, if_false]
    exact if_pos h

end Digits

namespace Segment

variable {i : Nat}

/-- What is read back as it is written: a key that has characters, but no points and no opening
brackets, and an index that fits a word. -/
def Plain : Segment → Prop
  | key k => k ≠ "" ∧ '.' ∉ k.toList ∧ '[' ∉ k.toList
  | index i => i < 2 ^ 64

instance : DecidablePred Plain
  | key k => inferInstanceAs (Decidable (k ≠ "" ∧ '.' ∉ k.toList ∧ '[' ∉ k.toList))
  | index i => inferInstanceAs (Decidable (i < 2 ^ 64))

theorem toList_text_index (i : Nat) :
    (index i).text.toList = '[' :: (Nat.toDigits 10 i ++ [']']) := by
  rw [text, String.toList_append, String.toList_append]
  exact congrArg (fun ds ↦ '[' :: (ds ++ [']'])) Nat.toList_repr

theorem point_notMem_text_index (i : Nat) : '.' ∉ (index i).text.toList := by
  rw [toList_text_index, List.mem_cons, List.mem_append]
  exact not_or.mpr ⟨by decide, not_or.mpr ⟨notMem_toDigits (by decide), by decide⟩⟩

theorem ofBody_toDigits (h : i < 2 ^ 64) : ofBody (Nat.toDigits 10 i) = index i := by
  rw [ofBody, readIndex?_toDigits h]

end Segment

namespace Path

variable {cs x : List Char} {p : Path} {i : Nat} {k : String}

theorem place_append_index (h : place cs ≠ .leftover) (i : Nat) :
    place (cs ++ (Segment.index i).text.toList) = .behind := by
  rw [place_append, Segment.toList_text_index]
  exact Place.walk_bracket h (notMem_toDigits (by decide)) (notMem_toDigits (by decide))

/-- An index in brackets is read where a bracket opens. -/
theorem read_append_index (h : place cs = .name ∨ place cs = .behind) (hi : i < 2 ^ 64) :
    read (cs ++ (Segment.index i).text.toList) = read cs ++ [.index i] := by
  have hx : '.' ∉ Nat.toDigits 10 i ++ [']'] := by
    rw [List.mem_append]
    exact not_or.mpr ⟨notMem_toDigits (by decide), by decide⟩
  rw [Segment.toList_text_index, read_append_bracket h hx,
    brackets_closed (notMem_toDigits (by decide)), List.reverse_nil, List.nil_append,
    Segment.ofBody_toDigits hi, brackets_none_nil]

theorem read_key (h : (Segment.key k).Plain) : read k.toList = [.key k] := by
  obtain ⟨hne, hpoint, hbracket⟩ := h
  have hempty : ¬k.toList.isEmpty = true := by simpa using hne
  rw [read_part hpoint, ofPart_of_notMem hbracket, if_neg hempty, String.ofList_toList]

/-- The text of segments behind others. -/
def trail : Path → List Char
  | [] => []
  | .key k :: p => '.' :: (k.toList ++ trail p)
  | .index i :: p => (Segment.index i).text.toList ++ trail p

/-- The text of a path: keys as they are, with a point in front of each but the first, and indices
in brackets. -/
def written : Path → String
  | .key k :: p => String.ofList (k.toList ++ trail p)
  | p => String.ofList (trail p)

/-- Segments are read back behind a name and behind a bracket. -/
theorem read_append_trail (hp : ∀ s ∈ p, s.Plain) (h : place cs = .name ∨ place cs = .behind) :
    read (cs ++ trail p) = read cs ++ p := by
  induction p generalizing cs with
  | nil => rw [trail, List.append_nil, List.append_nil]
  | cons s p ih =>
    obtain ⟨hs, hrest⟩ := List.forall_mem_cons.mp hp
    cases s with
    | key k =>
      have hname : place k.toList = .name := Place.walk_name hs.2.2
      rw [trail, read_append_point, ih hrest (.inl hname), read_key hs]
      rfl
    | index i =>
      have hopen : place cs ≠ .leftover := by rcases h with h | h <;> exact h.trans_ne nofun
      have hbehind := place_append_index hopen i
      rw [trail, ← List.append_assoc, ih hrest (.inr hbehind), read_append_index h hs,
        List.append_assoc]
      rfl

theorem parse_written (hp : ∀ s ∈ p, s.Plain) : parse p.written = p := by
  have hstart : read ([] ++ trail p) = read [] ++ p := read_append_trail hp (.inl rfl)
  match p with
  | [] => exact hstart
  | .index i :: p => exact (congrArg read String.toList_ofList).trans hstart
  | .key k :: p =>
    obtain ⟨hk, hp⟩ := List.forall_mem_cons.mp hp
    have hname : place k.toList = .name := Place.walk_name hk.2.2
    rw [written, parse_eq_read, String.toList_ofList, read_append_trail hp (.inl hname),
      read_key hk]
    rfl

end Path

namespace Context

/-- What is written at a text is looked up there. -/
theorem lookup_assign {c : Context} {k : Namespace} {path : String} {v : Value}
    (h : (c.assign k path v).2 = none) : (c.assign k path v).1.lookup k path = v := by
  have hfails (hat : ¬k.Writable ∨ Path.parse path = [] ∨
      ∃ i rest, Path.parse path = .index i :: rest) : False := by
    have hf := (write_fails_at_once (c := c) v hat).2
    rw [assign] at h
    simp [h] at hf
  have hk : k.Writable := by
    by_contra hk
    exact hfails (.inl hk)
  obtain ⟨key, rest, hp⟩ : ∃ key rest, Path.parse path = .key key :: rest := by
    rcases hp : Path.parse path with _ | ⟨key | i, rest⟩
    · exact (hfails (.inr (.inl hp))).elim
    · exact ⟨key, rest, rfl⟩
    · exact (hfails (.inr (.inr ⟨i, rest, hp⟩))).elim
  rw [assign, hp] at h
  obtain ⟨hs, hf, -⟩ := snapshot_write_key (c := c) hk v key rest
  rw [lookup, resolve_eq_getD, Value.getD, assign, hp, hs, Value.get?_write (hf.symm.trans h),
    Option.getD_some]

end Context

namespace Path

/-- The text of a path is a faithful code of it: it is read back as the path, and where a write at it
succeeds, in a value or in a part of a context, what was written is found at the same text. -/
theorem written_is_read_back {p : Path} (hp : ∀ s ∈ p, s.Plain) :
    parse p.written = p ∧
    (∀ root v : Value, (Value.write v (parse p.written) root).2 = none →
      (Value.write v (parse p.written) root).1.lookup p.written = v) ∧
    ∀ (c : Context) (k : Namespace) (v : Value), (c.assign k p.written v).2 = none →
      (c.assign k p.written v).1.lookup k p.written = v := by
  refine ⟨parse_written hp, fun root v h ↦ ?_, fun c k v ↦ Context.lookup_assign⟩
  rw [Value.lookup, Value.getD, Value.get?_write h, Option.getD_some]

/-- Keys that look like a number or like the end of a bracket, and indices behind one another, are
read back, and what is written there is found. -/
theorem written_number_as_key :
    let p : Path := [.key "a]", .index 1, .index 0, .key "7"]
    let m : Fields Value := [("a]", .arr [.null, .arr [.obj []]])]
    let c : Context := { state := m }
    p.written = "a][1][0].7" ∧ parse "a][1][0].7" = p ∧
    (Value.write (.bool true) (parse "a][1][0].7") (.obj m)).1.lookup "a][1][0].7" = .bool true ∧
    (c.assign .state "a][1][0].7" (.bool true)).1.lookup .state "a][1][0].7" = .bool true := by
  intro p m c
  have hp : ∀ s ∈ p, s.Plain := by decide
  have hw : p.written = "a][1][0].7" := by decide
  obtain ⟨hread, hvalue, hpart⟩ := written_is_read_back hp
  rw [hw] at hread hvalue hpart
  refine ⟨hw, hread, hvalue (.obj m) (.bool true) ?_, hpart c .state (.bool true) ?_⟩
  · rw [hread]
    rfl
  · rw [Context.assign, hread]
    rfl

end Path

end LivePage
