import Mathlib
import LivePage.Proofs.Safety.Builtin

/-!
# Where a text occurs

A text occurs at a place where it is a prefix of the rest, and a search finds the first of these.  A
search by bytes finds the same place: bytes of a text are those of its characters, one after
another, and only the first byte of a character can start one.  So the bytes of a text that is not
empty occur just where its characters do.
-/

namespace LivePage.Text

variable {needle cs ds : List Char} {i b : Nat}

/-! ## The first place -/

/-- What is found is a place where the text occurs, and no place is before it. -/
theorem isLeast_of_find? (h : find? needle cs = some i) :
    IsLeast {j | needle <+: cs.drop j} i := by
  induction cs generalizing i with
  | nil =>
    rw [find?, Option.ite_none_right_eq_some] at h
    obtain ⟨hempty, hzero⟩ := h
    cases hzero
    rw [List.isEmpty_iff.mp hempty]
    exact ⟨List.nil_prefix, fun j _ ↦ Nat.zero_le j⟩
  | cons c r ih =>
    rw [find?] at h
    split at h
    · next hp =>
      cases h
      exact ⟨List.isPrefixOf_iff_prefix.mp hp, fun j _ ↦ Nat.zero_le j⟩
    · next hp =>
      obtain ⟨j, hj, rfl⟩ := Option.map_eq_some_iff.mp h
      obtain ⟨hoccurs, hfirst⟩ := ih hj
      refine ⟨hoccurs, fun k hk ↦ ?_⟩
      cases k with
      | zero => exact absurd (List.isPrefixOf_iff_prefix.mpr hk) hp
      | succ k => exact Nat.succ_le_succ (hfirst hk)

theorem find?_eq_none_iff : find? needle cs = none ↔ ¬ needle <:+: cs := by
  induction cs with
  | nil =>
    rw [find?, List.infix_nil]
    cases needle <;> simp
  | cons c r ih =>
    rw [find?, List.infix_cons_iff, not_or, ← ih, ← List.isPrefixOf_iff_prefix]
    split
    · next hp => simp [hp]
    · next hp => simp [hp]

theorem isSome_find?_iff : (find? needle cs).isSome = true ↔ needle <:+: cs := by
  rw [Option.isSome_iff_ne_none, ne_eq, find?_eq_none_iff, not_not]

/-- A text that is found is there with all its characters. -/
theorem length_add_le_of_find? (h : find? needle cs = some i) :
    i + needle.length ≤ cs.length := by
  have hle := find?_le h
  have hlen := (isLeast_of_find? h).1.length_le
  rw [List.length_drop] at hlen
  omega

/-! ## Bytes -/

/-- The bytes of a text, those of each character after those of the one before it. -/
def octets (cs : List Char) : List UInt8 := cs.flatMap String.utf8EncodeChar

@[simp] theorem octets_nil : octets [] = [] := rfl

theorem octets_cons (c : Char) (cs : List Char) :
    octets (c :: cs) = String.utf8EncodeChar c ++ octets cs := rfl

theorem octets_append (cs ds : List Char) : octets (cs ++ ds) = octets cs ++ octets ds :=
  List.flatMap_append

theorem length_octets (cs : List Char) : (octets cs).length = byteLength cs := by
  induction cs with
  | nil => rfl
  | cons c r ih =>
    rw [octets_cons, List.length_append, String.length_utf8EncodeChar, ih, byteLength_cons]

/-- A text is read off its bytes, whatever follows them. -/
theorem prefix_of_isPrefix_octets (h : octets ds <+: octets cs) : ds <+: cs := by
  obtain ⟨rest, h⟩ := h
  apply List.isPrefix_of_utf8Encode_append_eq_utf8Encode rest.toByteArray
  rw [List.utf8Encode, List.utf8Encode, ← List.toByteArray_append]
  exact congrArg List.toByteArray h

theorem isPrefix_octets (h : ds <+: cs) : octets ds <+: octets cs := by
  obtain ⟨rest, rfl⟩ := h
  rw [octets_append]
  exact List.prefix_append _ _

theorem byteLength_take_le {i j : Nat} (h : i ≤ j) (cs : List Char) :
    byteLength (cs.take i) ≤ byteLength (cs.take j) := by
  rw [← length_octets, ← length_octets]
  exact (isPrefix_octets (List.take_prefix_take_left h)).length_le

theorem drop_octets (cs : List Char) (i : Nat) :
    (octets cs).drop (byteLength (cs.take i)) = octets (cs.drop i) := by
  rw [← length_octets]
  conv_lhs => rw [← List.take_append_drop i cs, octets_append]
  rw [List.take_append_drop, List.drop_left]

/-- Where the bytes of a character occur a character starts, for no byte inside of one can be the
first of another. -/
theorem exists_place_of_octets {d : Char} (h : octets (d :: ds) <+: (octets cs).drop b) :
    ∃ i, byteLength (cs.take i) = b := by
  induction cs generalizing b with
  | nil =>
    rw [octets_nil, List.drop_nil, List.prefix_nil, octets_cons] at h
    exact absurd (List.append_eq_nil_iff.mp h).1 String.utf8EncodeChar_ne_nil
  | cons c r ih =>
    rcases Nat.lt_or_ge b (String.utf8EncodeChar c).length with hb | hb
    · have hpos : 0 < (String.utf8EncodeChar d).length :=
        List.length_pos_of_ne_nil String.utf8EncodeChar_ne_nil
      have hbyte : (String.utf8EncodeChar d)[0] = (String.utf8EncodeChar c)[b] := by
        have hget := h.getElem (i := 0) (by rw [octets_cons, List.length_append]; omega)
        simpa only [octets_cons, List.getElem_append_left hpos, List.getElem_drop, Nat.add_zero,
          List.getElem_append_left hb] using hget
      have hfirst : (String.utf8EncodeChar c)[b].IsUTF8FirstByte := by
        rw [← hbyte]
        exact UInt8.isUTF8FirstByte_getElem_zero_utf8EncodeChar
      obtain rfl : b = 0 := UInt8.isUTF8FirstByte_getElem_utf8EncodeChar.mp hfirst
      exact ⟨0, rfl⟩
    · obtain ⟨k, rfl⟩ := Nat.exists_eq_add_of_le hb
      rw [octets_cons c r, List.drop_length_add_append] at h
      obtain ⟨i, hi⟩ := ih h
      refine ⟨i + 1, ?_⟩
      rw [List.take_succ_cons, byteLength_cons, hi, String.length_utf8EncodeChar]

theorem isPrefix_octets_drop_iff (hne : needle ≠ []) : octets needle <+: (octets cs).drop b ↔
    ∃ i, byteLength (cs.take i) = b ∧ needle <+: cs.drop i := by
  constructor
  · intro h
    cases needle with
    | nil => exact absurd rfl hne
    | cons d ds =>
      obtain ⟨i, rfl⟩ := exists_place_of_octets h
      rw [drop_octets] at h
      exact ⟨i, rfl, prefix_of_isPrefix_octets h⟩
  · rintro ⟨i, rfl, h⟩
    rw [drop_octets]
    exact isPrefix_octets h

theorem isLeast_of_findByte? (h : findByte? needle cs = some b) :
    IsLeast {k | octets needle <+: (octets cs).drop k} b := by
  obtain ⟨i, hi, rfl⟩ := Option.map_eq_some_iff.mp h
  obtain ⟨hoccurs, hfirst⟩ := isLeast_of_find? hi
  constructor
  · change octets needle <+: (octets cs).drop (byteLength (cs.take i))
    rw [drop_octets]
    exact isPrefix_octets hoccurs
  · intro k hk
    by_cases hne : needle = []
    · have hzero : i ≤ 0 := hfirst (by rw [hne]; exact List.nil_prefix)
      rw [Nat.le_zero.mp hzero]
      exact Nat.zero_le k
    · obtain ⟨j, rfl, hj⟩ := (isPrefix_octets_drop_iff hne).mp hk
      exact byteLength_take_le (hfirst hj) cs

end LivePage.Text
