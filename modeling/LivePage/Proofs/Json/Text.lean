import Mathlib.Data.List.DropRight
import LivePage.Proofs.Json.Nesting
import LivePage.Proofs.Json.Scalar

/-!
# Documents that are read from their text

The text of a value is read as the document of this value, if each of its numbers is read from its
own text.
-/

namespace LivePage

namespace Value

mutual

/-- All numbers in a value. -/
def numbers : Value → List Number
  | num n => [n]
  | arr items => numbersOfItems items
  | obj members => numbersOfMembers members
  | _ => []

def numbersOfItems : List Value → List Number
  | [] => []
  | v :: r => v.numbers ++ numbersOfItems r

def numbersOfMembers : List (String × Value) → List Number
  | [] => []
  | (_, v) :: r => v.numbers ++ numbersOfMembers r

end

end Value

namespace Json

/-- A number is read again from its text. -/
def Lossless (n : Number) : Prop := parse (numberText n) = .ok (.num n)

/-! ## Blanks -/

section Blanks

variable {fuel depth : Nat} {cs rest : List Char}

theorem skipSpace_append_of_nil (h : skipSpace cs = []) :
    skipSpace (cs ++ rest) = skipSpace rest := by
  rw [skipSpace] at h
  rw [skipSpace, List.dropWhile_append, h]
  rfl

theorem skipSpace_append_of_cons {c : Char} {r : List Char} (h : skipSpace cs = c :: r) :
    skipSpace (cs ++ rest) = c :: (r ++ rest) := by
  rw [skipSpace] at h
  rw [skipSpace, List.dropWhile_append, h]
  rfl

theorem length_pos_of_skipSpace {c : Char} {r : List Char} (h : skipSpace cs = c :: r) :
    0 < cs.length := by
  cases cs with
  | nil => cases h
  | cons => exact Nat.succ_pos _

theorem skipSpace_skipSpace (cs : List Char) : skipSpace (skipSpace cs) = skipSpace cs :=
  List.dropWhile_idempotent _ _

theorem readTree_skipSpace (cs : List Char) :
    readTree (fuel + 1) depth (skipSpace cs) = readTree (fuel + 1) depth cs := by
  rw [readTree, readTree, skipSpace_skipSpace]

end Blanks

/-- What may follow a value: the end of the text, or a mark that ends an item or a member. -/
inductive Follows : List Char → Prop where
  | nil : Follows []
  | comma (r : List Char) : Follows (',' :: r)
  | bracket (r : List Char) : Follows (']' :: r)
  | brace (r : List Char) : Follows ('\x7d' :: r)

namespace Follows

variable {rest : List Char}

theorem stops (h : Follows rest) : Stops rest := by
  cases h with
  | nil => nofun
  | comma | bracket | brace =>
    intro c hc
    cases hc
    decide

theorem skipSpace_eq (h : Follows rest) : skipSpace rest = rest := by
  cases h <;> rfl

end Follows

/-! ## Values -/

variable {fuel depth : Nat} {rest : List Char} {n : Number}

theorem tree_read (cs : List Char) : (read cs).tree = (readTree (cs.length + 1) 0 cs).1 := by
  rw [read]
  split
  · next h => rw [h]
  · next h => rw [h]

theorem after_read {cs r : List Char} (h : (readTree (cs.length + 1) 0 cs).2 = some r) :
    (read cs).after = if (skipSpace r).isEmpty then none else some .malformed := by
  rw [read]
  split
  · next read =>
    rw [read] at h
    cases h
  · next read =>
    rw [read] at h
    cases h
    rfl

/-- The text of a number that is read again is a numeral between blanks, if there are any. -/
theorem Lossless.numeral (h : Lossless n) : ∃ negative ds r,
    Numeral negative ds (skipSpace (numberText n).toList) ∧
      readNumber negative ds = .ok (some n, r) ∧ skipSpace r = [] := by
  rw [Lossless, parse, Source.value] at h
  obtain ⟨v, hv, h⟩ := bind_eq_ok_iff.mp h
  split at h
  · next after =>
    cases h
    rw [tree_read] at hv
    obtain ⟨negative, ds, r, numeral, number, found⟩ := numeral_of_readTree hv
    refine ⟨negative, ds, r, numeral, number, ?_⟩
    rw [after_read found] at after
    simpa using after
  · cases h

theorem Numeral.append {negative : Bool} {ds cs : List Char} (h : Numeral negative ds cs)
    (rest : List Char) : Numeral negative (ds ++ rest) (cs ++ rest) := by
  cases h with
  | signed => exact .signed
  | plain digit => exact .plain digit

theorem Numeral.cons {negative : Bool} {ds cs : List Char} (h : Numeral negative ds cs) :
    ∃ c r, cs = c :: r ∧ c ≠ ']' := by
  cases h with
  | signed => exact ⟨_, _, rfl, by decide⟩
  | plain digit =>
    refine ⟨_, _, rfl, ?_⟩
    rintro rfl
    cases digit

/-- A number is read again within a text. -/
theorem Lossless.readTree (h : Lossless n) (follows : Follows rest) : ∃ r,
    Json.readTree (fuel + 1) depth ((numberText n).toList ++ rest) = (.num n, some r) ∧
      skipSpace r = rest := by
  obtain ⟨negative, ds, r, numeral, number, blank⟩ := h.numeral
  obtain ⟨c, cs, start, -⟩ := numeral.cons
  have numeral' : Numeral negative (ds ++ rest) (skipSpace ((numberText n).toList ++ rest)) := by
    rw [skipSpace_append_of_cons start, ← List.cons_append, ← start]
    exact numeral.append rest
  refine ⟨r ++ rest, readTree_of_numeral numeral' (readNumber_append follows.stops number), ?_⟩
  rw [skipSpace_append_of_nil blank, follows.skipSpace_eq]

/-! ## Lists and objects -/

/-- The text between the brackets of a list. -/
def itemsText (vs : List Value) : List Char := (",".intercalate (compactItems vs)).toList

/-- The text between the braces of an object. -/
def membersText (ms : List (String × Value)) : List Char :=
  (",".intercalate (compactMembers ms)).toList

section Texts

variable {v w : Value} {vs : List Value} {k l : String} {ms : List (String × Value)}

theorem itemsText_singleton : itemsText [v] = (compact v).toList := by
  simp [itemsText, compactItems]

theorem itemsText_cons_cons :
    itemsText (v :: w :: vs) = (compact v).toList ++ ',' :: itemsText (w :: vs) := by
  simp [itemsText, compactItems, String.toList_intercalate]

theorem membersText_singleton :
    membersText [(k, v)] = (quote k).toList ++ ':' :: (compact v).toList := by
  simp [membersText, compactMembers]

theorem membersText_cons_cons : membersText ((k, v) :: (l, w) :: ms) =
    (quote k).toList ++ ':' :: ((compact v).toList ++ ',' :: membersText ((l, w) :: ms)) := by
  simp [membersText, compactMembers, String.toList_intercalate]

theorem toList_compact_arr : (compact (.arr vs)).toList = '[' :: (itemsText vs ++ [']']) := by
  simp [compact, itemsText]

theorem toList_compact_obj :
    (compact (.obj ms)).toList = '\x7b' :: (membersText ms ++ ['\x7d']) := by
  simp [compact, membersText]

theorem exists_itemsText_eq (v : Value) (vs : List Value) :
    ∃ cs, itemsText (v :: vs) = (compact v).toList ++ cs := by
  cases vs with
  | nil => exact ⟨[], by rw [itemsText_singleton, List.append_nil]⟩
  | cons w vs => exact ⟨_, itemsText_cons_cons⟩

theorem exists_membersText_eq (k : String) (v : Value) (ms : List (String × Value)) :
    ∃ cs, membersText ((k, v) :: ms) = '"' :: cs := by
  cases ms with
  | nil =>
    rw [membersText_singleton, toList_quote]
    exact ⟨_, rfl⟩
  | cons m ms =>
    obtain ⟨l, w⟩ := m
    rw [membersText_cons_cons, toList_quote]
    exact ⟨_, rfl⟩

end Texts

theorem readTree_bracket {cs r : List Char} {c : Char} (start : skipSpace cs = c :: r)
    (hc : c ≠ ']') : readTree (fuel + 1) depth ('[' :: cs) =
      let (items, broken, rest) := readItems fuel (depth + 1) [] (skipSpace cs)
      (inDepth depth (.arr items broken), rest) := by
  have head : skipSpace ('[' :: cs) = '[' :: cs := rfl
  rw [readTree, head, start]
  split
  case h_7 same =>
    cases same
    rw [start]
    split
    · next same => cases same
    · next same =>
      cases same
      exact absurd rfl hc
    · rfl
  case h_9 bracket _ same =>
    cases same
    exact absurd rfl bracket
  all_goals
    next same => cases same

theorem readTree_brace {cs r : List Char} (start : cs = '"' :: r) :
    readTree (fuel + 1) depth ('\x7b' :: cs) =
      let (members, broken, rest) := readMembers fuel (depth + 1) [] cs
      (inDepth depth (.obj members broken), rest) := by
  have head : skipSpace ('\x7b' :: cs) = '\x7b' :: cs := rfl
  rw [readTree, head, start]
  split
  case h_8 same =>
    cases same
    rfl
  case h_9 brace same =>
    cases same
    exact absurd rfl brace
  all_goals
    next same => cases same

theorem readQuoted_toList_quote (s : String) (rest : List Char) :
    ∃ r, (quote s).toList ++ rest = '"' :: r ∧ readQuoted {} r = .ok (some s, rest) := by
  refine ⟨s.toList.flatMap escape ++ '"' :: rest, ?_, readQuoted_quote s⟩
  rw [toList_quote, List.cons_append, List.append_assoc, List.singleton_append]

theorem readTree_quote (s : String) :
    readTree (fuel + 1) depth ((quote s).toList ++ rest) = (.str s, some rest) := by
  obtain ⟨r, start, read⟩ := readQuoted_toList_quote s rest
  rw [start, readTree]
  change quoted (readQuoted {} r) = _
  rw [read]
  rfl

section Steps

variable {cs cs' r : List Char} {c : Char} {t : Tree} {acc : List Tree} {k : String}
  {accMembers : List (Except Fault String × Tree)}

theorem readItems_last (read : readTree fuel depth cs = (t, some r))
    (close : skipSpace r = ']' :: rest) :
    readItems (fuel + 1) depth acc cs = ((t :: acc).reverse, none, some rest) := by
  rw [readItems, read]
  dsimp only
  rw [close]
  rfl

theorem readItems_next (read : readTree fuel depth cs = (t, some r))
    (comma : skipSpace r = ',' :: cs') (start : skipSpace cs' = c :: rest) (hc : c ≠ ']') :
    readItems (fuel + 1) depth acc cs = readItems fuel depth (t :: acc) (skipSpace cs') := by
  rw [readItems, read]
  dsimp only
  rw [comma]
  split
  case h_2 same =>
    cases same
    rw [start]
    split
    · next same => cases same
    · next same =>
      cases same
      exact absurd rfl hc
    · rfl
  case h_3 other => exact absurd rfl (other cs')
  all_goals
    next same => cases same

/-- What is read behind a member. -/
def readOn (fuel depth : Nat) (acc : List (Except Fault String × Tree)) :
    List Char → List (Except Fault String × Tree) × Option Fault × Option (List Char)
  | '\x7d' :: r => (acc.reverse, none, some r)
  | ',' :: r => readMembers fuel depth acc (skipSpace r)
  | r => (acc.reverse, some (faultAt r), none)

theorem readMembers_quoted (key : readQuoted {} cs = .ok (some k, ':' :: cs'))
    (read : readTree fuel depth cs' = (t, some r)) :
    readMembers (fuel + 1) depth accMembers ('"' :: cs) =
      readOn fuel depth ((.ok k, t) :: accMembers) (skipSpace r) := by
  have colon : skipSpace (':' :: cs') = ':' :: cs' := rfl
  rw [readMembers, key]
  dsimp only
  rw [colon]
  split
  case h_1 same =>
    cases same
    rw [read]
    rfl
  case h_2 other => exact absurd rfl (other cs')

theorem readMembers_last (key : readQuoted {} cs = .ok (some k, ':' :: cs'))
    (read : readTree fuel depth cs' = (t, some r)) (close : skipSpace r = '\x7d' :: rest) :
    readMembers (fuel + 1) depth accMembers ('"' :: cs) =
      (((.ok k, t) :: accMembers).reverse, none, some rest) := by
  rw [readMembers_quoted key read, close, readOn]

theorem readMembers_next (key : readQuoted {} cs = .ok (some k, ':' :: cs'))
    (read : readTree fuel depth cs' = (t, some r)) (comma : skipSpace r = ',' :: rest) :
    readMembers (fuel + 1) depth accMembers ('"' :: cs) =
      readMembers fuel depth ((.ok k, t) :: accMembers) (skipSpace rest) := by
  rw [readMembers_quoted key read, comma, readOn]

end Steps

/-- A value that is read from its text. -/
structure Reads (v : Value) : Prop where
  /-- Its text is not taken for the end of a list. -/
  start : ∃ c r, skipSpace (compact v).toList = c :: r ∧ c ≠ ']'
  read : ∀ (fuel depth : Nat) {rest : List Char}, (compact v).toList.length ≤ fuel + 1 →
    Follows rest → ∃ r, readTree (fuel + 1) depth ((compact v).toList ++ rest) =
      (.within depth v, some r) ∧ skipSpace r = rest

section Reads

variable {v : Value} {vs : List Value} {k : String} {ms : List (String × Value)}

theorem Reads.items_start (first : Reads v) (vs : List Value) :
    ∃ c r, skipSpace (itemsText (v :: vs)) = c :: r ∧ c ≠ ']' := by
  obtain ⟨c, r, start, hc⟩ := first.start
  obtain ⟨cs, text⟩ := exists_itemsText_eq v vs
  rw [text, skipSpace_append_of_cons start]
  exact ⟨c, _, rfl, hc⟩

theorem readItems_itemsText (each : ∀ w ∈ v :: vs, Reads w) {acc : List Tree}
    (enough : (itemsText (v :: vs)).length ≤ fuel + 1) :
    readItems (fuel + 2) depth acc (skipSpace (itemsText (v :: vs) ++ ']' :: rest)) =
      (acc.reverse ++ withinItems depth (v :: vs), none, some rest) := by
  induction vs generalizing v fuel acc with
  | nil =>
    obtain ⟨first, -⟩ := List.forall_mem_cons.mp each
    rw [itemsText_singleton] at enough ⊢
    obtain ⟨r, read, close⟩ := first.read fuel depth enough (.bracket rest)
    rw [← readTree_skipSpace] at read
    rw [readItems_last read close, List.reverse_cons]
    rfl
  | cons w vs ih =>
    obtain ⟨first, others⟩ := List.forall_mem_cons.mp each
    obtain ⟨second, -⟩ := List.forall_mem_cons.mp others
    obtain ⟨c, cs, start, hc⟩ := second.items_start vs
    have long := length_pos_of_skipSpace start
    rw [itemsText_cons_cons, List.length_append, List.length_cons] at enough
    obtain ⟨fuel, rfl⟩ := Nat.exists_eq_add_of_le' (show 1 ≤ fuel by omega)
    obtain ⟨r, read, comma⟩ := first.read (fuel + 1) depth (by omega)
      (.comma (itemsText (w :: vs) ++ ']' :: rest))
    rw [← readTree_skipSpace] at read
    rw [itemsText_cons_cons, List.append_assoc, List.cons_append,
      readItems_next read comma (skipSpace_append_of_cons start) hc, ih others (by omega),
      List.reverse_cons, List.append_assoc]
    rfl

theorem readMembers_membersText (each : ∀ m ∈ (k, v) :: ms, Reads m.2)
    {acc : List (Except Fault String × Tree)}
    (enough : (membersText ((k, v) :: ms)).length ≤ fuel + 1) :
    readMembers (fuel + 2) depth acc (membersText ((k, v) :: ms) ++ '\x7d' :: rest) =
      (acc.reverse ++ withinMembers depth ((k, v) :: ms), none, some rest) := by
  induction ms generalizing k v fuel acc with
  | nil =>
    obtain ⟨first, -⟩ := List.forall_mem_cons.mp each
    rw [membersText_singleton, List.length_append, List.length_cons] at enough
    obtain ⟨r, read, close⟩ :=
      first.read fuel depth (by dsimp only; omega) (.brace rest)
    obtain ⟨q, quoted, key⟩ :=
      readQuoted_toList_quote k (':' :: ((compact v).toList ++ '\x7d' :: rest))
    rw [membersText_singleton, List.append_assoc, List.cons_append, quoted,
      readMembers_last key read close, List.reverse_cons]
    rfl
  | cons m ms ih =>
    obtain ⟨l, w⟩ := m
    obtain ⟨first, others⟩ := List.forall_mem_cons.mp each
    obtain ⟨cs, start⟩ := exists_membersText_eq l w ms
    have long : 0 < (membersText ((l, w) :: ms)).length := by
      rw [start]
      exact Nat.succ_pos _
    have same : skipSpace (membersText ((l, w) :: ms) ++ '\x7d' :: rest) =
        membersText ((l, w) :: ms) ++ '\x7d' :: rest := by
      rw [start]
      rfl
    rw [membersText_cons_cons, List.length_append, List.length_cons, List.length_append,
      List.length_cons] at enough
    obtain ⟨fuel, rfl⟩ := Nat.exists_eq_add_of_le' (show 1 ≤ fuel by omega)
    obtain ⟨r, read, comma⟩ := first.read (fuel + 1) depth
      (by dsimp only; omega) (.comma (membersText ((l, w) :: ms) ++ '\x7d' :: rest))
    obtain ⟨q, quoted, key⟩ := readQuoted_toList_quote k
      (':' :: ((compact v).toList ++ ',' :: (membersText ((l, w) :: ms) ++ '\x7d' :: rest)))
    rw [membersText_cons_cons, List.append_assoc, List.cons_append, List.append_assoc,
      List.cons_append, quoted, readMembers_next key read comma, same, ih others (by omega),
      List.reverse_cons, List.append_assoc]
    rfl

theorem reads_num (h : Lossless n) : Reads (.num n) where
  start := by
    obtain ⟨negative, ds, r, numeral, -⟩ := h.numeral
    exact numeral.cons
  read _ _ _ _ follows := h.readTree follows

theorem reads_arr (each : ∀ v ∈ vs, Reads v) : Reads (.arr vs) where
  start := by
    rw [toList_compact_arr]
    exact ⟨'[', _, rfl, by decide⟩
  read fuel depth rest enough follows := by
    refine ⟨rest, ?_, follows.skipSpace_eq⟩
    cases vs with
    | nil =>
      rw [readTree]
      rfl
    | cons v vs =>
      obtain ⟨c, cs, start, hc⟩ := (each v (.head _)).items_start vs
      have long := length_pos_of_skipSpace start
      rw [toList_compact_arr, List.length_cons, List.length_append, List.length_singleton] at enough
      obtain ⟨fuel, rfl⟩ := Nat.exists_eq_add_of_le' (show 2 ≤ fuel by omega)
      rw [toList_compact_arr, List.cons_append, List.append_assoc, List.singleton_append,
        readTree_bracket (skipSpace_append_of_cons start) hc, readItems_itemsText each (by omega)]
      rfl

theorem reads_obj (each : ∀ m ∈ ms, Reads m.2) : Reads (.obj ms) where
  start := by
    rw [toList_compact_obj]
    exact ⟨'\x7b', _, rfl, by decide⟩
  read fuel depth rest enough follows := by
    refine ⟨rest, ?_, follows.skipSpace_eq⟩
    cases ms with
    | nil =>
      rw [readTree]
      rfl
    | cons m ms =>
      obtain ⟨k, v⟩ := m
      obtain ⟨cs, start⟩ := exists_membersText_eq k v ms
      have long : 0 < (membersText ((k, v) :: ms)).length := by
        rw [start]
        exact Nat.succ_pos _
      rw [toList_compact_obj, List.length_cons, List.length_append, List.length_singleton] at enough
      obtain ⟨fuel, rfl⟩ := Nat.exists_eq_add_of_le' (show 2 ≤ fuel by omega)
      rw [toList_compact_obj, List.cons_append, List.append_assoc, List.singleton_append,
        readTree_brace (r := cs ++ '\x7d' :: rest) (by rw [start, List.cons_append]),
        readMembers_membersText each (by omega)]
      rfl

theorem reads_scalar (h : v = .null ∨ (∃ b, v = .bool b) ∨ ∃ s, v = .str s) : Reads v where
  start := by
    obtain rfl | ⟨_ | _, rfl⟩ | ⟨s, rfl⟩ := h
    · exact ⟨'n', _, rfl, by decide⟩
    · exact ⟨'f', _, rfl, by decide⟩
    · exact ⟨'t', _, rfl, by decide⟩
    · rw [compact, toList_quote]
      exact ⟨'"', _, rfl, by decide⟩
  read fuel depth rest enough follows := by
    refine ⟨rest, ?_, follows.skipSpace_eq⟩
    obtain rfl | ⟨_ | _, rfl⟩ | ⟨s, rfl⟩ := h
    · rw [readTree]
      rfl
    · rw [readTree]
      rfl
    · rw [readTree]
      rfl
    · exact readTree_quote s

end Reads

mutual

/-- Every value is read from its text, if its numbers are. -/
theorem reads : (v : Value) → (∀ n ∈ v.numbers, Lossless n) → Reads v
  | .null, _ => reads_scalar (.inl rfl)
  | .bool b, _ => reads_scalar (.inr (.inl ⟨b, rfl⟩))
  | .str s, _ => reads_scalar (.inr (.inr ⟨s, rfl⟩))
  | .num n, h => reads_num (h n (.head _))
  | .arr items, h => reads_arr (reads_items items h)
  | .obj members, h => reads_obj (reads_members members h)

theorem reads_items : (vs : List Value) → (∀ n ∈ Value.numbersOfItems vs, Lossless n) →
    ∀ v ∈ vs, Reads v
  | [], _ => nofun
  | v :: vs, h => by
    obtain ⟨first, others⟩ := List.forall_mem_append.mp h
    exact List.forall_mem_cons.mpr ⟨reads v first, reads_items vs others⟩

theorem reads_members : (ms : List (String × Value)) →
    (∀ n ∈ Value.numbersOfMembers ms, Lossless n) → ∀ m ∈ ms, Reads m.2
  | [], _ => nofun
  | (k, v) :: ms, h => by
    obtain ⟨first, others⟩ := List.forall_mem_append.mp h
    exact List.forall_mem_cons.mpr ⟨reads v first, reads_members ms others⟩

end

/-- The document of a value in which lists and objects are nested no deeper than the reader goes. -/
theorem read_compact {v : Value} (numbers : ∀ n ∈ v.numbers, Lossless n) :
    read (compact v).toList = ⟨.within 0 v, none⟩ := by
  obtain ⟨r, found, blank⟩ := (reads v numbers).read _ 0
    (Nat.le_succ (compact v).toList.length) .nil
  rw [List.append_nil] at found
  have tree := tree_read (compact v).toList
  have after := after_read (congrArg Prod.snd found)
  rw [found] at tree
  rw [blank] at after
  cases h : read (compact v).toList
  rw [h] at tree after
  exact congrArg₂ Source.mk tree after

end Json

end LivePage
