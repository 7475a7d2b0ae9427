import LivePage.Proofs.Path.Text

/-!
# Brackets in the text of a path

A key in quotes and brackets is read as that key as long as it has no point: the text is cut at its
points first, also at those between quotes, and a bracket that is cut through is never closed.
Behind a bracket nothing is read but brackets, up to the next point: other text that stands there
changes nothing, and a path with it writes where the path without it does.
-/

namespace LivePage

namespace Segment

variable {q : Char} {k : String}

theorem isQuote_iff : isQuote q = true ↔ q = '"' ∨ q = '\'' := by
  simp [isQuote]

theorem ne_of_isQuote (hq : isQuote q = true) : '.' ≠ q ∧ ']' ≠ q := by
  rcases isQuote_iff.mp hq with rfl | rfl <;> decide

/-- What can be told from quotes and brackets around it. -/
structure Quotable (k : String) : Prop where
  bracket : ']' ∉ k.toList
  first : ∀ c ∈ k.toList.head?, isQuote c = false
  last : ∀ c ∈ k.toList.getLast?, isQuote c = false

theorem dropWhile_isQuote {cs : List Char} (h : ∀ c ∈ cs.head?, isQuote c = false) :
    cs.dropWhile isQuote = cs := by
  cases cs with
  | nil => rfl
  | cons c cs => exact List.dropWhile_cons_of_neg (by simp [h c rfl])

/-- Quotes are taken off both ends, and what starts with one is no index. -/
theorem ofBody_quoted (hq : isQuote q = true) (hk : Quotable k) :
    ofBody (q :: (k.toList ++ [q])) = key k := by
  have hindex : readIndex? (q :: (k.toList ++ [q])) = none := by
    rcases isQuote_iff.mp hq with rfl | rfl <;> simp [readIndex?]
  simp only [ofBody, hindex, List.dropWhile_cons_of_pos hq]
  by_cases hnil : k.toList = []
  · rw [hnil, List.nil_append, List.dropWhile_cons_of_pos hq]
    exact congrArg key (String.toList_eq_nil_iff.mp hnil).symm
  · have hfirst : (k.toList ++ [q]).dropWhile isQuote = k.toList ++ [q] := by
      refine dropWhile_isQuote fun c hc ↦ hk.first c ?_
      rwa [List.head?_append_of_ne_nil _ hnil] at hc
    have hlast : k.toList.reverse.dropWhile isQuote = k.toList.reverse := by
      refine dropWhile_isQuote fun c hc ↦ hk.last c ?_
      rwa [List.head?_reverse] at hc
    rw [hfirst, List.reverse_append, List.reverse_singleton, List.singleton_append,
      List.dropWhile_cons_of_pos hq, hlast, List.reverse_reverse, String.ofList_toList]

end Segment

namespace Path

open Segment (isQuote Quotable)

/-! ## Quotes -/

/-- A key in quotes and brackets. -/
def quoted (q : Char) (k : String) : String := String.ofList ('[' :: q :: (k.toList ++ [q, ']']))

section

variable {u k : String} {q : Char} (hu : '[' ∉ u.toList) (hq : isQuote q = true) (hk : Quotable k)

include hu hq hk

/-- Behind names, a key in quotes and brackets is read as that key if it has no point. -/
theorem parse_append_quoted (hpoint : '.' ∉ k.toList) :
    parse (u ++ quoted q k) = parse u ++ [.key k] := by
  have hbody : ']' ∉ q :: (k.toList ++ [q]) := by
    simp [hk.bracket, (Segment.ne_of_isQuote hq).2]
  have hrow : '.' ∉ q :: (k.toList ++ [q]) ++ [']'] := by
    simp [hpoint, (Segment.ne_of_isQuote hq).1]
  have htext : (u ++ quoted q k).toList =
      u.toList ++ '[' :: (q :: (k.toList ++ [q]) ++ [']']) := by
    simp [quoted]
  rw [parse_eq_read, htext, read_append_of_name (Place.walk_name hu) hrow,
    brackets_closed hbody, brackets_none_nil, List.reverse_nil, List.nil_append,
    Segment.ofBody_quoted hq hk, parse_eq_read]

/-- A key in quotes and brackets is cut at its first point, and the bracket in front of it is never
closed. -/
theorem parse_append_quoted_point {a b : String} (hab : k = a ++ "." ++ b)
    (ha : '.' ∉ a.toList) :
    parse (u ++ quoted q k) = parse u ++ .key (String.ofList ('[' :: q :: a.toList)) ::
      parse (b ++ String.ofList [q, ']']) := by
  have hkl : k.toList = a.toList ++ '.' :: b.toList := by simp [hab]
  have hopen : ']' ∉ q :: a.toList := by
    have hclosed := hk.bracket
    rw [hkl, List.mem_append] at hclosed
    exact List.not_mem_cons_of_ne_of_not_mem (Segment.ne_of_isQuote hq).2 (not_or.mp hclosed).1
  have hrow : '.' ∉ q :: a.toList :=
    List.not_mem_cons_of_ne_of_not_mem (Segment.ne_of_isQuote hq).1 ha
  have htext : (u ++ quoted q k).toList =
      (u.toList ++ '[' :: (q :: a.toList)) ++ '.' :: (b ++ String.ofList [q, ']']).toList := by
    simp [quoted, hkl]
  rw [parse_eq_read, htext, read_append_point,
    read_append_of_name (Place.walk_name hu) hrow, brackets_open hopen, List.append_assoc]
  rfl

/-- A key in quotes and brackets, behind names.  It is read as that key just where it has no point;
where it has one, the bracket in front of its first point is never closed, and what follows that
point is read anew, with the quote and the bracket at its end. -/
theorem reads_quoted_key_iff :
    (parse (u ++ quoted q k) = parse u ++ [.key k] ↔ '.' ∉ k.toList) ∧
    ∀ a b : String, k = a ++ "." ++ b → '.' ∉ a.toList →
      parse (u ++ quoted q k) = parse u ++ .key (String.ofList ('[' :: q :: a.toList)) ::
        parse (b ++ String.ofList [q, ']']) := by
  refine ⟨⟨fun h hpoint ↦ ?_, parse_append_quoted hu hq hk⟩, fun a b hab ha ↦
    parse_append_quoted_point hu hq hk hab ha⟩
  obtain ⟨a, b, hab, ha⟩ := exists_eq_append_point hpoint
  rw [parse_append_quoted_point hu hq hk hab ha, List.append_cancel_left_eq,
    List.cons.injEq] at h
  -- the first segment has the bracket, and the key has the point
  have hkey := congrArg String.toList (Segment.key.inj h.1)
  rw [String.toList_ofList] at hkey
  rw [← hkey] at hpoint
  simp [ha, (Segment.ne_of_isQuote hq).1] at hpoint

end

/-- A key with an opening bracket, a digit and another quote is read as it stands in quotes, behind
two names. -/
theorem reads_quoted_bracket :
    parse ("a.b" ++ quoted '"' "x[0'y") = [.key "a", .key "b", .key "x[0'y"] := by
  have hk : Quotable "x[0'y" := ⟨by decide, by rintro c ⟨⟩; rfl, by rintro c ⟨⟩; rfl⟩
  have h := (reads_quoted_key_iff (u := "a.b") (q := '"') (by decide) rfl hk).1.mpr (by decide)
  rw [h]
  decide

/-- A key with a point is not read as a key in quotes and brackets. -/
theorem quoted_key_cut_at_point :
    quoted '"' "b.c" = "[\"b.c\"]" ∧
    parse ("a" ++ quoted '"' "b.c") = [.key "a", .key "[\"b", .key "c\"]"] ∧
    parse ("a" ++ quoted '"' "b.c") ≠ parse "a" ++ [.key "b.c"] := by
  decide

/-! ## What is left over -/

/-- What text behind an index in brackets does, up to the next point.  It changes nothing just where
it does not start with another bracket, or stands behind text that was left over before; and then
what is written at the path with it is found at the path without it. -/
theorem ignores_text_behind_index_iff {u w : String} (hw : '.' ∉ w.toList) (i : Nat) :
    (parse (u ++ (Segment.index i).text ++ w) = parse (u ++ (Segment.index i).text) ↔
      (∀ r, w.toList ≠ '[' :: r) ∨ place u.toList = .leftover) ∧
    ((∀ r, w.toList ≠ '[' :: r) → ∀ root v : Value,
      (Value.write v (parse (u ++ (Segment.index i).text ++ w)) root).2 = none →
      (Value.write v (parse (u ++ (Segment.index i).text ++ w)) root).1.lookup
        (u ++ (Segment.index i).text) = v) := by
  have hread : parse (u ++ (Segment.index i).text ++ w) = parse (u ++ (Segment.index i).text) ↔
      (∀ r, w.toList ≠ '[' :: r) ∨ place u.toList = .leftover := by
    rw [parse_eq_read, parse_eq_read, String.toList_append (t := w), String.toList_append]
    by_cases hu : place u.toList = .leftover
    · have hplace : place (u.toList ++ (Segment.index i).text.toList) = .leftover := by
        rw [place_append, hu]
        exact Place.walk_leftover (Segment.point_notMem_text_index i)
      exact iff_of_true (read_append_of_leftover hplace hw) (.inr hu)
    · rw [read_append_of_behind (place_append_index hu i) hw, List.append_right_eq_self,
        brackets_none_eq_nil_iff]
      exact (or_iff_left hu).symm
  refine ⟨hread, fun hw' root v h ↦ ?_⟩
  rw [Value.lookup, Value.getD, ← hread.mpr (.inl hw'), Value.get?_write h, Option.getD_some]

/-- Behind an item a letter is ignored and a second index is not, and a write at the item with the
letter is found at the item. -/
theorem ignores_letter_behind_item :
    let item := "a" ++ (Segment.index 0).text
    let root : Value := .obj [("a", .arr [.int 1])]
    parse (item ++ "b") = parse item ∧ parse (item ++ "[1]") ≠ parse item ∧
    (Value.write (.int 2) (parse (item ++ "b")) root).1.lookup item = .int 2 := by
  intro item root
  have letter := ignores_text_behind_index_iff (u := "a") (w := "b") (by decide) 0
  have index := ignores_text_behind_index_iff (u := "a") (w := "[1]") (by decide) 0
  have hb : ∀ r, "b".toList ≠ '[' :: r := fun r he ↦ absurd (List.cons.inj he).1 (by decide)
  have hp : parse (item ++ "b") = [.key "a", .index 0] := by decide
  refine ⟨letter.1.mpr (.inl hb), fun he ↦ ?_, letter.2 hb root (.int 2) ?_⟩
  · rcases index.1.mp he with h | h
    · exact h ['1', ']'] (by decide)
    · cases h
  · exact (congrArg (fun p ↦ (Value.write (.int 2) p root).2) hp).trans rfl

/-- A letter behind an item does not tell its path from the path of the item, and what is written
there overwrites the item. -/
theorem letter_behind_item_not_told :
    parse "a[0]b" = parse "a[0]" ∧
    Value.write (.int 2) (parse "a[0]b") (.obj [("a", .arr [.int 1])]) =
      (.obj [("a", .arr [.int 2])], none) := by
  have hp : parse "a[0]b" = [.key "a", .index 0] := by decide
  rw [hp]
  exact ⟨by decide, rfl⟩

end Path

end LivePage
