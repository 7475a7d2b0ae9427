import Mathlib.Data.List.Induction
import Mathlib.Data.List.TakeWhile
import LivePage.Path

/-!
# How far the text of a path is read

The text of a path is cut at its points, and of each part the name is read first and then the
brackets in a row behind it.  So each character of a text stands in a name, inside of a bracket,
behind one, or behind text that follows a bracket and is no bracket.  Where a text ends tells what
more of it would be read: a point starts anew from everywhere, a bracket is read behind a name and
behind another bracket, and nothing is read in what is left over.
-/

namespace LivePage

/-! ## Separators -/

section Separators

variable {sep : Char} {cs : List Char} (h : sep ∉ cs)

include h

theorem bne_of_notMem : ∀ c ∈ cs, (c != sep) = true := fun _ hc ↦
  bne_iff_ne.mpr fun he ↦ h (he ▸ hc)

theorem takeWhile_bne : cs.takeWhile (· != sep) = cs :=
  List.takeWhile_eq_self_iff.mpr (bne_of_notMem h)

theorem dropWhile_bne : cs.dropWhile (· != sep) = [] :=
  List.dropWhile_eq_nil_iff.mpr (bne_of_notMem h)

theorem takeWhile_bne_append (ds : List Char) :
    (cs ++ sep :: ds).takeWhile (· != sep) = cs := by
  rw [List.takeWhile_append_of_pos (bne_of_notMem h), List.takeWhile_cons_of_neg (by simp),
    List.append_nil]

theorem dropWhile_bne_append (ds : List Char) :
    (cs ++ sep :: ds).dropWhile (· != sep) = sep :: ds := by
  rw [List.dropWhile_append_of_pos (bne_of_notMem h), List.dropWhile_cons_of_neg (by simp)]

end Separators

/-- A text with a point is cut at the first one. -/
theorem exists_eq_append_point {s : String} (h : '.' ∈ s.toList) :
    ∃ a b : String, s = a ++ "." ++ b ∧ '.' ∉ a.toList := by
  obtain ⟨a, b, hs, ha⟩ := List.eq_append_cons_of_mem h
  refine ⟨String.ofList a, String.ofList b, String.toList_injective ?_, ?_⟩
  · simp [hs]
  · rwa [String.toList_ofList]

theorem splitOn_of_notMem {sep : Char} {cs : List Char} (h : sep ∉ cs) : splitOn sep cs = [cs] := by
  induction cs with
  | nil => rfl
  | cons c cs ih =>
    obtain ⟨hc, hcs⟩ := not_or.mp (List.mem_cons.not.mp h)
    rw [splitOn, if_neg (Ne.symm hc), ih hcs]

theorem splitOn_ne_nil (sep : Char) (cs : List Char) : splitOn sep cs ≠ [] := by
  cases cs with
  | nil => exact List.cons_ne_nil _ _
  | cons c cs =>
    rw [splitOn]
    split
    · exact List.cons_ne_nil _ _
    · split <;> exact List.cons_ne_nil _ _

/-- A text is cut at each separator, whatever is in front of it and behind it. -/
theorem splitOn_append_cons (sep : Char) (cs ds : List Char) :
    splitOn sep (cs ++ sep :: ds) = splitOn sep cs ++ splitOn sep ds := by
  induction cs with
  | nil => exact if_pos rfl
  | cons c cs ih =>
    rw [List.cons_append, splitOn, splitOn, ih]
    by_cases hc : c = sep
    · rw [if_pos hc, if_pos hc, List.cons_append]
    · obtain ⟨part, parts, hs⟩ := List.exists_cons_of_ne_nil (splitOn_ne_nil sep cs)
      rw [if_neg hc, if_neg hc, hs]
      rfl

namespace Path

variable {cs part body row x : List Char} {o : Option (List Char)}

/-- The segments of the characters of a text. -/
def read (cs : List Char) : Path := (splitOn '.' cs).flatMap ofPart

theorem parse_eq_read (text : String) : parse text = read text.toList := rfl

/-- A point starts anew. -/
theorem read_append_point (cs ds : List Char) : read (cs ++ '.' :: ds) = read cs ++ read ds := by
  rw [read, splitOn_append_cons, List.flatMap_append]
  rfl

theorem read_part (h : '.' ∉ part) : read part = ofPart part := by
  rw [read, splitOn_of_notMem h, List.flatMap_singleton]

/-! ## Places -/

/-- Where a character stands: in a name, inside of a bracket, behind one, or in what is left over
behind a bracket. -/
inductive Place where
  | name
  | inside
  | behind
  | leftover
deriving DecidableEq, Repr

namespace Place

def next (p : Place) (c : Char) : Place :=
  if c = '.' then name
  else match p with
    | name => if c = '[' then inside else name
    | inside => if c = ']' then behind else inside
    | behind => if c = '[' then inside else leftover
    | leftover => leftover

def walk (p : Place) (cs : List Char) : Place := cs.foldl next p

/-- Where a row of brackets is read, with what an open one holds so far. -/
def ofRow : Option (List Char) → Place
  | none => behind
  | some _ => inside

section

variable {c : Char} (hc : c ≠ '.')

include hc

theorem next_inside : next inside c = if c = ']' then behind else inside := if_neg hc

theorem next_behind : next behind c = if c = '[' then inside else leftover := if_neg hc

theorem next_leftover : next leftover c = leftover := if_neg hc

end

variable {p : Place}

theorem walk_cons (p : Place) (c : Char) (cs : List Char) :
    p.walk (c :: cs) = (p.next c).walk cs := rfl

theorem walk_append (p : Place) (cs ds : List Char) : p.walk (cs ++ ds) = (p.walk cs).walk ds :=
  List.foldl_append

/-- Outside of brackets a text goes on as a name until one opens. -/
theorem walk_name (h : '[' ∉ cs) : name.walk cs = name := by
  induction cs with
  | nil => rfl
  | cons c cs ih =>
    obtain ⟨hc, hcs⟩ := not_or.mp (List.mem_cons.not.mp h)
    have hnext : next name c = name := by
      rw [next, if_neg (Ne.symm hc), ite_self]
    rw [walk_cons, hnext, ih hcs]

theorem walk_inside (hp : '.' ∉ body) (hb : ']' ∉ body) : inside.walk body = inside := by
  induction body with
  | nil => rfl
  | cons c body ih =>
    obtain ⟨hcp, hp⟩ := not_or.mp (List.mem_cons.not.mp hp)
    obtain ⟨hcb, hb⟩ := not_or.mp (List.mem_cons.not.mp hb)
    rw [walk_cons, next_inside (Ne.symm hcp), if_neg (Ne.symm hcb), ih hp hb]

theorem walk_leftover (h : '.' ∉ cs) : leftover.walk cs = leftover := by
  induction cs with
  | nil => rfl
  | cons c cs ih =>
    obtain ⟨hc, hcs⟩ := not_or.mp (List.mem_cons.not.mp h)
    rw [walk_cons, next_leftover (Ne.symm hc), ih hcs]

/-- Within a part nothing leads back to its name. -/
theorem walk_ne_name (hp : p ≠ name) (h : '.' ∉ cs) : p.walk cs ≠ name := by
  induction cs generalizing p with
  | nil => exact hp
  | cons c cs ih =>
    obtain ⟨hc, hcs⟩ := not_or.mp (List.mem_cons.not.mp h)
    refine ih ?_ hcs
    cases p with
    | name => exact absurd rfl hp
    | inside => rw [next_inside (Ne.symm hc)]; split <;> exact nofun
    | behind => rw [next_behind (Ne.symm hc)]; split <;> exact nofun
    | leftover => rw [next_leftover (Ne.symm hc)]; exact nofun

/-- A closed bracket leads behind it, unless it is left over. -/
theorem walk_bracket (h : p ≠ leftover) (hp : '.' ∉ body) (hb : ']' ∉ body) :
    p.walk ('[' :: (body ++ [']'])) = behind := by
  rw [walk_cons, walk_append]
  cases p with
  | name | behind | inside =>
    change (inside.walk body).walk [']'] = behind
    rw [walk_inside hp hb]
    rfl
  | leftover => exact absurd rfl h

end Place

/-- Where a text ends. -/
def place (cs : List Char) : Place := Place.name.walk cs

theorem place_append (cs ds : List Char) : place (cs ++ ds) = (place cs).walk ds :=
  Place.walk_append ..

/-! ## Rows of brackets -/

@[simp] theorem brackets_none_nil : brackets none [] = [] := rfl

@[simp] theorem brackets_start (row : List Char) :
    brackets none ('[' :: row) = brackets (some []) row := rfl

@[simp] theorem brackets_some_nil (held : List Char) :
    brackets (some held) [] = [.key (String.ofList ('[' :: held.reverse))] := rfl

@[simp] theorem brackets_close (held row : List Char) :
    brackets (some held) (']' :: row) = Segment.ofBody held.reverse :: brackets none row := rfl

theorem brackets_none_of_ne (h : ∀ r, x ≠ '[' :: r) : brackets none x = [] := by
  unfold brackets
  split
  · next he => exact absurd rfl (h _)
  · rfl
  all_goals next he => cases he

theorem brackets_hold {c : Char} (hc : c ≠ ']') (held row : List Char) :
    brackets (some held) (c :: row) = brackets (some (c :: held)) row := by
  rw [brackets]
  exact hc

/-- A bracket that is never closed is a key with all that follows. -/
theorem brackets_open (h : ']' ∉ body) (held : List Char) :
    brackets (some held) body = [.key (String.ofList ('[' :: (held.reverse ++ body)))] := by
  induction body generalizing held with
  | nil => rw [brackets_some_nil, List.append_nil]
  | cons c body ih =>
    obtain ⟨hc, hb⟩ := not_or.mp (List.mem_cons.not.mp h)
    rw [brackets_hold (Ne.symm hc), ih hb, List.reverse_cons, List.append_assoc]
    rfl

/-- A bracket that is closed is one segment. -/
theorem brackets_closed (h : ']' ∉ body) (held row : List Char) :
    brackets (some held) (body ++ ']' :: row) =
      Segment.ofBody (held.reverse ++ body) :: brackets none row := by
  induction body generalizing held with
  | nil => rw [List.nil_append, brackets_close, List.append_nil]
  | cons c body ih =>
    obtain ⟨hc, hb⟩ := not_or.mp (List.mem_cons.not.mp h)
    rw [List.cons_append, brackets_hold (Ne.symm hc), ih hb, List.reverse_cons, List.append_assoc]
    rfl

/-- An open bracket is always read. -/
theorem brackets_some_ne_nil (held row : List Char) : brackets (some held) row ≠ [] := by
  by_cases h : ']' ∈ row
  · obtain ⟨body, row, rfl, hb⟩ := List.eq_append_cons_of_mem h
    rw [brackets_closed hb]
    exact List.cons_ne_nil _ _
  · rw [brackets_open h]
    exact List.cons_ne_nil _ _

/-- Behind a bracket just what starts with another one is read. -/
theorem brackets_none_eq_nil_iff : brackets none x = [] ↔ ∀ r, x ≠ '[' :: r := by
  refine ⟨fun h r he ↦ ?_, brackets_none_of_ne⟩
  subst he
  exact brackets_some_ne_nil [] r h

/-- What follows a row that ends behind a bracket is read as the rest of the row, and what follows
what is left over is not read. -/
theorem brackets_append (h : '.' ∉ row) (x : List Char) :
    ((Place.ofRow o).walk row = .behind →
      brackets o (row ++ x) = brackets o row ++ brackets none x) ∧
    ((Place.ofRow o).walk row = .leftover → brackets o (row ++ x) = brackets o row) := by
  induction row generalizing o with
  | nil =>
    cases o with
    | none => exact ⟨fun _ ↦ rfl, nofun⟩
    | some held => exact ⟨nofun, nofun⟩
  | cons c row ih =>
    obtain ⟨hc, hrow⟩ := not_or.mp (List.mem_cons.not.mp h)
    rw [List.cons_append, Place.walk_cons]
    cases o with
    | none =>
      rw [Place.ofRow, Place.next_behind (Ne.symm hc)]
      by_cases hs : c = '['
      · subst hs
        exact ih (o := some []) hrow
      · have hread (r : List Char) : brackets none (c :: r) = [] :=
          brackets_none_of_ne fun _ he ↦ hs (List.cons.inj he).1
        rw [if_neg hs, Place.walk_leftover hrow, hread, hread]
        exact ⟨nofun, fun _ ↦ rfl⟩
    | some held =>
      rw [Place.ofRow, Place.next_inside (Ne.symm hc)]
      by_cases hs : c = ']'
      · subst hs
        obtain ⟨behind, leftover⟩ := ih (o := none) hrow
        refine ⟨fun hp ↦ ?_, fun hp ↦ ?_⟩
        · rw [brackets_close, brackets_close, behind hp, List.cons_append]
        · rw [brackets_close, brackets_close, leftover hp]
      · rw [brackets_hold hs, brackets_hold hs, if_neg hs]
        exact ih (o := some (c :: held)) hrow

/-! ## Parts -/

theorem ofPart_of_notMem (h : '[' ∉ part) :
    ofPart part = if part.isEmpty then [] else [.key (String.ofList part)] := by
  rw [ofPart, takeWhile_bne h, dropWhile_bne h]
  rfl

/-- A part is its name in front of a row of brackets. -/
theorem ofPart_append (h : '[' ∉ part) (row : List Char) :
    ofPart (part ++ '[' :: row) = ofPart part ++ brackets (some []) row := by
  rw [ofPart_of_notMem h, ofPart, takeWhile_bne_append h, dropWhile_bne_append h, brackets_start]
  split <;> rfl

/-- The last part of a text is read by itself, with what follows it. -/
theorem exists_last_part (cs : List Char) :
    ∃ front part, '.' ∉ part ∧ place part = place cs ∧
      ∀ x, read (cs ++ x) = front ++ read (part ++ x) := by
  -- from the end, where a point takes the place of the part before it
  induction cs using List.reverseRec with
  | nil => exact ⟨[], [], List.not_mem_nil, rfl, fun _ ↦ rfl⟩
  | append_singleton cs c ih =>
    by_cases hc : c = '.'
    · subst hc
      refine ⟨read cs, [], List.not_mem_nil, ?_, fun x ↦ ?_⟩
      · rw [place_append]
        rfl
      · rw [List.append_assoc]
        exact read_append_point cs x
    · obtain ⟨front, part, hpart, hplace, hread⟩ := ih
      refine ⟨front, part ++ [c], ?_, ?_, fun x ↦ ?_⟩
      · rw [List.mem_append, List.mem_singleton]
        exact not_or.mpr ⟨hpart, Ne.symm hc⟩
      · rw [place_append, place_append, hplace]
      · rw [List.append_assoc, List.append_assoc, hread]

/-- A text that does not end in a name ends in a row of brackets. -/
theorem exists_last_row (h : place cs ≠ .name) :
    ∃ front row, '.' ∉ row ∧ Place.inside.walk row = place cs ∧
      ∀ x, '.' ∉ x → read (cs ++ x) = front ++ brackets (some []) (row ++ x) := by
  obtain ⟨front, part, hpart, hplace, hread⟩ := exists_last_part cs
  have hmem : '[' ∈ part := by
    by_contra hn
    exact h (hplace.symm.trans (Place.walk_name hn))
  obtain ⟨name, row, rfl, hname⟩ := List.eq_append_cons_of_mem hmem
  refine ⟨front ++ ofPart name, row, fun hr ↦ hpart (by simp [hr]), ?_, fun x hx ↦ ?_⟩
  · rw [← hplace, place_append, place, Place.walk_name hname]
    rfl
  · have hpx : '.' ∉ name ++ '[' :: (row ++ x) := by
      rw [← List.cons_append, ← List.append_assoc, List.mem_append]
      exact not_or.mpr ⟨hpart, hx⟩
    rw [hread, List.append_assoc, List.cons_append, read_part hpx, ofPart_append hname,
      List.append_assoc]

/-- What is left over is not read. -/
theorem read_append_of_leftover (h : place cs = .leftover) (hx : '.' ∉ x) :
    read (cs ++ x) = read cs := by
  obtain ⟨front, row, hrow, hwalk, hread⟩ := exists_last_row (h.trans_ne nofun)
  have hcs : read cs = front ++ brackets (some []) row := by simpa using hread []
  rw [hread x hx, hcs, (brackets_append (o := some []) hrow x).2 (hwalk.trans h)]

/-- Behind a bracket a text goes on with a row of brackets. -/
theorem read_append_of_behind (h : place cs = .behind) (hx : '.' ∉ x) :
    read (cs ++ x) = read cs ++ brackets none x := by
  obtain ⟨front, row, hrow, hwalk, hread⟩ := exists_last_row (h.trans_ne nofun)
  have hcs : read cs = front ++ brackets (some []) row := by simpa using hread []
  rw [hread x hx, hcs, (brackets_append (o := some []) hrow x).1 (hwalk.trans h),
    List.append_assoc]

/-- Behind a name a text goes on with brackets. -/
theorem read_append_of_name (h : place cs = .name) (hx : '.' ∉ x) :
    read (cs ++ '[' :: x) = read cs ++ brackets (some []) x := by
  obtain ⟨front, part, hpart, hplace, hread⟩ := exists_last_part cs
  have hcs : read cs = front ++ read part := by simpa using hread []
  have hname : '[' ∉ part := by
    intro hmem
    obtain ⟨name, row, rfl, hname⟩ := List.eq_append_cons_of_mem hmem
    rw [place_append, place, Place.walk_name hname] at hplace
    exact Place.walk_ne_name (p := .inside) nofun (fun hr ↦ hpart (by simp [hr])) (hplace.trans h)
  have hpx : '.' ∉ part ++ '[' :: x := by
    rw [List.mem_append, List.mem_cons]
    exact not_or.mpr ⟨hpart, not_or.mpr ⟨by decide, hx⟩⟩
  rw [hread, hcs, read_part hpart, read_part hpx, ofPart_append hname, List.append_assoc]

/-- Where a bracket opens, it is read with what follows it. -/
theorem read_append_bracket (h : place cs = .name ∨ place cs = .behind) (hx : '.' ∉ x) :
    read (cs ++ '[' :: x) = read cs ++ brackets (some []) x := by
  rcases h with h | h
  · exact read_append_of_name h hx
  · rw [read_append_of_behind h (by rw [List.mem_cons]; exact not_or.mpr ⟨by decide, hx⟩),
      brackets_start]

end Path

end LivePage
