import LivePage.Page.Condition
import LivePage.Proofs.Path.Text

/-!
# The fields of conditions

A field is read in the part of a context that the text in front of its first point names, and in the
data where that text names no part.  The segments of the field may name a part where its text does
not: with a bracket behind the name or around it, or with points in front of it.
-/

namespace LivePage

namespace Namespace

variable {k : Namespace} {s : String}

/-- A part is found by its name and by no other. -/
theorem ofName?_eq_some_iff : ofName? s = some k ↔ s = k.name := by
  constructor
  · intro h
    rw [ofName?] at h
    have hname := List.find?_some h
    exact (eq_of_beq hname).symm
  · rintro rfl
    exact ofName?_name k

theorem plain_name (k : Namespace) : (Segment.key k.name).Plain := by
  cases k <;> decide

/-- The name of a part is the text of a path, or stands in front of its first point. -/
def Roots (k : Namespace) (path : String) : Prop :=
  path = k.name ∨ ∃ rest, path = k.name ++ "." ++ rest

end Namespace

variable {k : Namespace} {path root : String}

theorem splitRoot_of_notMem (h : '.' ∉ path.toList) : splitRoot path = (path, "") := by
  simp only [splitRoot, takeWhile_bne h, dropWhile_bne h, String.ofList_toList]
  rfl

theorem splitRoot_append (h : '.' ∉ root.toList) (rest : String) :
    splitRoot (root ++ "." ++ rest) = (root, rest) := by
  have htext : (root ++ "." ++ rest).toList = root.toList ++ '.' :: rest.toList := by simp
  simp only [splitRoot, htext, takeWhile_bne_append h, dropWhile_bne_append h, List.drop_one,
    List.tail_cons, String.ofList_toList]

/-- A text is its root, or its root in front of a point and of the rest. -/
theorem splitRoot_cases (path : String) :
    ('.' ∉ path.toList ∧ splitRoot path = (path, "")) ∨
    ∃ root rest, '.' ∉ root.toList ∧ path = root ++ "." ++ rest ∧ splitRoot path = (root, rest) := by
  by_cases h : '.' ∈ path.toList
  · obtain ⟨root, rest, hpath, hroot⟩ := exists_eq_append_point h
    refine .inr ⟨root, rest, hroot, hpath, ?_⟩
    rw [hpath, splitRoot_append hroot]
  · exact .inl ⟨h, splitRoot_of_notMem h⟩

theorem point_notMem_root (path : String) : '.' ∉ (splitRoot path).1.toList := by
  rcases splitRoot_cases path with ⟨h, hs⟩ | ⟨root, rest, h, -, hs⟩
  · rwa [hs]
  · rwa [hs]

/-- The segments of a text are those of its root and those of the rest. -/
theorem parse_eq_splitRoot (path : String) :
    Path.parse path = Path.read (splitRoot path).1.toList ++ Path.parse (splitRoot path).2 := by
  rcases splitRoot_cases path with ⟨-, hs⟩ | ⟨root, rest, -, hp, hs⟩
  · rw [hs, Path.parse_eq_read, Path.parse_eq_read]
    exact (List.append_nil _).symm
  · have htext : path.toList = root.toList ++ '.' :: rest.toList := by simp [hp]
    rw [hs, Path.parse_eq_read, htext, Path.read_append_point, Path.parse_eq_read]

theorem roots_iff : k.Roots path ↔ (splitRoot path).1 = k.name := by
  have hk := (Namespace.plain_name k).2.1
  constructor
  · rintro (rfl | ⟨rest, rfl⟩)
    · rw [splitRoot_of_notMem hk]
    · rw [splitRoot_append hk]
  · intro h
    rcases splitRoot_cases path with ⟨-, hs⟩ | ⟨root, rest, -, hp, hs⟩
    · rw [hs] at h
      exact .inl h
    · rw [hs] at h
      exact .inr ⟨rest, h ▸ hp⟩

/-- The root of a text names no part just if none is found by it. -/
theorem not_roots_iff :
    (∀ k : Namespace, ¬k.Roots path) ↔ Namespace.ofName? (splitRoot path).1 = none := by
  rw [Option.eq_none_iff_forall_ne_some]
  exact forall_congr' fun _ ↦ not_congr (roots_iff.trans Namespace.ofName?_eq_some_iff.symm)

/-- Where the segments of a text name a part first, its root does just if the text starts with no
point and no bracket opens in front of its first point. -/
theorem roots_iff_of_parse {p : Path} (h : Path.parse path = .key k.name :: p) :
    k.Roots path ↔ (∀ r, path.toList ≠ '.' :: r) ∧ '[' ∉ (splitRoot path).1.toList := by
  rw [roots_iff]
  constructor
  · intro hroot
    refine ⟨fun r he ↦ ?_, by rw [hroot]; exact (Namespace.plain_name k).2.2⟩
    have hempty : (splitRoot path).1 = "" := by simp [splitRoot, he]
    exact (Namespace.plain_name k).1 (hroot.symm.trans hempty)
  · rintro ⟨hpoint, hbracket⟩
    have hne : (splitRoot path).1 ≠ "" := by
      intro he
      rcases splitRoot_cases path with ⟨-, hs⟩ | ⟨root, rest, -, hp, hs⟩
      · have hempty : path = "" := by rwa [hs] at he
        have hnil : Path.parse "" = [] := by decide
        rw [hempty, hnil] at h
        cases h
      · have hempty : root = "" := by rwa [hs] at he
        exact hpoint rest.toList (by simp [hp, hempty])
    have hplain : (Segment.key (splitRoot path).1).Plain := ⟨hne, point_notMem_root path, hbracket⟩
    rw [parse_eq_splitRoot, Path.read_key hplain] at h
    exact Segment.key.inj (List.cons.inj h).1

namespace Context

/-- A field is read in the part that its root names, by the segments behind the name. -/
theorem field_of_roots (c : Context) (h : k.Roots path) :
    ∃ p, Path.parse path = .key k.name :: p ∧ c.field path = (c.snapshot k).getD p := by
  have hroot := roots_iff.mp h
  refine ⟨Path.parse (splitRoot path).2, ?_, ?_⟩
  · rw [parse_eq_splitRoot, hroot, Path.read_key (Namespace.plain_name k)]
    rfl
  · simp only [field, hroot, Namespace.ofName?_name]
    exact resolve_eq_getD c k _

/-- A field whose root names no part is read in the data. -/
theorem field_of_not_roots (c : Context) (h : ∀ k : Namespace, ¬k.Roots path) :
    c.field path = (c.snapshot .data).getD (Path.parse path) := by
  simp only [field, not_roots_iff.mp h]
  rfl

end Context

/-- The value that a condition compares.  If the text of the field is the name of a part, or starts
with it and a point, it is what the segments behind the name lead to in that part; and else it is
what all segments lead to in the data.  So where the segments start with the name of a part, that
part is read just if the text starts with no point and no bracket opens in front of its first
point. -/
theorem field_read_from_root (c : Context) (clock : Int) {path : String} (hpath : path ≠ "")
    (comparison : Comparison) (expected : Value) :
    Condition.test c clock (.simple path (some comparison) expected) =
      comparison.holds (c.field path) expected ∧
    (∀ k : Namespace, k.Roots path →
      ∃ p, Path.parse path = .key k.name :: p ∧ c.field path = (c.snapshot k).getD p) ∧
    ((∀ k : Namespace, ¬k.Roots path) → c.field path = (c.snapshot .data).getD (Path.parse path)) ∧
    ∀ (k : Namespace) (p : Path), Path.parse path = .key k.name :: p →
      (k.Roots path ↔ (∀ r, path.toList ≠ '.' :: r) ∧ '[' ∉ (splitRoot path).1.toList) := by
  refine ⟨?_, fun k ↦ c.field_of_roots, c.field_of_not_roots, fun k p ↦ roots_iff_of_parse⟩
  rw [Condition.test, if_neg hpath]

/-- Brackets behind the first point, and several points, do not keep a field from its part, and a
name that only starts like one is read in the data. -/
theorem field_read_from_state :
    let c : Context := { state := [("x", .arr [.int 1])], data := [("state2", .bool true)] }
    Condition.test c 0 (.simple "state..['x'][0]" (some .equals) (.int 1)) = .ok true ∧
    Condition.test c 0 (.simple "state2" (some .equals) (.bool true)) = .ok true := by
  intro c
  obtain ⟨htest, hroots, -⟩ :=
    field_read_from_root c 0 (show "state..['x'][0]" ≠ "" by decide) .equals (.int 1)
  obtain ⟨htest', -, hdata, -⟩ :=
    field_read_from_root c 0 (show "state2" ≠ "" by decide) .equals (.bool true)
  obtain ⟨p, hp, hvalue⟩ := hroots .state (.inr ⟨".['x'][0]", by decide⟩)
  have hparse : Path.parse "state..['x'][0]" = [.key "state", .key "x", .index 0] := by decide
  obtain rfl := (List.cons.inj (hparse.symm.trans hp)).2
  rw [htest, htest', hvalue, hdata (not_roots_iff.mpr (by decide))]
  exact ⟨rfl, rfl⟩

/-- A bracket behind the name of a part, and a point in front of it, leave a field in the data,
though its segments start with the name. -/
theorem field_not_read_from_state :
    let c : Context := { state := [("x", .int 1)] }
    (Path.parse "state['x']" = [.key "state", .key "x"] ∧ c.field "state['x']" = .null) ∧
    (Path.parse ".state.x" = [.key "state", .key "x"] ∧ c.field ".state.x" = .null) ∧
    (c.snapshot .state).getD [.key "x"] = .int 1 ∧
    Condition.test c 0 (.simple "state['x']" (some .equals) (.int 1)) = .ok false := by
  intro c
  have hbracket : c.field "state['x']" = .null := by
    rw [c.field_of_not_roots (not_roots_iff.mpr (by decide))]
    rfl
  have hpoint : c.field ".state.x" = .null := by
    rw [c.field_of_not_roots (not_roots_iff.mpr (by decide))]
    rfl
  refine ⟨⟨by decide, hbracket⟩, ⟨by decide, hpoint⟩, rfl, ?_⟩
  rw [Condition.test, if_neg (by decide), hbracket]
  rfl

end LivePage
