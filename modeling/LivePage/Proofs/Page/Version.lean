import Mathlib.Data.List.TakeWhile
import LivePage.Page.Validation

/-!
# Versions

A version is read from left to right, and each row of digits and each label is taken for as long as it
goes on.  No mark that may follow goes on with them, so that a version is read where it can be read at
all.
-/

namespace LivePage.Version

variable {p : Char → Bool} {m : Char} {cs r : List Char}

/-- A row of characters of a kind, of which there is at least one. -/
structure IsRow (p : Char → Bool) (cs : List Char) : Prop where
  ne_nil : cs ≠ []
  all : ∀ c ∈ cs, p c = true

/-- Nothing, or a label behind a mark. -/
def IsSuffix (m : Char) (cs : List Char) : Prop :=
  cs = [] ∨ ∃ label, IsRow isLabel label ∧ cs = m :: label

/-- A version has three numbers with points in between, and may have a label behind a minus sign and
one behind a plus sign. -/
def Semantic (version : String) : Prop :=
  ∃ major minor patch release build, IsRow Text.isDecimal major ∧ IsRow Text.isDecimal minor ∧
    IsRow Text.isDecimal patch ∧ IsSuffix '-' release ∧ IsSuffix '+' build ∧
    version.toList = major ++ '.' :: (minor ++ '.' :: (patch ++ (release ++ build)))

theorem mark?_eq_some_iff : mark? m cs = some r ↔ cs = m :: r := by
  cases cs with
  | nil => simp [mark?]
  | cons c cs => simp [mark?]

theorem run?_eq_some_iff :
    run? p cs = some r ↔ ∃ row, IsRow p row ∧ cs = row ++ r ∧ ∀ c ∈ r.head?, p c = false := by
  unfold run?
  constructor
  · intro h
    split at h
    · cases h
    · next full =>
      obtain rfl := Option.some.inj h
      refine ⟨cs.takeWhile p, ⟨by simpa using full, fun c ↦ List.mem_takeWhile_imp⟩,
        List.takeWhile_append_dropWhile.symm, fun c hc ↦ ?_⟩
      have := List.head?_dropWhile_not p cs
      rw [Option.mem_def.mp hc] at this
      simpa using this
  · rintro ⟨row, ⟨full, all⟩, rfl, stops⟩
    have taken : r.takeWhile p = [] ∧ r.dropWhile p = r := by
      cases r with
      | nil => exact ⟨rfl, rfl⟩
      | cons c r => simp [stops c rfl]
    rw [List.takeWhile_append_of_pos all, List.dropWhile_append_of_pos all, taken.1, taken.2,
      List.append_nil, if_neg (by simpa using full)]

theorem suffix?_eq_some_iff :
    suffix? m cs = some r ↔
      (∃ label, IsRow isLabel label ∧ cs = m :: (label ++ r) ∧ ∀ c ∈ r.head?, isLabel c = false) ∨
        (cs = r ∧ r.head? ≠ some m) := by
  unfold suffix?
  split
  · next s marked =>
    obtain rfl := mark?_eq_some_iff.mp marked
    rw [run?_eq_some_iff]
    constructor
    · rintro ⟨label, row, rfl, stops⟩
      exact .inl ⟨label, row, rfl, stops⟩
    · rintro (⟨label, row, he, stops⟩ | ⟨rfl, unmarked⟩)
      · exact ⟨label, row, (List.cons.inj he).2, stops⟩
      · exact absurd rfl unmarked
  · next unmarked =>
    constructor
    · rintro ⟨⟩
      refine .inr ⟨rfl, fun hm ↦ ?_⟩
      obtain ⟨s, rfl⟩ := List.head?_eq_some_iff.mp hm
      cases unmarked.symm.trans (mark?_eq_some_iff.mpr rfl)
    · rintro (⟨label, -, rfl, -⟩ | ⟨rfl, -⟩)
      · cases unmarked.symm.trans (mark?_eq_some_iff.mpr rfl)
      · rfl

theorem IsSuffix.stops (h : IsSuffix m cs) (hp : p m = false) : ∀ c ∈ cs.head?, p c = false := by
  rcases h with rfl | ⟨label, -, rfl⟩
  · nofun
  · rintro c ⟨⟩
    exact hp

/-- The labels of a version are read where they are told apart by their marks. -/
theorem suffixes_iff : (∃ rest, suffix? '-' cs = some rest ∧ suffix? '+' rest = some []) ↔
    ∃ release build, IsSuffix '-' release ∧ IsSuffix '+' build ∧ cs = release ++ build := by
  have last {cs : List Char} : suffix? '+' cs = some [] ↔ IsSuffix '+' cs := by
    rw [suffix?_eq_some_iff, IsSuffix, or_comm]
    simp
  simp only [suffix?_eq_some_iff (m := '-'), last]
  constructor
  · rintro ⟨build, ⟨label, row, rfl, -⟩ | ⟨he, -⟩, hb⟩
    · exact ⟨'-' :: label, build, .inr ⟨label, row, rfl⟩, hb, rfl⟩
    · exact ⟨[], build, .inl rfl, hb, he⟩
  · rintro ⟨release, build, hr, hb, rfl⟩
    rcases hr with rfl | ⟨label, row, rfl⟩
    · refine ⟨build, .inr ⟨rfl, ?_⟩, hb⟩
      rcases hb with rfl | ⟨label, -, rfl⟩
      · nofun
      · simp
    · exact ⟨build, .inl ⟨label, row, rfl, hb.stops (by decide)⟩, hb⟩

theorem isSemantic_iff (version : String) : isSemantic version = true ↔ Semantic version := by
  have point : ∀ {r : List Char}, ∀ c ∈ ('.' :: r).head?, Text.isDecimal c = false := by
    rintro r c ⟨⟩
    decide
  unfold isSemantic Semantic
  simp only [beq_iff_eq, Option.bind_eq_bind, Option.bind_eq_some_iff, run?_eq_some_iff,
    mark?_eq_some_iff, suffixes_iff]
  constructor
  · rintro ⟨_, ⟨major, h₁, e₁, -⟩, _, ⟨_, rfl, minor, h₂, rfl, -⟩, _, ⟨_, rfl, patch, h₃, rfl, -⟩,
      release, build, h₄, h₅, rfl⟩
    exact ⟨major, minor, patch, release, build, h₁, h₂, h₃, h₄, h₅, e₁⟩
  · rintro ⟨major, minor, patch, release, build, h₁, h₂, h₃, h₄, h₅, e⟩
    refine ⟨_, ⟨major, h₁, e, point⟩, _, ⟨_, rfl, minor, h₂, rfl, point⟩, _,
      ⟨_, rfl, patch, h₃, rfl, ?_⟩, release, build, h₄, h₅, rfl⟩
    rcases h₄ with rfl | ⟨label, -, rfl⟩
    · exact h₅.stops (by decide)
    · rintro c ⟨⟩
      decide

instance (version : String) : Decidable (Semantic version) :=
  decidable_of_iff _ (isSemantic_iff version)

end LivePage.Version
