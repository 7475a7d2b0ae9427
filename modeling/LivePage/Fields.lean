/-!
# Named members

The members of an object are a list in the order of their keys. Keys are looked up from the
front, and a write either replaces the first member of that key or puts a new one in its place
in the order; so reading back what was written needs no assumption on the list.
-/

namespace LivePage

abbrev Fields (α : Type) := List (String × α)

namespace Fields

variable {α : Type}

def get? (k : String) : Fields α → Option α
  | [] => none
  | (l, v) :: r => if l = k then some v else get? k r

/-- Replaces the first member of a key, if there is one. -/
def replace (k : String) (v : α) : Fields α → Fields α
  | [] => []
  | (l, w) :: r => if l = k then (k, v) :: r else (l, w) :: replace k v r

/-- Puts a member in front of the first one with a greater key. -/
def place (k : String) (v : α) : Fields α → Fields α
  | [] => [(k, v)]
  | (l, w) :: r => if k < l then (k, v) :: (l, w) :: r else (l, w) :: place k v r

def insert (k : String) (v : α) (m : Fields α) : Fields α :=
  if (m.get? k).isSome then m.replace k v else m.place k v

/-- Writes members from left to right, so that the last of a key stays. -/
def overlay (m : Fields α) (extra : List (String × α)) : Fields α :=
  extra.foldl (fun m (k, v) => m.insert k v) m

def ofList (members : List (String × α)) : Fields α := overlay [] members

def erase (k : String) (m : Fields α) : Fields α := m.filter (·.1 != k)

/-- A member that is there only where it has a value. -/
def optional (k : String) : Option α → Fields α
  | none => []
  | some v => [(k, v)]

def keys (m : Fields α) : List String := m.map Prod.fst

@[simp] theorem get?_nil (k : String) : get? k ([] : Fields α) = none := rfl

@[simp] theorem overlay_nil (m : Fields α) : m.overlay [] = m := rfl

@[simp] theorem overlay_cons (m : Fields α) (k : String) (v : α) (r : List (String × α)) :
    m.overlay ((k, v) :: r) = (m.insert k v).overlay r := rfl

theorem get?_replace_self {k : String} {m : Fields α} (v : α) (h : (m.get? k).isSome) :
    (m.replace k v).get? k = some v := by
  induction m with
  | nil => simp at h
  | cons head r ih =>
    obtain ⟨l, w⟩ := head
    by_cases e : l = k
    · simp [replace, get?, e]
    · simp only [get?, e, if_false] at h
      simp [replace, get?, e, ih h]

theorem get?_place_self {k : String} {m : Fields α} (v : α) (h : m.get? k = none) :
    (m.place k v).get? k = some v := by
  induction m with
  | nil => simp [place, get?]
  | cons head r ih =>
    obtain ⟨l, w⟩ := head
    by_cases e : l = k
    · simp [get?, e] at h
    · simp only [get?, e, if_false] at h
      by_cases o : k < l
      · simp [place, get?, o]
      · simp [place, get?, o, e, ih h]

/-- A write is read back. -/
@[simp] theorem get?_insert_self (k : String) (v : α) (m : Fields α) :
    (m.insert k v).get? k = some v := by
  unfold insert
  split
  · next h => exact get?_replace_self v h
  · next h => exact get?_place_self v (by simpa using h)

theorem get?_replace_of_ne {k l : String} (v : α) (m : Fields α) (h : l ≠ k) :
    (m.replace k v).get? l = m.get? l := by
  induction m with
  | nil => rfl
  | cons head r ih =>
    obtain ⟨j, w⟩ := head
    by_cases e : j = k
    · simp [replace, get?, e, Ne.symm h]
    · simp [replace, get?, e, ih]

theorem get?_place_of_ne {k l : String} (v : α) (m : Fields α) (h : l ≠ k) :
    (m.place k v).get? l = m.get? l := by
  induction m with
  | nil => simp [place, get?, Ne.symm h]
  | cons head r ih =>
    obtain ⟨j, w⟩ := head
    by_cases o : k < j
    · simp [place, get?, o, Ne.symm h]
    · simp [place, get?, o, ih]

/-- A write changes no other member. -/
@[simp] theorem get?_insert_of_ne {k l : String} (v : α) (m : Fields α) (h : l ≠ k) :
    (m.insert k v).get? l = m.get? l := by
  unfold insert
  split
  · exact get?_replace_of_ne v m h
  · exact get?_place_of_ne v m h

theorem replace_of_get? {k : String} {v : α} {m : Fields α} (h : m.get? k = some v) :
    m.replace k v = m := by
  induction m with
  | nil => rfl
  | cons head r ih =>
    obtain ⟨l, w⟩ := head
    by_cases e : l = k
    · simp_all [replace, get?]
    · simp only [get?, e, if_false] at h
      simp [replace, e, ih h]

/-- A write leaves the members as they are just where its value was there before. -/
theorem insert_eq_self_iff {k : String} {v : α} {m : Fields α} :
    m.insert k v = m ↔ m.get? k = some v := by
  constructor
  · intro h
    rw [← h]
    exact get?_insert_self k v m
  · intro h
    rw [insert, if_pos (by simp [h])]
    exact replace_of_get? h

end Fields

end LivePage
