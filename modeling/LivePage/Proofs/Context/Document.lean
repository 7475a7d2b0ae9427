import LivePage.Context

/-!
# A part of a context is one document

Reading and writing at a path of a part of a context take the first segment apart from the others.
They do what reading and writing at the whole path of the snapshot of the part do, and leave the
other parts alone.
-/

namespace LivePage

namespace Namespace

/-- The parts that can be written. -/
def Writable (k : Namespace) : Prop := k ≠ user ∧ k ≠ tenant

end Namespace

namespace Context

/-- A context is what is read in its parts. -/
theorem ext_snapshot {c d : Context} (h : ∀ k, c.snapshot k = d.snapshot k) : c = d := by
  cases c
  cases d
  simp only [mk.injEq]
  exact ⟨Value.obj.inj (h .data), Value.obj.inj (h .state), Value.obj.inj (h .vars),
    Value.obj.inj (h .params), Value.obj.inj (h .query), h .user, h .tenant⟩

variable {c : Context} {k : Namespace}

theorem entries?_of_not_writable (h : ¬k.Writable) : c.entries? k = none := by
  cases k with
  | user | tenant => rfl
  | data | state | vars | params | query => exact absurd ⟨nofun, nofun⟩ h

theorem exists_entries_of_writable (h : k.Writable) :
    ∃ m, c.entries? k = some m ∧ c.snapshot k = .obj m := by
  cases k with
  | user => exact absurd rfl h.1
  | tenant => exact absurd rfl h.2
  | data | state | vars | params | query => exact ⟨_, rfl, rfl⟩

/-- A path is resolved in a part as it is read in the snapshot of the part. -/
theorem resolve_eq_getD (c : Context) (k : Namespace) (p : Path) :
    c.resolve k p = (c.snapshot k).getD p := by
  by_cases hk : k.Writable
  · obtain ⟨m, hm, hs⟩ := exists_entries_of_writable (c := c) hk
    rw [resolve, hm, hs]
    match p with
    | [] => rfl
    | .index i :: rest => rfl
    | .key key :: rest =>
      cases h : m.get? key <;> simp [Value.getD, Value.step?, h]
  · rw [resolve, entries?_of_not_writable hk]

/-- A write at a path that starts with a key is a write at the path in the snapshot of the part. -/
theorem write_key {m : Fields Value} (hm : c.entries? k = some m) (v : Value) (key : String)
    (rest : Path) :
    c.write k v (.key key :: rest) =
      (c.setEntries (Value.write v (.key key :: rest) (.obj m)).1.members k,
        (Value.write v (.key key :: rest) (.obj m)).2) := by
  rw [write, hm]
  rfl

/-- What a write at a path that starts with a key does to the parts of a context. -/
theorem snapshot_write_key (hk : k.Writable) (v : Value) (key : String) (rest : Path) :
    (c.write k v (.key key :: rest)).1.snapshot k =
        (Value.write v (.key key :: rest) (c.snapshot k)).1 ∧
      (c.write k v (.key key :: rest)).2 =
        (Value.write v (.key key :: rest) (c.snapshot k)).2 ∧
      ∀ j, j ≠ k → (c.write k v (.key key :: rest)).1.snapshot j = c.snapshot j := by
  obtain ⟨m, hm, hs⟩ := exists_entries_of_writable (c := c) hk
  rw [write_key hm, hs]
  exact ⟨snapshot_setEntries_self (by simp [hm]) _ rfl, rfl,
    fun j hj ↦ snapshot_setEntries_of_ne c _ hj⟩

/-- A write that no member is named for fails at once. -/
theorem write_fails_at_once (v : Value) {p : Path}
    (h : ¬k.Writable ∨ p = [] ∨ ∃ i rest, p = .index i :: rest) :
    (c.write k v p).1 = c ∧ (c.write k v p).2.isSome = true := by
  by_cases hk : k.Writable
  · obtain ⟨m, hm, -⟩ := exists_entries_of_writable (c := c) hk
    rcases h with h | rfl | ⟨i, rest, rfl⟩
    · exact absurd hk h
    · simp [write, hm]
    · simp [write, hm]
  · simp [write, entries?_of_not_writable hk]

/-- Every part of a context is read like its snapshot.  A write at a path whose first segment is a
key makes of the snapshot of its part what the write at that path makes of it as a value, fails just
as that does, and leaves the other parts alone; every other write fails and changes nothing. -/
theorem assign_refines_write (c : Context) (k : Namespace) (path : String) (v : Value) :
    c.lookup k path = (c.snapshot k).lookup path ∧
    (k.Writable → (∃ key rest, Path.parse path = .key key :: rest) →
      (c.assign k path v).1.snapshot k = (Value.write v (Path.parse path) (c.snapshot k)).1 ∧
      (c.assign k path v).2 = (Value.write v (Path.parse path) (c.snapshot k)).2 ∧
      ∀ j, j ≠ k → (c.assign k path v).1.snapshot j = c.snapshot j) ∧
    ((k = .user ∨ k = .tenant ∨ Path.parse path = [] ∨
        ∃ i rest, Path.parse path = .index i :: rest) →
      (c.assign k path v).1 = c ∧ (c.assign k path v).2.isSome = true) := by
  refine ⟨resolve_eq_getD c k _, ?_, ?_⟩
  · rintro hk ⟨key, rest, hp⟩
    rw [assign, hp]
    exact snapshot_write_key hk v key rest
  · intro h
    refine write_fails_at_once v ?_
    rcases h with rfl | rfl | h
    · exact .inl fun hk ↦ hk.1 rfl
    · exact .inl fun hk ↦ hk.2 rfl
    · exact .inr h

/-- A write through a member that is missing fails behind it and leaves it behind as null, in the
part as in its snapshot. -/
theorem assign_through_missing_member :
    (assign {} .state "a[0]" (.bool true)).1.snapshot .state = .obj [("a", .null)] ∧
    (assign {} .state "a[0]" (.bool true)).2 = some (.notContainer "[0]" "null") ∧
    (assign {} .user "a[0]" (.bool true)).1 = {} := by
  have hp : Path.parse "a[0]" = [.key "a", .index 0] := by decide
  obtain ⟨hs, hf, -⟩ := (assign_refines_write {} .state "a[0]" (.bool true)).2.1
    ⟨nofun, nofun⟩ ⟨"a", [.index 0], hp⟩
  obtain ⟨hu, -⟩ := (assign_refines_write {} .user "a[0]" (.bool true)).2.2 (.inl rfl)
  rw [hs, hf, hp]
  exact ⟨rfl, rfl, hu⟩

end Context

end LivePage
