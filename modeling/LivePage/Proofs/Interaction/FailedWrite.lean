import LivePage.Interaction.Basic
import LivePage.Proofs.Context.Document
import LivePage.Proofs.Path.Failure

/-!
# Failed writes of actions

When a write through a context fails, and with it the action that asked for it, the context is as it
was before just where the write was blocked: the part cannot be written, the path is empty, or a
value that was there has no place for the next segment of the path.
-/

namespace LivePage

namespace Context

variable {c : Context} {k : Namespace} {v : Value} {p : Path}

/-- Nothing in a part is written at a path. -/
def Bars (c : Context) (k : Namespace) (p : Path) : Prop :=
  ¬k.Writable ∨ p = [] ∨ (c.snapshot k).Blocks p

theorem write_fails_unchanged_iff :
    (c.write k v p).2.isSome = true ∧ (c.write k v p).1 = c ↔ c.Bars k p := by
  by_cases hat : ¬k.Writable ∨ p = [] ∨ ∃ i rest, p = .index i :: rest
  · obtain ⟨hc, hf⟩ := write_fails_at_once (c := c) v hat
    simp only [hc, hf, true_and, true_iff]
    rcases hat with h | h | ⟨i, rest, rfl⟩
    · exact .inl h
    · exact .inr (.inl h)
    · by_cases hk : k.Writable
      · obtain ⟨m, -, hs⟩ := exists_entries_of_writable (c := c) hk
        exact .inr (.inr ⟨[], .index i, rest, .obj m, rfl, by simp [hs], trivial⟩)
      · exact .inl hk
  · obtain ⟨hk, hat⟩ := not_or.mp hat
    have hk : k.Writable := Classical.not_not.mp hk
    match p with
    | [] => exact absurd (.inl rfl) hat
    | .index i :: rest => exact absurd (.inr ⟨i, rest, rfl⟩) hat
    | .key key :: rest =>
      obtain ⟨hs, hf, hne⟩ := snapshot_write_key (c := c) hk v key rest
      have hsame : (c.write k v (.key key :: rest)).1 = c ↔
          (Value.write v (.key key :: rest) (c.snapshot k)).1 = c.snapshot k := by
        constructor
        · intro h
          rw [← hs, h]
        · intro h
          refine ext_snapshot fun j ↦ ?_
          by_cases hj : j = k
          · rw [hj, hs, h]
          · exact hne j hj
      rw [hf, hsame, Value.write_fails_unchanged_iff]
      simp [Bars, hk]

/-- A failed write leaves the context as it was just where it was barred. -/
theorem assign_eq_self_iff {path : String} (h : (c.assign k path v).2.isSome = true) :
    (c.assign k path v).1 = c ↔ c.Bars k (Path.parse path) := by
  rw [← write_fails_unchanged_iff (v := v)]
  exact ⟨fun he ↦ ⟨h, he⟩, fun he ↦ he.2⟩

end Context

namespace Interaction

variable {s : Interaction} {k : Namespace} {kind : EventKind} {path : String} {v : Value}
  {e : ActionError}

/-- A write of an action fails with the write through the context, and leaves what that leaves. -/
theorem assign_of_write_eq_error (h : (s.write k kind path v).2 = .error e) :
    (s.context.assign k path v).2.isSome = true ∧
      (s.write k kind path v).1.context = (s.context.assign k path v).1 := by
  unfold write at h ⊢
  split at h
  · cases h
  · next hc => simp [hc]

theorem context_write_eq_iff (h : (s.write k kind path v).2 = .error e) :
    (s.write k kind path v).1.context = s.context ↔ s.context.Bars k (Path.parse path) := by
  obtain ⟨hf, hc⟩ := assign_of_write_eq_error h
  rw [hc]
  exact Context.assign_eq_self_iff hf

/-- A failed write leaves a value as it was just where the value blocks the path, and a context just
where it bars the path; so do the writes of actions: of the state, of the variables, and of results
that are kept. -/
theorem failed_write_unchanged_iff (v root : Value) (p : Path) (c : Context) (k : Namespace)
    (s : Interaction) (key : String) :
    ((Value.write v p root).2.isSome = true →
      ((Value.write v p root).1 = root ↔ root.Blocks p)) ∧
    ((c.assign k key v).2.isSome = true →
      ((c.assign k key v).1 = c ↔
        ¬k.Writable ∨ Path.parse key = [] ∨ (c.snapshot k).Blocks (Path.parse key))) ∧
    (∀ e, (s.setState key v).2 = .error e → ((s.setState key v).1.context = s.context ↔
      Path.parse key = [] ∨ (s.context.snapshot .state).Blocks (Path.parse key))) ∧
    (∀ e, (s.setVariable key v).2 = .error e → ((s.setVariable key v).1.context = s.context ↔
      Path.parse key = [] ∨ (s.context.snapshot .vars).Blocks (Path.parse key))) ∧
    ∀ e, (s.keep (some key) v).2 = .error e → ((s.keep (some key) v).1.context = s.context ↔
      Path.parse key = [] ∨ (s.context.snapshot .state).Blocks (Path.parse key)) := by
  have bars {c : Context} {k : Namespace} (hk : k.Writable) (p : Path) :
      c.Bars k p ↔ p = [] ∨ (c.snapshot k).Blocks p := by
    simp [Context.Bars, hk]
  have state : Namespace.Writable .state := ⟨nofun, nofun⟩
  have vars : Namespace.Writable .vars := ⟨nofun, nofun⟩
  refine ⟨Value.write_eq_self_iff, Context.assign_eq_self_iff, fun e h ↦ ?_, fun e h ↦ ?_,
    fun e h ↦ ?_⟩
  · exact (context_write_eq_iff h).trans (bars state _)
  · exact (context_write_eq_iff h).trans (bars vars _)
  · exact (context_write_eq_iff h).trans (bars state _)

/-- A write through a number fails where the number stands, and nothing is changed. -/
theorem failed_write_through_number :
    (Value.write (.bool true) [.key "count", .key "value"] (.obj [("count", .int 1)])).1 =
        .obj [("count", .int 1)] ∧
      (({ context := { state := [("count", .int 1)] } } : Interaction).setState "count.value"
        (.bool true)).1.context = { state := [("count", .int 1)] } := by
  have hb : (Value.obj [("count", .int 1)]).Blocks [.key "count", .key "value"] :=
    ⟨[.key "count"], .key "value", [], .int 1, rfl, rfl, trivial⟩
  have hp : Path.parse "count.value" = [.key "count", .key "value"] := by decide
  obtain ⟨value, -, state, -⟩ := failed_write_unchanged_iff (.bool true)
    (.obj [("count", .int 1)]) [.key "count", .key "value"] {} .state
    { context := { state := [("count", .int 1)] } } "count.value"
  refine ⟨(value rfl).mpr hb, ?_⟩
  refine (state (.assign "count.value" (.notContainer "value" "number")) ?_).mpr (.inr (hp ▸ hb))
  simp only [setState, write, Context.assign, hp]
  rfl

/-- A write at an index behind a member that is missing fails, and leaves the member behind: as a
value, in the state of a context, and in the context of an action. -/
theorem failed_write_leaves_member :
    (Value.write (.bool true) [.key "a", .index 0] .null).2 = some (.notContainer "[0]" "null") ∧
    (Value.write (.bool true) [.key "a", .index 0] .null).1 ≠ .null ∧
    ((Context.assign {} .state "a[0]" (.bool true)).2 = some (.notContainer "[0]" "null") ∧
      (Context.assign {} .state "a[0]" (.bool true)).1 ≠ {}) ∧
    ((({} : Interaction).setState "a[0]" (.bool true)).2 =
        .error (.assign "a[0]" (.notContainer "[0]" "null")) ∧
      (({} : Interaction).setState "a[0]" (.bool true)).1.context ≠ {}) := by
  have hp : Path.parse "a[0]" = [.key "a", .index 0] := by decide
  simp only [setState, write, Context.assign, hp]
  refine ⟨rfl, fun h ↦ ?_, ⟨rfl, fun h ↦ ?_⟩, rfl, fun h ↦ ?_⟩
  · cases h
  · cases h
  · cases h

end Interaction

end LivePage
