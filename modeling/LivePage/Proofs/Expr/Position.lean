import Mathlib
import LivePage.Proofs.Expr.Offence
import LivePage.Proofs.Expr.Tiling

/-!
# The place of a syntax error

The place that is reported of a source that is no expression is the start of the first token that is
not viable with those in front of it, and the end of the source if all tokens are viable, since then
they only end too early.  Where they end in front of an entry of an object, the place is the start
of the last token instead.
-/

namespace LivePage

namespace Expr

/-- The tokens that start in front of a place. -/
def tokensBefore (ts : List Spanned) (pos : Nat) : List Token :=
  (ts.filter (·.start < pos)).map (·.token)

/-- A place in a source with some tokens is the one of the first token that offends, or the end if
none does. -/
structure PointsAtOffence (source : String) (ts : List Spanned) (pos : Nat) : Prop where
  viable : Viable (tokensBefore ts pos)
  not_viable : ∀ s ∈ ts, s.start = pos → ¬Viable (tokensBefore ts pos ++ [s.token])
  at_token : pos ≠ source.utf8ByteSize → ∃ s ∈ ts, s.start = pos
  at_end : pos = source.utf8ByteSize ↔ Viable (ts.map (·.token))

variable {source : String} {ts us rest : List Spanned} {s : Spanned} {pos : Nat} {e : SyntaxError}

/-- Tokens start one behind another, all of them in the source. -/
theorem starts_of_tokenize (h : tokenize source = .ok ts) :
    ts.Pairwise (fun s t ↦ s.start < t.start) ∧ ∀ s ∈ ts, s.start < source.utf8ByteSize := by
  rw [← source.ofList_toList] at h
  obtain ⟨pos', hread⟩ := reads_of_tokenize_eq h
  refine ⟨hread.apart.2.imp_of_mem fun hs _ hle ↦ ?_, fun s hs ↦ ?_⟩
  · exact Nat.lt_of_lt_of_le (hread.munches hs).nonempty hle
  · exact Nat.lt_of_lt_of_le (hread.munches hs).nonempty
      (String.Pos.Raw.le_iff.mp (hread.munches hs).stop_isValid.le_rawEndPos)

/-- At most one token starts at a place. -/
theorem eq_of_start_eq (h : ts.Pairwise fun s t ↦ s.start < t.start) {t : Spanned} (hs : s ∈ ts)
    (ht : t ∈ ts) (heq : s.start = t.start) : s = t :=
  List.inj_on_of_nodup_map (List.pairwise_map.mpr (h.imp Nat.ne_of_lt)) hs ht heq

/-- The place in front of the tokens that are left. -/
theorem positionOf_append (us rest : List Spanned) (stop : Nat) :
    positionOf (us ++ rest) stop rest.length = (rest.head?.map (·.start)).getD stop := by
  have hlen : (us ++ rest).length - rest.length = us.length := by simp
  rw [positionOf, hlen, List.getElem?_append_right (Nat.le_refl _), Nat.sub_self]
  cases rest <;> rfl

theorem tokensBefore_append (hu : ∀ s ∈ us, s.start < pos) (hr : ∀ s ∈ rest, pos ≤ s.start) :
    tokensBefore (us ++ rest) pos = us.map (·.token) := by
  have hus : us.filter (·.start < pos) = us := by simpa [List.filter_eq_self] using hu
  have hrest : rest.filter (·.start < pos) = [] := by simpa [List.filter_eq_nil_iff] using hr
  rw [tokensBefore, List.filter_append, hus, hrest, List.append_nil]

/-- Where reading stops, as a place among the tokens of a source. -/
theorem exists_rest (ht : tokenize source = .ok ts) (hne : ts ≠ []) (he : parse source = .error e) :
    ∃ x : Reject, ofTokens .standard (ts.map (·.token)) = .error x ∧ x.cause = e.cause ∧
      positionOf ts source.utf8ByteSize x.rest.length = e.position := by
  unfold parse at he
  rw [ht] at he
  cases ts with
  | nil => exact absurd rfl hne
  | cons s ts =>
    dsimp only at he
    split at he
    · cases he
    · next x hx =>
      cases he
      exact ⟨x, hx, rfl, rfl⟩

/-- Where reading stops in a source that is rejected, but not on account of the limits. -/
theorem exists_stop (ht : tokenize source = .ok ts) (hne : ts ≠ []) (he : parse source = .error e)
    (hc : ∀ limit, e.cause ≠ .tooDeep limit) :
    ∃ us rest, ts = us ++ rest ∧ e.position = (rest.head?.map (·.start)).getD source.utf8ByteSize ∧
      tokensBefore ts e.position = us.map (·.token) ∧ Viable (us.map (·.token)) ∧
      (AwaitsKey (ts.map (·.token)) → ∃ s, rest = [s]) ∧
      (¬AwaitsKey (ts.map (·.token)) → ∀ s r, rest = s :: r →
        ¬Viable (us.map (·.token) ++ [s.token])) := by
  obtain ⟨⟨cause, rest⟩, hx, rfl, hpos⟩ := exists_rest ht hne he
  obtain ⟨us, hmap, hv, hawaits, hoffends⟩ := rest_of_ofTokens hx hc
  obtain ⟨us, rest, rfl, rfl, rfl⟩ := List.map_eq_append_iff.mp hmap
  dsimp only at hpos
  rw [List.length_map, positionOf_append] at hpos
  obtain ⟨hstarts, hsize⟩ := starts_of_tokenize ht
  obtain ⟨-, hrest, hbehind⟩ := List.pairwise_append.mp hstarts
  refine ⟨us, rest, rfl, hpos.symm, ?_, hv, fun ha ↦ ?_, ?_⟩
  · rw [← hpos]
    cases rest with
    | nil => exact tokensBefore_append (fun s hs ↦ hsize s (List.mem_append_left _ hs)) (by simp)
    | cons s rest =>
      refine tokensBefore_append (fun t ht ↦ hbehind t ht s List.mem_cons_self) fun t ht ↦ ?_
      rcases List.mem_cons.mp ht with rfl | ht
      · exact Nat.le_refl _
      · exact Nat.le_of_lt (List.rel_of_pairwise_cons hrest ht)
  · obtain ⟨t, ht⟩ := hawaits ha
    obtain ⟨s, rest, rfl, -, hnil⟩ := List.map_eq_cons_iff.mp ht
    exact ⟨s, by rw [List.map_eq_nil_iff.mp hnil]⟩
  · rintro ha s r rfl
    exact hoffends ha s.token (r.map (·.token)) rfl

/-- The place of a source that is rejected, but not on account of the limits, is that of the first
token that offends, or the end if none does, unless the tokens end in front of an entry of an
object.  There it is the start of the last token, up to which they are viable as well. -/
theorem error_points_at_offence_iff (ht : tokenize source = .ok ts) (hne : ts ≠ [])
    (he : parse source = .error e) (hc : ∀ limit, e.cause ≠ .tooDeep limit) :
    (PointsAtOffence source ts e.position ↔ ¬AwaitsKey (ts.map (·.token))) ∧
      (AwaitsKey (ts.map (·.token)) → Viable (tokensBefore ts e.position) ∧
        ∃ s, ts.getLast? = some s ∧ e.position = s.start) := by
  obtain ⟨hstarts, hsize⟩ := starts_of_tokenize ht
  obtain ⟨us, rest, rfl, hpos, hbefore, hv, hawaits, hoffends⟩ := exists_stop ht hne he hc
  refine ⟨⟨fun hp ha ↦ ?_, fun ha ↦ ?_⟩, fun ha ↦ ?_⟩
  · obtain ⟨s, rfl⟩ := hawaits ha
    have hlt : e.position < source.utf8ByteSize := by
      rw [hpos]
      exact hsize s (by simp)
    exact Nat.ne_of_lt hlt (hp.at_end.mpr ha.2.of_append)
  · have hoffends := hoffends ha
    cases rest with
    | nil =>
      have hend : e.position = source.utf8ByteSize := hpos
      refine ⟨hbefore ▸ hv, fun s hs hstart ↦ ?_, fun h ↦ absurd hend h, ?_⟩
      · exact absurd (hstart.trans hend) (Nat.ne_of_lt (hsize s hs))
      · rw [List.append_nil]
        exact ⟨fun _ ↦ hv, fun _ ↦ hend⟩
    | cons s rest =>
      have hstart : e.position = s.start := hpos
      have hs := hoffends s rest rfl
      have hmem : s ∈ us ++ s :: rest := by simp
      have hlt := hsize s hmem
      refine ⟨hbefore ▸ hv, fun t ht htstart ↦ ?_, fun _ ↦ ⟨s, hmem, hstart.symm⟩, ?_, fun h ↦ ?_⟩
      · rw [eq_of_start_eq hstarts ht hmem (htstart.trans hstart), hbefore]
        exact hs
      · intro h
        rw [hstart] at h
        exact absurd h (Nat.ne_of_lt hlt)
      · rw [List.map_append, List.map_cons, List.append_cons] at h
        exact absurd h.of_append hs
  · obtain ⟨s, rfl⟩ := hawaits ha
    exact ⟨hbefore ▸ hv, s, List.getLast?_concat, hpos⟩

/-- Reading `[a b` stops at `b`, where a comma or the closing bracket could stand. -/
theorem points_at_second_item :
    PointsAtOffence "[a b" [⟨.delimiter .openBracket, 0, 1⟩, ⟨.identifier "a", 1, 2⟩,
      ⟨.identifier "b", 3, 4⟩] 3 := by
  have ht : tokenize "[a b" = .ok [⟨.delimiter .openBracket, 0, 1⟩, ⟨.identifier "a", 1, 2⟩,
      ⟨.identifier "b", 3, 4⟩] := by decide +kernel
  have he : parse "[a b" = .error ⟨.expected "`]`" (some (.identifier "b")), 3⟩ := by cbv
  refine (error_points_at_offence_iff ht (List.cons_ne_nil _ _) he (by simp)).1.mpr ?_
  exact Settled.not_awaitsKey ⟨.identifier "b", rfl, rfl⟩

/-- An object that only ends too early is reported at its opening brace. -/
theorem error_misses_end :
    tokenize "\x7b" = .ok [⟨.delimiter .openBrace, 0, 1⟩] ∧
    parse "\x7b" = .error ⟨.expected "a property name" (some (.delimiter .openBrace)), 0⟩ ∧
    ¬PointsAtOffence "\x7b" [⟨.delimiter .openBrace, 0, 1⟩] 0 := by
  refine ⟨by decide +kernel, by cbv, fun h ↦ ?_⟩
  have hd : Derives 1 (.expression (.object []))
      ([.delimiter .openBrace] ++ [.delimiter .closeBrace]) :=
    .plain ((Derives.bare (.start (.object .noEntries))).chain .nullish)
  exact absurd (h.at_end.mpr hd.viable.of_append) (by decide)

end Expr

end LivePage
