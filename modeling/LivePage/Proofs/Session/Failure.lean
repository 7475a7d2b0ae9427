import LivePage.Proofs.Render.Failure
import LivePage.Proofs.Session.Render

/-!
# Pages that fail to be rendered

A valid page within the limits fails to be rendered just where a strict binding of it breaks, and
tells the first such binding in depth-first order.
-/

namespace LivePage

namespace Session

variable {s : Session} {p : Page}

theorem failure?_content (s : Session) (p : Page) :
    failure? (s.content p) = (p.ways s.context).findSome? (Way.fault? s.renderer.clock) := by
  unfold content Page.ways
  cases p.root with
  | none => rfl
  | some n =>
    have hn : failure? (n.render s.renderer s.context) =
        (n.ways [] .root 0 s.context).findSome? (Way.fault? s.renderer.clock) :=
      Node.failsAlongWays s.renderer n rfl .root 0 s.context
    simpa [Node.waysList] using hn

/-- The content of a page fails with the first binding that breaks the page. -/
theorem content_eq_error_iff {e : PropError} : s.content p = .error e ↔
    ∃ w i, p.IsWay s.context w ∧ w.Breaks s.renderer.clock i e ∧ ∀ w' i' e',
      p.IsWay s.context w' → w'.Breaks s.renderer.clock i' e' →
        w = w' ∧ i ≤ i' ∨ DepthFirst Visit.Precedes w w' := by
  rw [← failure?_eq_some_iff, failure?_content,
    findSome?_eq_some_iff_of_pairwise (p.ways_pairwise s.context)]
  constructor
  · rintro ⟨w, hw, hf, first⟩
    obtain ⟨i, hb, least⟩ := Way.fault?_eq_some_iff.mp hf
    refine ⟨w, i, Page.mem_ways.mp hw, hb, fun w' i' e' hw' hb' ↦ ?_⟩
    refine (first w' (Page.mem_ways.mpr hw') (Way.fault?_ne_none_iff.mpr ⟨i', e', hb'⟩)).imp_left ?_
    rintro rfl
    exact ⟨rfl, least i' e' hb'⟩
  · rintro ⟨w, i, hw, hb, first⟩
    refine ⟨w, Page.mem_ways.mpr hw, Way.fault?_eq_some_iff.mpr ⟨i, hb, fun j y hj ↦ ?_⟩, ?_⟩
    -- no way comes before itself, so the index tells the bindings of one place
    · rcases first w j y hw hj with ⟨-, hle⟩ | h
      · exact hle
      · exact absurd h (Std.Asymm.asymm _ _ h)
    · intro w' hw' hf
      obtain ⟨i', e', hb'⟩ := Way.fault?_ne_none_iff.mp hf
      exact (first w' i' e' (Page.mem_ways.mp hw') hb').imp_left And.left

theorem exists_content_eq_error_iff : (∃ e, s.content p = .error e) ↔
    ∃ w i e, p.IsWay s.context w ∧ w.Breaks s.renderer.clock i e := by
  constructor
  · rintro ⟨e, h⟩
    obtain ⟨w, i, hw, hb, -⟩ := content_eq_error_iff.mp h
    exact ⟨w, i, e, hw, hb⟩
  · rintro ⟨w, i, e, hw, hb⟩
    by_contra h
    have hn : failure? (s.content p) = none := by
      rw [Option.eq_none_iff_forall_ne_some]
      exact fun e he ↦ h ⟨e, failure?_eq_some_iff.mp he⟩
    rw [failure?_content, List.findSome?_eq_none_iff] at hn
    exact Way.fault?_ne_none_iff.mpr ⟨i, e, hb⟩ (hn w (Page.mem_ways.mpr hw))

/-- Behind validation and limits, a page that has not been rendered before fails as its content
does. -/
theorem render_eq_error_iff {o : Option RenderOptions} {x : RenderError} (hv : p.isValid)
    (hc : s.cached? p (o.getD s.config.options) = none)
    (hl : p.analysis.check s.config.maxDepth s.config.maxNodes = .ok ()) :
    (s.render p o).2 = .error x ↔ ∃ e, x = .binding e ∧ s.content p = .error e := by
  rw [render_snd, renderPage, if_pos hv]
  simp only [hc, hl]
  rw [renderFresh_snd, ← failure?_eq_some_iff, failure?_mapError, failure?_map,
    Option.map_eq_some_iff]
  constructor
  · rintro ⟨e, he, rfl⟩
    exact ⟨e, rfl, failure?_eq_some_iff.mp he⟩
  · rintro ⟨e, rfl, he⟩
    exact ⟨e, failure?_eq_some_iff.mpr he, rfl⟩

/-- Each shown way has an element on a page that is rendered. -/
theorem exists_element_of_shown {xs : List Element} {v : Visit} {above : Way}
    (h : s.content p = .ok xs) (hw : p.IsWay s.context (v :: above))
    (shown : Way.shown s.renderer.clock (v :: above) = true) :
    ∃ x below, x :: below ∈ Element.trailsList [] .root 0 xs ∧ v.Shows s.renderer x.element := by
  obtain ⟨pairs, hfst, hsnd, hp⟩ := mirrored_content h
  have hm : v :: above ∈ pairs.map Prod.fst := by
    rw [hfst]
    exact List.mem_filter.mpr ⟨Page.mem_ways.mpr hw, shown⟩
  obtain ⟨⟨w, t⟩, hm, rfl⟩ := List.mem_map.mp hm
  obtain ⟨hs, -⟩ := hp _ t hm
  cases t with
  | nil => exact hs.elim
  | cons x below => exact ⟨x, below, hsnd ▸ List.mem_map_of_mem (f := Prod.snd) hm, hs.1⟩

/-- A valid page within the limits that is rendered anew fails just where a binding of a shown place
is strict, has no default and fails.  The error names the node and the target of the first one:
places are in depth-first order, slots by name where the page was read, and the bindings of a place
are in their own order.  Every other failure of a binding is replaced, and each element that is
rendered has what took its place. -/
theorem render_fails_at_first_strict {o : Option RenderOptions} (hv : p.isValid)
    (hc : s.cached? p (o.getD s.config.options) = none)
    (hl : p.analysis.check s.config.maxDepth s.config.maxNodes = .ok ()) :
    (∀ x, (s.render p o).2 = .error x ↔ ∃ w i e, x = .binding e ∧ p.IsWay s.context w ∧
      w.Breaks s.renderer.clock i e ∧ ∀ w' i' e', p.IsWay s.context w' →
        w'.Breaks s.renderer.clock i' e' →
          w = w' ∧ i ≤ i' ∨ DepthFirst Visit.Precedes w w') ∧
    ((∃ x, (s.render p o).2 = .error x) ↔
      ∃ w i e, p.IsWay s.context w ∧ w.Breaks s.renderer.clock i e) ∧
    (∀ surplus t, Page.ofTree surplus t = .ok p →
      ∀ w, p.IsWay s.context w → ∀ v ∈ w, Fields.Sorted v.node.slots) ∧
    (∀ (b : Binding) (c : Context) (clock : Int) (v : Value), b.Degrades c clock v →
      (∀ e, ¬b.Breaks c clock e) → b.resolve c clock = .ok v) ∧
    ∀ r, (s.render p o).2 = .ok r → ∀ v above, p.IsWay s.context (v :: above) →
      Way.shown s.renderer.clock (v :: above) = true →
        ∃ x below, x :: below ∈ r.trails ∧ v.Shows s.renderer x.element ∧
          ∀ b value, v.node.Decides b → b.Degrades v.inner s.renderer.clock value →
            x.element.props.get? b.target = some value := by
  refine ⟨fun x ↦ ?_, ?_, fun surplus t hp w hw v hv ↦ ?_,
    fun b c clock v ↦ Binding.resolve_of_degrades, fun r hr v above hw shown ↦ ?_⟩
  · rw [render_eq_error_iff hv hc hl]
    constructor
    · rintro ⟨e, rfl, he⟩
      obtain ⟨w, i, h⟩ := content_eq_error_iff.mp he
      exact ⟨w, i, e, rfl, h⟩
    · rintro ⟨w, i, e, rfl, h⟩
      exact ⟨e, rfl, content_eq_error_iff.mpr ⟨w, i, h⟩⟩
  · rw [← exists_content_eq_error_iff]
    constructor
    · rintro ⟨x, hx⟩
      obtain ⟨e, -, he⟩ := (render_eq_error_iff hv hc hl).mp hx
      exact ⟨e, he⟩
    · rintro ⟨e, he⟩
      exact ⟨_, (render_eq_error_iff hv hc hl).mpr ⟨e, rfl, he⟩⟩
  · obtain ⟨above, hv⟩ := Page.isWay_of_mem hw hv
    obtain ⟨slots, -⟩ := Page.ordered_of_isWay (Page.ordered_of_ofTree hp) hv
    exact slots
  · obtain ⟨x, below, hx, hs⟩ := exists_element_of_shown (content_of_render hc hr) hw shown
    exact ⟨x, below, hx, hs, fun b value ↦ hs.get?_props⟩

/-- A draft that is hidden breaks nothing, and neither does the color of a row, which is not strict.
The page fails with the text of the second row; the first one is hidden in its own iteration. -/
theorem render_fails_in_row :
    let text : Binding :=
      { target := "text", kind := .datasource, source := .nat 3, mode := .strict }
    let draft : Node :=
      { id := "draft", type := "text", bindings := [text]
        condition := some (.simple "data.draft" (some .equals) (.bool true)) }
    let row : Node :=
      { id := "row", type := "row", loop := some { source := .items [.bool true, .bool false] }
        condition := some (.simple "variables.item" (some .notEquals) (.bool true))
        bindings := [{ target := "color", kind := .state, source := .null }, text] }
    let root : Node := { id := "list", type := "list", children := [draft, row] }
    let p : Page := { id := "page", version := "1.0.0", root := some root }
    let s : Session := .start {} [] (.alone 0) {}
    let e : PropError := ⟨"row", "text", .invalidSource "text" "datasource" "number"⟩
    p.isValid ∧ s.cached? p s.config.options = none ∧
      p.analysis.check s.config.maxDepth s.config.maxNodes = .ok () ∧
        ∃ w i, p.IsWay s.context w ∧ w.Breaks s.renderer.clock i e := by
  intro text draft row root p s e
  have hv : p.isValid := by
    subst p root row draft text
    rfl
  have hl : p.analysis.check s.config.maxDepth s.config.maxNodes = .ok () := by
    subst s p root row draft text
    rfl
  have he : (s.render p none).2 = .error (.binding e) := by
    subst e s p root row draft text
    rfl
  obtain ⟨fails, -⟩ := render_fails_at_first_strict (o := none) hv rfl hl
  obtain ⟨w, i, e', h, hw, hb, -⟩ := (fails _).mp he
  cases h
  exact ⟨hv, rfl, hl, w, i, hw, hb⟩

end Session

end LivePage
