import LivePage.Proofs.Page.Order
import LivePage.Proofs.Render.Correspondence
import LivePage.Session.Render

/-!
# Rendered pages

A page that is rendered anew loses, repeats and reorders nothing of what its loops and conditions
leave.
-/

namespace LivePage

/-- The nodes on the ways of a page whose slots are in order have theirs in order. -/
theorem Page.ordered_of_isWay {p : Page} {c : Context} {v : Visit} {w : Way} (hp : p.Ordered)
    (h : p.IsWay c (v :: w)) : v.node.Ordered := by
  induction w generalizing v with
  | nil =>
    rcases isWay_cons.mp h with ⟨-, n, hn, hv⟩ | ⟨-, u, above, he, -⟩
    · rw [hv.2.2.1]
      exact hp n hn
    · cases he
  | cons u w ih =>
    rcases isWay_cons.mp h with ⟨he, -⟩ | ⟨hw, _, _, he, hb, -⟩
    · cases he
    · cases he
      obtain ⟨-, children, below⟩ := ih hw
      rcases hb with ⟨-, hm⟩ | ⟨_, _, ns, -, hs, hm⟩
      · exact children _ (List.mem_of_getElem? hm)
      · exact below _ (List.mem_of_getElem? hs) _ (List.mem_of_getElem? hm)

theorem Page.isWay_of_mem {p : Page} {c : Context} {v : Visit} {w : Way} (h : p.IsWay c w)
    (hv : v ∈ w) : ∃ above, p.IsWay c (v :: above) := by
  obtain ⟨below, above, rfl⟩ := List.append_of_mem hv
  exact ⟨above, isWay_of_append h⟩

namespace Session

variable {s : Session} {p : Page} {xs : List Element}

theorem mirrored_content (h : s.content p = .ok xs) :
    Mirrored s.renderer [] [] (p.ways s.context) (Element.trailsList [] .root 0 xs) := by
  unfold content at h
  unfold Page.ways
  cases hp : p.root with
  | none =>
    rw [hp] at h
    cases h
    exact .of_hidden nofun
  | some n =>
    rw [hp] at h
    have hn : Mirrored s.renderer [] [] (n.ways [] .root 0 s.context) _ :=
      Node.mirrorsWays s.renderer n h rfl [] .root 0 0
    simpa [Node.waysList] using hn

theorem render_snd (s : Session) (p : Page) (o : Option RenderOptions) :
    (s.render p o).2 = (s.renderPage p (o.getD s.config.options)).2 := by
  unfold render
  split
  · next h => rw [h]
  · rfl

/-- Where the size of a page is checked, only its content can fail. -/
theorem renderFresh_snd (s : Session) (p : Page) (o : RenderOptions) :
    (s.renderFresh p o).2 = ((s.content p).map (rendering p o)).mapError .binding := by
  have hn : (s.notify (.renderStarted p.id) []).content p = s.content p := rfl
  simp only [renderFresh, hn]
  cases s.content p <;> rfl

/-- A page that has not been rendered before is rendered to its content. -/
theorem content_of_render {o : Option RenderOptions} {r : Rendering}
    (hc : s.cached? p (o.getD s.config.options) = none) (h : (s.render p o).2 = .ok r) :
    s.content p = .ok r.content := by
  rw [render_snd, renderPage] at h
  split at h
  · simp only [hc] at h
    split at h
    · cases h
    · rw [renderFresh_snd] at h
      obtain ⟨xs, hx, rfl⟩ := map_eq_ok_iff.mp (mapError_eq_ok_iff.mp h)
      exact hx
  · cases h

/-- The elements of a page that is rendered anew, children before slots, are paired one by one and
in order with the ways through the page whose conditions all hold, and the element above one of
them with the place above the other.  The ways are those that can be gone step by step; they are
told apart by the node and the iterations that they lead to, and come in depth-first order, slots
by name where the page was read.  On them, the variables hold the item and the index of each
iteration where a loop tells these apart.  A loop over what is no list renders nothing, and does
not fail. -/
theorem render_mirrors_ways {o : Option RenderOptions} {r : Rendering}
    (hc : s.cached? p (o.getD s.config.options) = none) (h : (s.render p o).2 = .ok r) :
    (∃ pairs : List (Way × Trail),
      pairs.map Prod.fst = (p.ways s.context).filter (·.shown s.renderer.clock) ∧
        pairs.map Prod.snd = r.trails ∧
          ∀ w t, (w, t) ∈ pairs → w.Shows s.renderer t ∧
            ((w.tail, t.tail) = ([], []) ∨ (w.tail, t.tail) ∈ pairs)) ∧
    (∀ w, w ∈ p.ways s.context ↔ p.IsWay s.context w) ∧
    ((p.ways s.context).map fun w ↦ (w.address, w.indices)).Nodup ∧
    (p.ways s.context).Pairwise (DepthFirst Visit.Precedes) ∧
    (∀ surplus t, Page.ofTree surplus t = .ok p →
      ∀ w ∈ p.ways s.context, ∀ v ∈ w, Fields.Sorted v.node.slots) ∧
    (∀ w ∈ p.ways s.context, ∀ v ∈ w, ∀ l, v.node.loop = some l → ∃ i item,
      v.turn = some i ∧ (l.items v.outer)[i]? = some item ∧ (l.itemKey ≠ l.indexKey →
        v.inner.vars.get? l.itemKey = some item ∧ v.inner.vars.get? l.indexKey = some (.nat i))) ∧
    ∀ (e : Renderer) (n : Node) (c : Context) (l : Loop), n.loop = some l →
      (∀ vs, l.sourceValue c ≠ .arr vs) → n.render e c = .ok [] := by
  refine ⟨mirrored_content (content_of_render hc h), fun w ↦ Page.mem_ways, p.ways_nodup _,
    p.ways_pairwise _, fun surplus t hp w hw v hv ↦ ?_, fun w hw v hv l hl ↦ ?_,
    fun e n c l ↦ Node.render_of_not_list⟩
  · obtain ⟨above, hv⟩ := Page.isWay_of_mem (Page.mem_ways.mp hw) hv
    obtain ⟨slots, -⟩ := Page.ordered_of_isWay (Page.ordered_of_ofTree hp) hv
    exact slots
  · obtain ⟨above, hv⟩ := Page.isWay_of_mem (Page.mem_ways.mp hw) hv
    exact Visit.exists_item (Page.isTurn_of_isWay hv) hl

/-- A list with a footer and two rows, one of which is hidden in its own iteration: three elements
for four places. -/
theorem renders_shown_rows :
    let row : Node :=
      { id := "row", type := "row", loop := some { source := .items [.bool true, .bool false] }
        condition := some (.simple "variables.item" (some .notEquals) (.bool false)) }
    let root : Node :=
      { id := "list", type := "list", children := [row]
        slots := [("footer", [{ id := "note", type := "text" }])] }
    let p : Page := { id := "page", version := "1.0.0", root := some root }
    let s : Session := .start {} [] (.alone 0) {}
    s.cached? p s.config.options = none ∧ (p.ways s.context).length = 4 ∧
      ∃ r, (s.render p none).2 = .ok r ∧ ∃ pairs : List (Way × Trail),
        pairs.length = 3 ∧ pairs.map Prod.snd = r.trails := by
  intro row root p s
  have hr : ∃ r, (s.render p none).2 = .ok r := by
    subst s p root row
    exact ⟨_, rfl⟩
  obtain ⟨r, hr⟩ := hr
  refine ⟨rfl, by decide, r, hr, ?_⟩
  obtain ⟨⟨pairs, hw, ht, -⟩, -⟩ := render_mirrors_ways (o := none) rfl hr
  refine ⟨pairs, ?_, ht⟩
  rw [← List.length_map Prod.fst, hw]
  decide

end Session

end LivePage
