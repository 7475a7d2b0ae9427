import LivePage.Session.Dispatch
import LivePage.Session.Render

/-!
# Histories of sessions

What is done to a session is a list of operations, each of which takes it to another session.  All
that is done to it leaves its configuration alone; only renderings, the end of their time and the
clearing of the cache change what the cache keeps.
-/

namespace LivePage.Session

/-- What can be done to a session. -/
inductive Operation where
  /-- A page is rendered in a context, unless that is cancelled before it starts. -/
  | render (c : Context) (cancelled : Bool) (p : Page) (o : Option RenderOptions)
  | clearCache
  | mount (p : Page)
  | unmount (p : Page)
  | register (nodeId : String) (h : Handler)
  | unregister (nodeId : String) (event? : Option String)
  | clearHandlers
  | assign (k : Namespace) (path : String) (v : Value)
  | dispatch (event : String) (data : Value)
  | advance (duration : Nat)
  | deliver

/-- The same session in another context. -/
def within (s : Session) (c : Context) : Session :=
  { s with interaction := { s.interaction with context := c } }

/-- Renders a page in a context that may be another than that of the handlers. -/
def renderIn (s : Session) (c : Context) (cancelled : Bool) (p : Page)
    (o : Option RenderOptions) : Session × Except RenderError Rendering :=
  let (t, result) := (s.within c).renderUnless cancelled p o
  (t.within s.context, result)

def after (s : Session) : Operation → Session
  | .render c cancelled p o => (s.renderIn c cancelled p o).1
  | .clearCache => s.clearCache
  | .mount p => (s.mount p).1
  | .unmount p => (s.unmount p).2
  | .register nodeId h => s.register nodeId h
  | .unregister nodeId event? => (s.unregister nodeId event?).2
  | .clearHandlers => s.clearHandlers
  | .assign k path v => (s.assign k path v).1
  | .dispatch event data => (s.dispatch event data).1
  | .advance duration => s.advance (s.now + duration)
  | .deliver => s.deliver

/-- What a session is after operations one after another. -/
def run (s : Session) (ops : List Operation) : Session := ops.foldl after s

theorem run_append (s : Session) (ops : List Operation) (op : Operation) :
    s.run (ops ++ [op]) = (s.run ops).after op := List.foldl_append ..

/-! ## Handlers -/

/-- Handlers come with a page, and nothing else changes. -/
theorem exists_mount_eq (s : Session) (p : Page) :
    ∃ registry, (s.mount p).1 = { s with registry := registry } := by
  unfold mount
  split
  · exact ⟨_, rfl⟩
  · exact ⟨s.registry, rfl⟩

theorem cancel_subset (xs : List Registered) (ws : List Waiting) :
    xs.foldl (fun ws x ↦ Waiting.cancel x.number ws) ws ⊆ ws := by
  induction xs generalizing ws with
  | nil => exact List.Subset.refl _
  | cons x r ih => exact List.Subset.trans (ih _) List.filter_sublist.subset

/-- Handlers go with their nodes, and nothing else changes but that some of them wait no more. -/
theorem exists_unregisterAll_eq (s : Session) (ns : List Node) :
    ∃ registry waiting, (s.unregisterAll ns).2 =
      { s with registry := registry, waiting := waiting } ∧ waiting ⊆ s.waiting := by
  induction ns generalizing s with
  | nil => exact ⟨s.registry, s.waiting, rfl, List.Subset.refl _⟩
  | cons n r ih =>
    obtain ⟨registry, waiting, h, hw⟩ := ih (s.unregister n.id none).2
    exact ⟨registry, waiting, h, List.Subset.trans hw (cancel_subset ..)⟩

/-! ## Renderings -/

variable {s : Session} {p : Page} {c : Context} {cancelled : Bool} {o : RenderOptions}

/-- All that a rendering can come to, with the session that it leaves. -/
inductive Rendered (s : Session) (c : Context) (cancelled : Bool) (p : Page) (o : RenderOptions) :
    Session → Except RenderError Rendering → Prop where
  | cached {r : Rendering} (valid : p.isValid = true) (kept : s.cached? p o = some r) :
    Rendered s c cancelled p o (s.notify (.renderCached p.id) []) (.ok r)
  | anew {xs : List Element} (valid : p.isValid = true) (missed : s.cached? p o = none)
      (within : p.analysis.check s.config.maxDepth s.config.maxNodes = .ok ())
      (content : (s.within c).content p = .ok xs) :
    Rendered s c cancelled p o
      (((s.notify (.renderStarted p.id) []).store p (rendering p o xs)).notify
        (.renderCompleted p.id) [("renderTime", .ofFloat 0.0)])
      (.ok (rendering p o xs))
  /-- Nothing is announced but the failure. -/
  | refused {e : RenderError}
      (early : cancelled = true ∨ p.isValid = false ∨ s.cached? p o = none) :
    Rendered s c cancelled p o (s.report p e) (.error e)
  | failed {e : PropError} (valid : p.isValid = true) (missed : s.cached? p o = none) :
    Rendered s c cancelled p o ((s.notify (.renderStarted p.id) []).report p (.binding e))
      (.error (.binding e))

theorem store_of_enabled (h : s.config.cache.enabled = true) (p : Page) (r : Rendering) :
    s.store p r = { s with cache := (s.cache.insert s.now p.id r).2 } := if_pos h

theorem store_of_not_enabled (h : ¬s.config.cache.enabled = true) (p : Page) (r : Rendering) :
    s.store p r = s := if_neg h

theorem within_store (s : Session) (c d : Context) (r : Rendering) :
    ((s.within c).store p r).within d = (s.within d).store p r := by
  by_cases h : s.config.cache.enabled = true
  · rw [store_of_enabled (s := s.within c) h, store_of_enabled (s := s.within d) h]
    rfl
  · rw [store_of_not_enabled (s := s.within c) h, store_of_not_enabled (s := s.within d) h]
    rfl

section

variable {t : Session} {o? : Option RenderOptions} {r : Rendering} {e : RenderError}

theorem renderIn_of_ok
    (h : (s.within c).renderPage p (o?.getD s.config.options) = (t, .ok r)) :
    s.renderIn c false p o? = (t.within s.context, .ok r) := by
  have h : (s.within c).renderPage p (o?.getD (s.within c).config.options) = (t, .ok r) := h
  simp [renderIn, renderUnless, render, h]

theorem renderIn_of_error
    (h : (s.within c).renderPage p (o?.getD s.config.options) = (t, .error e)) :
    s.renderIn c false p o? = ((t.report p e).within s.context, .error e) := by
  have h : (s.within c).renderPage p (o?.getD (s.within c).config.options) = (t, .error e) := h
  simp [renderIn, renderUnless, render, h]

end

theorem rendered_renderIn (s : Session) (c : Context) (cancelled : Bool) (p : Page)
    (o? : Option RenderOptions) :
    Rendered s c cancelled p (o?.getD s.config.options) (s.renderIn c cancelled p o?).1
      (s.renderIn c cancelled p o?).2 := by
  cases cancelled with
  | true => exact .refused (.inl rfl)
  | false =>
    have hc : (s.within c).cached? p (o?.getD s.config.options) =
      s.cached? p (o?.getD s.config.options) := rfl
    cases hv : p.isValid with
    | false =>
      rw [renderIn_of_error (by simp only [renderPage, hv]; rfl)]
      exact .refused (.inr (.inl hv))
    | true =>
      cases hk : s.cached? p (o?.getD s.config.options) with
      | some r =>
        rw [renderIn_of_ok (by simp only [renderPage, hv, hc, hk]; rfl)]
        exact .cached hv hk
      | none =>
        cases hw : p.analysis.check (s.within c).config.maxDepth (s.within c).config.maxNodes with
        | error e =>
          rw [renderIn_of_error (by simp only [renderPage, hv, hc, hk, hw]; rfl)]
          exact .refused (.inr (.inr hk))
        | ok _ =>
          cases hx : (s.within c).content p with
          | error e =>
            have hx : ((s.within c).notify (.renderStarted p.id) []).content p = .error e := hx
            rw [renderIn_of_error (by simp only [renderPage, hv, hc, hk, hw, renderFresh, hx]; rfl)]
            exact .failed hv hk
          | ok xs =>
            have hy : ((s.within c).notify (.renderStarted p.id) []).content p = .ok xs := hx
            have hs : (((s.within c).notify (.renderStarted p.id) []).store p
                (rendering p (o?.getD s.config.options) xs)).within s.context =
                  (s.notify (.renderStarted p.id) []).store p
                    (rendering p (o?.getD s.config.options) xs) :=
              within_store (s.notify (.renderStarted p.id) []) c s.context _
            rw [renderIn_of_ok (by simp only [renderPage, hv, hc, hk, hw, renderFresh, hy]; rfl)]
            have h : Rendered s c false p (o?.getD s.config.options) _ _ := .anew hv hk hw hx
            rw [← hs] at h
            exact h

/-- Renderings change what is announced, kept and noted, and nothing else. -/
theorem exists_renderIn_eq (s : Session) (c : Context) (cancelled : Bool) (p : Page)
    (o : Option RenderOptions) : ∃ notices cache failures, (s.renderIn c cancelled p o).1 =
      { s with
        interaction := { s.interaction with notices := notices }, cache := cache
        failures := failures } := by
  have hr := rendered_renderIn s c cancelled p o
  generalize s.renderIn c cancelled p o = x at hr ⊢
  obtain ⟨t, result⟩ := x
  cases hr with
  | cached | refused | failed => exact ⟨_, _, _, rfl⟩
  | anew =>
    by_cases he : s.config.cache.enabled = true
    · rw [store_of_enabled (s := s.notify (.renderStarted p.id) []) he]
      exact ⟨_, _, _, rfl⟩
    · rw [store_of_not_enabled (s := s.notify (.renderStarted p.id) []) he]
      exact ⟨_, _, _, rfl⟩

end LivePage.Session
