import Mathlib.Data.List.Induction
import LivePage.Proofs.Page.Analysis
import LivePage.Proofs.Render.Cache
import LivePage.Proofs.Session.History

/-!
# The course of a rendering

A rendering either takes what the cache keeps, which is what was rendered last for its id, or renders
anew and keeps that as the newest, or fails and keeps nothing.  Each of these is announced in its own
way.
-/

namespace LivePage

/-- A page within its limits has no node too deep, and not too many of them. -/
theorem Page.within_of_check {p : Page} {maxDepth maxNodes : Nat}
    (h : p.analysis.check maxDepth maxNodes = .ok ()) :
    p.nodes.length ≤ maxNodes ∧ ∀ x ∈ p.walk, x.2 ≤ maxDepth := by
  unfold Analysis.check at h
  split at h
  · cases h
  · next hd =>
    split at h
    · cases h
    · next hn =>
      have tells := p.tells_analysis
      refine ⟨?_, fun x hx ↦ (tells.deepest x hx).trans (Nat.le_of_not_lt hd)⟩
      rw [Page.nodes, List.length_map, ← tells.total]
      exact Nat.le_of_not_lt hn

namespace Session

variable {s : Session}

/-! ## What is rendered anew -/

/-- What an operation renders anew, with the id of the page. -/
def anew? (s : Session) : Operation → Option (String × Rendering)
  | .render c cancelled p o =>
    match s.cached? p (o.getD s.config.options) with
    | none => (s.renderIn c cancelled p o).2.toOption.map (p.id, ·)
    | some _ => none
  | _ => none

section

variable {c : Context} {cancelled : Bool} {p : Page} {o : Option RenderOptions}

theorem anew?_of_kept {r : Rendering} (h : s.cached? p (o.getD s.config.options) = some r) :
    s.anew? (.render c cancelled p o) = none := by
  simp only [anew?, h]

theorem anew?_of_missed (h : s.cached? p (o.getD s.config.options) = none) :
    s.anew? (.render c cancelled p o) =
      (s.renderIn c cancelled p o).2.toOption.map (p.id, ·) := by
  simp only [anew?, h]

end

/-- All that operations render anew, in order. -/
def renderings (s : Session) : List Operation → List (String × Rendering)
  | [] => []
  | op :: r => (s.anew? op).toList ++ (s.after op).renderings r

/-- The rendering of a page that was done last, if any. -/
def latest? (id : String) (xs : List (String × Rendering)) : Option Rendering :=
  xs.reverse.lookup id

theorem latest?_append_self (id : String) (r : Rendering) (xs : List (String × Rendering)) :
    latest? id (xs ++ [(id, r)]) = some r := by
  simp [latest?]

theorem latest?_append_of_ne {id : String} {x : String × Rendering} (h : id ≠ x.1)
    (xs : List (String × Rendering)) : latest? id (xs ++ [x]) = latest? id xs := by
  rw [latest?, List.reverse_append, List.reverse_singleton, List.singleton_append, List.lookup_cons,
    beq_eq_false_iff_ne.mpr h]
  rfl

theorem renderings_append (s : Session) (ops : List Operation) (op : Operation) :
    s.renderings (ops ++ [op]) = s.renderings ops ++ ((s.run ops).anew? op).toList := by
  induction ops generalizing s with
  | nil => exact (List.append_nil _).trans rfl
  | cons first r ih =>
    rw [List.cons_append, renderings, renderings, ih, List.append_assoc]
    rfl

/-! ## What operations do to the cache -/

/-- Time takes away only what is kept too long. -/
theorem cache_advance (s : Session) (target : Nat) :
    (s.advance target).cache = s.cache.expire (max s.now target) := by
  fun_induction advance s target with
  | case1 s w h ih =>
    obtain ⟨-, hd⟩ := Waiting.mem_of_next? h
    rw [ih, now_fire, max_assoc, max_eq_right hd]
    rfl
  | case2 => rfl

theorem config_advance (s : Session) (target : Nat) : (s.advance target).config = s.config := by
  fun_induction advance s target with
  | case1 s w h ih => exact ih
  | case2 => rfl

/-- The cache after an operation gives nothing new, but for a page that was rendered anew. -/
inductive Cached (s : Session) : Option (String × Rendering) → Cache Rendering → Prop where
  | same {c : Cache Rendering} (maxSize : c.maxSize = s.cache.maxSize) (sub : c.Sub s.cache) :
    Cached s none c
  | newer (id : String) (r : Rendering) : Cached s (some (id, r)) (s.cache.insert s.now id r).2

theorem Cached.refl (s : Session) : Cached s none s.cache := .same rfl (.refl _)

theorem Cached.maxSize_eq {x? : Option (String × Rendering)} {c : Cache Rendering}
    (h : Cached s x? c) : c.maxSize = s.cache.maxSize := by
  cases h with
  | same maxSize sub => exact maxSize
  | newer id r => exact Cache.maxSize_insert ..

theorem cached_render (he : s.config.cache.enabled = true) (c : Context) (cancelled : Bool)
    (p : Page) (o : Option RenderOptions) :
    (s.renderIn c cancelled p o).1.config = s.config ∧
      Cached s (s.anew? (.render c cancelled p o)) (s.renderIn c cancelled p o).1.cache := by
  have h := rendered_renderIn s c cancelled p o
  generalize hx : s.renderIn c cancelled p o = x at h ⊢
  obtain ⟨t, result⟩ := x
  dsimp only at h ⊢
  cases h with
  | cached valid kept =>
    rw [anew?_of_kept kept]
    exact ⟨rfl, .refl s⟩
  | anew valid missed within content =>
    rw [anew?_of_missed missed, hx,
      store_of_enabled (s := s.notify (.renderStarted p.id) []) he]
    exact ⟨rfl, .newer ..⟩
  | refused early =>
    refine ⟨rfl, ?_⟩
    cases hk : s.cached? p (o.getD s.config.options) with
    | some r =>
      rw [anew?_of_kept hk]
      exact .refl s
    | none =>
      rw [anew?_of_missed hk, hx]
      exact .refl s
  | failed valid missed =>
    rw [anew?_of_missed missed, hx]
    exact ⟨rfl, .refl s⟩

theorem cached_after (he : s.config.cache.enabled = true) (op : Operation) :
    (s.after op).config = s.config ∧ Cached s (s.anew? op) (s.after op).cache := by
  cases op with
  | render c cancelled p o => exact cached_render he c cancelled p o
  | clearCache => exact ⟨rfl, .same rfl (Cache.clear_sub _)⟩
  | mount p =>
    obtain ⟨registry, h⟩ := s.exists_mount_eq p
    rw [after, h]
    exact ⟨rfl, .refl s⟩
  | unmount p =>
    obtain ⟨registry, waiting, h, -⟩ := s.exists_unregisterAll_eq p.nodes
    rw [after, unmount, h]
    exact ⟨rfl, .refl s⟩
  | advance duration =>
    refine ⟨s.config_advance _, ?_⟩
    rw [after, cache_advance]
    exact .same (Cache.maxSize_expire ..) (Cache.expire_sub ..)
  | register | unregister | clearHandlers | assign | dispatch | deliver => exact ⟨rfl, .refl s⟩

/-! ## What the cache keeps -/

/-- A cache gives nothing but what was rendered last, and nothing where it has no room. -/
def Latest (c : Cache Rendering) (xs : List (String × Rendering)) : Prop :=
  ∀ ⦃id r⦄, c.get? id = some r → c.maxSize ≠ 0 ∧ latest? id xs = some r

theorem Latest.step {c : Cache Rendering} {x? : Option (String × Rendering)}
    {xs : List (String × Rendering)} (h : Latest s.cache xs) (hc : Cached s x? c) :
    Latest c (xs ++ x?.toList) := by
  cases hc with
  | same maxSize sub =>
    intro id r hr
    rw [maxSize, Option.toList_none, List.append_nil]
    exact h (sub hr)
  | newer id r =>
    intro i x hx
    rw [Cache.maxSize_insert, Option.toList_some]
    by_cases hi : i = id
    · subst hi
      -- a cache without room would have given something before, which it does not
      have hm : s.cache.maxSize ≠ 0 := by
        intro hm
        rw [Cache.insert_of_maxSize_eq_zero hm] at hx
        exact (h hx).1 hm
      obtain ⟨hr, -⟩ := Cache.insert_newest hm s.now i r
      cases hr.symm.trans hx
      exact ⟨hm, latest?_append_self i r xs⟩
    · rw [latest?_append_of_ne hi]
      exact h (Cache.get?_of_insert hi hx)

/-- At any time, a rendering that is kept is the last one. -/
theorem latest_run (he : s.config.cache.enabled = true) (h : Latest s.cache [])
    (ops : List Operation) :
    (s.run ops).config = s.config ∧ (s.run ops).cache.maxSize = s.cache.maxSize ∧
      Latest (s.run ops).cache (s.renderings ops) := by
  -- from the last operation, which is the one that adds to the renderings at their end
  induction ops using List.reverseRecOn with
  | nil => exact ⟨rfl, rfl, h⟩
  | append_singleton ops op ih =>
    obtain ⟨hc, hm, hl⟩ := ih
    rw [run_append, renderings_append]
    obtain ⟨hc', hk⟩ := cached_after (hc ▸ he) op
    exact ⟨hc'.trans hc, hk.maxSize_eq.trans hm, hl.step hk⟩

/-! ## The course of a rendering -/

/-- What is announced of a page that fails. -/
def failureOf (p : Page) (e : RenderError) : Notice :=
  .error { type := "RenderFailed", message := e.chain, severity := .error
           parameters := [("schemaId", .str p.id)] }

namespace Rendered

variable {t : Session} {c : Context} {cancelled : Bool} {p : Page} {o : RenderOptions}
  {result : Except RenderError Rendering} {r : Rendering} {e : RenderError}

/-- A valid page that is kept is not rendered. -/
theorem of_kept (h : Rendered s c false p o t result) (hv : p.isValid = true)
    (hk : s.cached? p o = some r) : result = .ok r ∧ t = s.notify (.renderCached p.id) [] := by
  cases h with
  | cached valid kept =>
    cases hk.symm.trans kept
    exact ⟨rfl, rfl⟩
  | anew valid missed => cases hk.symm.trans missed
  | refused early =>
    rcases early with h | h | h
    · cases h
    · cases hv.symm.trans h
    · cases hk.symm.trans h
  | failed valid missed => cases hk.symm.trans missed

theorem of_missed (h : Rendered s c cancelled p o t (.ok r)) (hk : s.cached? p o = none)
    (he : s.config.cache.enabled = true) :
    t.interaction.notices = s.interaction.notices ++ [.event ⟨.renderStarted p.id, []⟩,
        .event ⟨.renderCompleted p.id, [("renderTime", .ofFloat 0.0)]⟩] ∧
      t.failures = s.failures ∧ p.nodes.length ≤ s.config.maxNodes ∧
      (∀ x ∈ p.walk, x.2 ≤ s.config.maxDepth) ∧ t.cache = (s.cache.insert s.now p.id r).2 := by
  cases h with
  | cached valid kept => cases hk.symm.trans kept
  | anew valid missed within content =>
    obtain ⟨hn, hd⟩ := Page.within_of_check within
    rw [store_of_enabled (s := s.notify (.renderStarted p.id) []) he]
    exact ⟨by simp [notify, announce, Interaction.announce], rfl, hn, hd, rfl⟩

theorem of_error (h : Rendered s c cancelled p o t (.error e)) :
    (t.interaction.notices = s.interaction.notices ++ [failureOf p e] ∨
      t.interaction.notices =
        s.interaction.notices ++ [.event ⟨.renderStarted p.id, []⟩, failureOf p e]) ∧
      t.failures = s.failures ++ [(p.id, e)] ∧ t.cache = s.cache := by
  cases h with
  | refused early => exact ⟨.inl rfl, rfl, rfl⟩
  | failed valid missed =>
    refine ⟨.inr ?_, rfl, rfl⟩
    simp [notify, report, announce, Interaction.announce, failureOf]

theorem of_invalid (h : Rendered s c cancelled p o t result) (hv : p.isValid = false) :
    ∃ e, result = .error e := by
  cases h with
  | refused early => exact ⟨_, rfl⟩
  | cached valid | anew valid | failed valid => cases hv.symm.trans valid

end Rendered

/-- At any time in the history of a session that keeps renderings, a rendering comes to one of these.
A valid page that is kept is given as it was rendered last, unless that is to be debugged.  Any other
page that is rendered is within the limits, starts and is completed, and is the newest that is kept,
unless there is no room at all.  A rendering that fails is announced with its page and noted once, and
is not completed; what is kept stays as it is.  A page that is not valid is never rendered. -/
theorem render_outcomes (config : Config) (components : Components) (host : Host)
    (context : Context) (ops : List Operation) (c : Context) (cancelled : Bool) (p : Page)
    (o : Option RenderOptions) (he : config.cache.enabled = true) :
    let s := (start config components host context).run ops
    let t := (s.renderIn c cancelled p o).1
    let result := (s.renderIn c cancelled p o).2
    let debug := (o.getD config.options).debug
    (∀ r, cancelled = false → p.isValid = true → debug = false → s.cache.get? p.id = some r →
      latest? p.id ((start config components host context).renderings ops) = some r ∧
        result = .ok r ∧ t = s.notify (.renderCached p.id) []) ∧
    (∀ r, (debug = true ∨ s.cache.get? p.id = none) → result = .ok r →
      t.interaction.notices = s.interaction.notices ++ [.event ⟨.renderStarted p.id, []⟩,
        .event ⟨.renderCompleted p.id, [("renderTime", .ofFloat 0.0)]⟩] ∧
      t.failures = s.failures ∧ p.nodes.length ≤ config.maxNodes ∧
      (∀ x ∈ p.walk, x.2 ≤ config.maxDepth) ∧
      if config.cache.maxSize = 0 then t.cache = s.cache
      else t.cache.order.getLast? = some p.id ∧ t.cache.get? p.id = some r) ∧
    (∀ e, result = .error e →
      (t.interaction.notices = s.interaction.notices ++ [failureOf p e] ∨
        t.interaction.notices =
          s.interaction.notices ++ [.event ⟨.renderStarted p.id, []⟩, failureOf p e]) ∧
      t.failures = s.failures ++ [(p.id, e)] ∧ t.cache = s.cache) ∧
    (p.isValid = false → ∃ e, result = .error e) := by
  intro s t result debug
  obtain ⟨hc, hm, hl⟩ := latest_run (s := start config components host context) he nofun ops
  have hc : s.config = config := hc
  have hm : s.cache.maxSize = config.cache.maxSize := hm
  have hcached : s.cached? p (o.getD s.config.options) =
      if debug = false then s.cache.get? p.id else none := by
    simp [cached?, hc, he, debug]
  have h : Rendered s c cancelled p (o.getD s.config.options) t result :=
    rendered_renderIn s c cancelled p o
  refine ⟨fun r hn hv hd hr ↦ ⟨(hl hr).2, ?_⟩, fun r hd hr ↦ ?_, fun e hr ↦ ?_, h.of_invalid⟩
  · rw [if_pos hd, hr] at hcached
    rw [hn] at h
    exact h.of_kept hv hcached
  · have hk : s.cached? p (o.getD s.config.options) = none := by
      rw [hcached]
      rcases hd with hd | hd
      · rw [if_neg (by simp [hd])]
      · rw [hd, ite_self]
    rw [hr] at h
    obtain ⟨notices, failures, nodes, depths, cache⟩ := h.of_missed hk (hc ▸ he)
    rw [hc] at nodes depths
    refine ⟨notices, failures, nodes, depths, ?_⟩
    rw [cache]
    split
    · next hz => rw [Cache.insert_of_maxSize_eq_zero (hm.trans hz)]
    · next hz =>
      obtain ⟨hg, ho⟩ := Cache.insert_newest (hm ▸ hz) s.now p.id r
      exact ⟨ho, hg⟩
  · rw [hr] at h
    exact h.of_error

/-- A page that shows the state is rendered where that is true, and again where it is false. -/
theorem renders_kept_page :
    let root : Node :=
      { id := "root", type := "text"
        bindings := [{ target := "on", kind := .state, source := .str "on" }] }
    let p : Page := { id := "page", version := "1.0.0", root := some root }
    let config : Config := { cache := { enabled := true } }
    let on : Context := { state := [("on", .bool true)] }
    let off : Context := { state := [("on", .bool false)] }
    let s := (start config [] (.alone 0) {}).run [.render on false p none]
    ∃ r, ((start config [] (.alone 0) {}).renderIn on false p none).2 = .ok r ∧
      (s.renderIn off false p none).2 = .ok r ∧
      (s.renderIn off false p none).1 = s.notify (.renderCached "page") [] := by
  intro root p config on off s
  obtain ⟨r, hr, hk⟩ : ∃ r, ((start config [] (.alone 0) {}).renderIn on false p none).2 = .ok r ∧
      s.cache.get? "page" = some r := by
    subst s on config p root
    exact ⟨_, rfl, rfl⟩
  have hv : p.isValid = true := by
    subst p root
    rfl
  have h := render_outcomes config [] (.alone 0) {} [.render on false p none] off false p none rfl
  obtain ⟨-, hresult, ht⟩ := h.1 r rfl hv rfl hk
  exact ⟨r, hr, hresult, ht⟩

/-- Where there is no room at all, a page is rendered and not kept. -/
theorem renders_without_room :
    let p : Page := { id := "page", version := "1.0.0", root := some { id := "root", type := "text" } }
    let s := start { cache := { enabled := true, maxSize := 0 } } [] (.alone 0) {}
    s.config.cache.enabled = true ∧ s.cache.get? "page" = none ∧
      (∃ r, (s.renderIn {} false p none).2 = .ok r) ∧
      (s.renderIn {} false p none).1.cache.order.getLast? ≠ some "page" ∧
      (s.renderIn {} false p none).1.cache.get? "page" = none := by
  intro p s
  subst s p
  exact ⟨rfl, rfl, ⟨_, rfl⟩, nofun, rfl⟩

end Session

end LivePage
