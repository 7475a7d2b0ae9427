import LivePage.Session.Basic

/-!
# Rendering in a session

A page must be valid, it may have been rendered before, and it must not be too large. Every
failure is announced and noted, and leaves the cache as it was.
-/

namespace LivePage.Session

/-- The elements of a page, once its size is checked. -/
def content (s : Session) (p : Page) : Except PropError (List Element) :=
  match p.root with
  | some n => n.render s.renderer s.context
  | none => .ok []

/-- The cached rendering of a page. It counts only where nothing is debugged. -/
def cached? (s : Session) (p : Page) (o : RenderOptions) : Option Rendering :=
  if s.config.cache.enabled && !o.debug then s.cache.get? p.id else none

def rendering (p : Page) (o : RenderOptions) (content : List Element) : Rendering :=
  let a := p.analysis
  { content := content, components := a.components, dependencies := a.dependencies
    performance :=
      if o.tracking then some ⟨a.totalNodes, a.bindings.length, a.handlers.length⟩ else none }

/-- Keeps a rendering, where renderings are kept. -/
def store (s : Session) (p : Page) (r : Rendering) : Session :=
  if s.config.cache.enabled then { s with cache := (s.cache.insert s.now p.id r).2 } else s

/-- Renders a page whose size is checked. -/
def renderFresh (s : Session) (p : Page) (o : RenderOptions) :
    Session × Except RenderError Rendering :=
  let s := s.notify (.renderStarted p.id) []
  match s.content p with
  | .error e => (s, .error (.binding e))
  | .ok content =>
    let r := rendering p o content
    ((s.store p r).notify (.renderCompleted p.id) [("renderTime", .ofFloat 0.0)], .ok r)

/-- Renders a page: it must be valid, may be cached, and must not be too large. -/
def renderPage (s : Session) (p : Page) (o : RenderOptions) :
    Session × Except RenderError Rendering :=
  if p.isValid then
    match s.cached? p o with
    | some r => (s.notify (.renderCached p.id) [], .ok r)
    | none =>
      match p.analysis.check s.config.maxDepth s.config.maxNodes with
      | .error e => (s, .error (.limit e))
      | .ok () => s.renderFresh p o
  else (s, .error (.invalid p.violations))

/-- Announces the failure of a page. -/
def report (s : Session) (p : Page) (e : RenderError) : Session :=
  let s := s.announce (.error {
    type := "RenderFailed", message := e.chain, severity := .error
    parameters := [("schemaId", .str p.id)] })
  { s with failures := s.failures ++ [(p.id, e)] }

/-- Renders a page; options take the place of those of the configuration as a whole. -/
def render (s : Session) (p : Page) (o : Option RenderOptions) :
    Session × Except RenderError Rendering :=
  match s.renderPage p (o.getD s.config.options) with
  | (s, .error e) => (s.report p e, .error e)
  | result => result

/-- Renders a page, unless that is cancelled before it starts. -/
def renderUnless (s : Session) (cancelled : Bool) (p : Page) (o : Option RenderOptions) :
    Session × Except RenderError Rendering :=
  if cancelled then (s.report p .cancelled, .error .cancelled) else s.render p o

def clearCache (s : Session) : Session :=
  { s with cache := s.cache.clear }.notify .cacheCleared []

end LivePage.Session
