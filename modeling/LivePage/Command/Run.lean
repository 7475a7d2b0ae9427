import LivePage.Command.Basic
import LivePage.Error
import LivePage.Json.Writer
import LivePage.Page.Decode
import LivePage.Page.Digest
import LivePage.Session.Dispatch
import LivePage.Session.Render

/-!
# Running commands

A command reads its files, prints a document, and may fail before or after that.
-/

namespace LivePage

/-- What a command leaves behind. -/
structure Outcome where
  exit : Nat
  output : List String := []
  errors : List String := []
deriving DecidableEq, Repr

/-- Why there is no text of a file. -/
inductive FileError where
  | unopened (reason : String)
  | unreadable (reason : String)
deriving DecidableEq, Repr

def FileError.reason : FileError → String
  | unopened reason | unreadable reason => reason

/-- The texts of files by path. -/
abbrev Files := String → Except FileError String

namespace Command

def readFile (files : Files) (path : String) : Except Error String :=
  (files path).mapError fun e => .file e.reason

def loadPage (files : Files) (path : String) : Except Error Page := do
  let text ← readFile files path
  (Page.ofText text).mapError .document

def loadContext (files : Files) : Option String → Except Error Context
  | none => .ok {}
  | some path => do
    let text ← readFile files path
    let v ← (Json.parse text).mapError fun f => .document (.text f)
    return Context.ofValue v

def loadConfig (files : Files) : Option String → Except Error Config
  | none => .ok {}
  | some path => do
    let text ← (files path).mapError fun e => .internal (match e with
      | .unopened reason => s!"Failed to open config file {path}: {reason}"
      | .unreadable reason => s!"Failed to parse config file: {reason}")
    (Config.ofText text).mapError fun e =>
      .internal s!"Failed to parse config file: {e.message}"

/-- A document on which a command ends, and why it failed behind it. -/
abbrev Printed := Value × Option Error

def analysisOf (p : Page) : Value :=
  let a := p.analysis
  Json.sorted (.obj [("schemaId", .str p.id), ("hash", .str p.digest), ("analysis", a.toValue),
    ("dataDependencies", .arr (a.dependencies.map .str))])

def runRender (s : Session) (p : Page) (debug tracking : Bool) : Except Error Printed :=
  let o := s.config.options
  match s.render p (some ⟨debug || o.debug, tracking || o.tracking⟩) with
  | (_, .ok r) => .ok (r.toValue, none)
  | (_, .error e) => .error (.render e)

def runDispatch (s : Session) (p : Page) (event : String) (data : Value) :
    Except Error Printed :=
  match s.mount p with
  | (_, .error e) => .error (.render e)
  | (s, .ok _) =>
    let (s, r) := s.dispatch event data
    let document := Json.sorted (.obj [("report", r.toValue),
      ("state", s.context.snapshot .state), ("variables", s.context.snapshot .vars)])
    .ok (document, if r.succeeded then none
      else some (.internal s!"{r.failures.length} handler(s) failed for `{event}`"))

/-- The document of a task. -/
def runTask (config : Config) (clock : Int) (files : Files) :
    Task → Except Error Printed
  | .render page context? debug tracking => do
    let p ← loadPage files page
    let c ← loadContext files context?
    runRender (.start config [] (.alone clock) c) p debug tracking
  | .analyze page => do
    let p ← loadPage files page
    return (analysisOf p, none)
  | .validate page => do
    let p ← loadPage files page
    return (Violation.report p.violations,
      if p.isValid then none else some (.invalid p.violations))
  | .dispatch page context? event data => do
    let p ← loadPage files page
    let c ← loadContext files context?
    let v ← (Json.parse data).mapError fun f => .document (.text f)
    runDispatch (.start config [] (.alone clock) c) p event v

def failureOutcome (output : List String) (e : Error) : Outcome :=
  ⟨1, output, ["Error: " ++ e.message]⟩

/-- Runs a command at a time. -/
def run (clock : Int) (files : Files) (c : Command) : Outcome :=
  match (loadConfig files c.config?).bind (runTask · clock files c.task) with
  | .error e => failureOutcome [] e
  | .ok (document, none) => { exit := 0, output := Json.prettyLines document }
  | .ok (document, some e) => failureOutcome (Json.prettyLines document) e

end Command

/-- Does what a command line asks for. A wrong one has an exit code of its own. -/
def Invocation.run (clock : Int) (files : Files) : Invocation → Outcome
  | command c => c.run clock files
  | print lines => { exit := 0, output := lines }
  | wrong e => { exit := 2, errors := ["error: " ++ e.message] }

end LivePage
