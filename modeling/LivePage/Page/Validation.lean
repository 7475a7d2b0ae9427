import LivePage.Page.Tree
import LivePage.Text.Letter

/-!
# Validity of pages

A page is valid when it has a root, an id and a semantic version, and all its nodes have types
and ids of their own. Everything that is wrong with a page is listed.
-/

namespace LivePage

namespace Version

/-- What follows a row of characters of a kind, if there is such a row. -/
def run? (p : Char → Bool) (cs : List Char) : Option (List Char) :=
  if (cs.takeWhile p).isEmpty then none else some (cs.dropWhile p)

/-- What follows a character, if it comes first. -/
def mark? (m : Char) : List Char → Option (List Char)
  | c :: r => if c = m then some r else none
  | [] => none

def isLabel (c : Char) : Bool := c.isAlphanum || c == '.' || c == '-'

/-- What follows a label and the mark in front of it, where both may be missing. -/
def suffix? (m : Char) (cs : List Char) : Option (List Char) :=
  match mark? m cs with
  | some r => run? isLabel r
  | none => some cs

/-- Three numbers between points, then a label behind a minus sign and one behind a plus sign. -/
def isSemantic (version : String) : Bool :=
  (do
    let r ← run? Text.isDecimal version.toList
    let r ← mark? '.' r >>= run? Text.isDecimal
    let r ← mark? '.' r >>= run? Text.isDecimal
    suffix? '-' r >>= suffix? '+') == some []

end Version

/-- Something that is wrong with a page. -/
inductive Violation where
  | missingRoot
  | missingVersion
  | invalidVersion (version : String)
  | missingId
  | duplicateNodeId (id : String)
  | emptyNodeId (type : String)
  | emptyNodeType (id : String)
deriving DecidableEq, Repr

namespace Violation

def message : Violation → String
  | missingRoot => "Schema must have a root node"
  | missingVersion => "Schema must have a version"
  | invalidVersion version => s!"Schema version `{version}` is not a semantic version"
  | missingId => "Schema must have an id"
  | duplicateNodeId id => s!"Duplicate node id: {id}"
  | emptyNodeId type => s!"Node of type `{type}` has an empty id"
  | emptyNodeType id => s!"Node `{id}` has an empty type"

def kind : Violation → String
  | missingRoot => "missingRoot"
  | missingVersion => "missingVersion"
  | invalidVersion _ => "invalidVersion"
  | missingId => "missingId"
  | duplicateNodeId _ => "duplicateNodeId"
  | emptyNodeId _ => "emptyNodeId"
  | emptyNodeType _ => "emptyNodeType"

def detail? : Violation → Option String
  | invalidVersion s | duplicateNodeId s | emptyNodeId s | emptyNodeType s => some s
  | missingRoot | missingVersion | missingId => none

def toValue (x : Violation) : Value :=
  .obj (("kind", .str x.kind) :: Fields.optional "detail" (x.detail?.map .str))

/-- The report on a page, from everything that is wrong with it. -/
def report (violations : List Violation) : Value :=
  .obj [("valid", .bool violations.isEmpty), ("errors", .arr (violations.map toValue))]

def summary (violations : List Violation) : String :=
  "Schema validation failed: " ++ ", ".intercalate (violations.map message)

end Violation

/-- What is wrong with a node, where `seen` are the ids in front of it. -/
def Node.violations (seen : List String) (n : Node) : List Violation :=
  (if n.id = "" then [.emptyNodeId n.type]
    else if seen.contains n.id then [.duplicateNodeId n.id] else []) ++
  (if n.type = "" then [.emptyNodeType n.id] else [])

namespace Page

/-- What is wrong with a page apart from its nodes. -/
def headViolations (p : Page) : List Violation :=
  (if p.root.isNone then [.missingRoot] else []) ++
  (if p.version = "" then [.missingVersion]
    else if Version.isSemantic p.version then [] else [.invalidVersion p.version]) ++
  (if p.id = "" then [.missingId] else [])

/-- What is wrong with nodes, each behind those in front of it. -/
def nodeViolations (seen : List String) : List Node → List Violation
  | [] => []
  | n :: r => n.violations seen ++ nodeViolations (n.id :: seen) r

/-- Everything that is wrong with a page. -/
def violations (p : Page) : List Violation := p.headViolations ++ nodeViolations [] p.nodes

def isValid (p : Page) : Bool := p.violations.isEmpty

end Page

end LivePage
