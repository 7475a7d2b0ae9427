import LivePage.Path

/-!
# Contexts

A page is rendered against named parts of data. Five of them are objects that can be written;
`user` and `tenant` are records of any shape that can only be read. Contexts derived for the
items of a loop share all parts but their variables.
-/

namespace LivePage

inductive Namespace where
  | data
  | state
  | vars
  | params
  | query
  | user
  | tenant
deriving DecidableEq, Repr

namespace Namespace

def name : Namespace → String
  | data => "data"
  | state => "state"
  | vars => "variables"
  | params => "params"
  | query => "query"
  | user => "user"
  | tenant => "tenant"

def all : List Namespace := [data, state, vars, params, query, user, tenant]

def ofName? (s : String) : Option Namespace := all.find? (·.name == s)

@[simp] theorem ofName?_name (k : Namespace) : ofName? k.name = some k := by
  cases k <;> decide

end Namespace

/-- Names and their values, as expressions see them. -/
abbrev Scope := Fields Value

structure Context where
  data : Fields Value := []
  state : Fields Value := []
  vars : Fields Value := []
  params : Fields Value := []
  query : Fields Value := []
  user : Value := .null
  tenant : Value := .null
deriving Repr, Inhabited

namespace Context

/-- The members of a part that can be written. -/
def entries? (c : Context) : Namespace → Option (Fields Value)
  | .data => some c.data
  | .state => some c.state
  | .vars => some c.vars
  | .params => some c.params
  | .query => some c.query
  | .user | .tenant => none

/-- Replaces the members of a part that can be written. -/
def setEntries (c : Context) (m : Fields Value) : Namespace → Context
  | .data => { c with data := m }
  | .state => { c with state := m }
  | .vars => { c with vars := m }
  | .params => { c with params := m }
  | .query => { c with query := m }
  | .user | .tenant => c

/-- A whole part as one value. -/
def snapshot (c : Context) : Namespace → Value
  | .data => .obj c.data
  | .state => .obj c.state
  | .vars => .obj c.vars
  | .params => .obj c.params
  | .query => .obj c.query
  | .user => c.user
  | .tenant => c.tenant

/-- The context of a document; a part that is no object is left out, but for the records. -/
def ofValue (v : Value) : Context :=
  let part (k : Namespace) : Value := (v.members.get? k.name).getD .null
  { data := (part .data).members
    state := (part .state).members
    vars := (part .vars).members
    params := (part .params).members
    query := (part .query).members
    user := part .user
    tenant := part .tenant }

/-- Resolves a path in a part: the first segment names a member of it, the rest go on from
there. -/
def resolve (c : Context) (k : Namespace) (p : Path) : Value :=
  match c.entries? k with
  | none => (c.snapshot k).getD p
  | some m =>
    match p with
    | [] => .obj m
    | .key key :: rest => ((m.get? key).map (·.getD rest)).getD .null
    | .index _ :: _ => .null

def lookup (c : Context) (k : Namespace) (path : String) : Value := c.resolve k (Path.parse path)

/-- Writes at a path in a part; the first segment names the member that is written or made. -/
def write (c : Context) (k : Namespace) (v : Value) (p : Path) : Context × Option PathError :=
  match c.entries? k with
  | none => (c, some (.notContainer k.name "read-only record"))
  | some m =>
    match p with
    | [] => (c, some .empty)
    | .key key :: rest =>
      let (child, fault) := Value.write v rest ((m.get? key).getD .null)
      (c.setEntries (m.insert key child) k, fault)
    | .index i :: _ => (c, some (.notContainer (Segment.index i).text "namespace"))

def assign (c : Context) (k : Namespace) (path : String) (v : Value) :
    Context × Option PathError :=
  c.write k v (Path.parse path)

/-- The same context with more variables; the last of a name counts. -/
def extend (c : Context) (extra : List (String × Value)) : Context :=
  { c with vars := c.vars.overlay extra }

/-- Every part under its name. -/
def scope (c : Context) : Scope :=
  Fields.ofList (Namespace.all.map fun k => (k.name, c.snapshot k))

@[simp] theorem snapshot_setEntries_self {c : Context} {k : Namespace} {m : Fields Value}
    (h : (c.entries? k).isSome) (m' : Fields Value) (e : m' = m) :
    (c.setEntries m' k).snapshot k = .obj m := by
  subst e; cases k <;> simp_all [entries?, setEntries, snapshot]

theorem snapshot_setEntries_of_ne {j k : Namespace} (c : Context) (m : Fields Value) (h : j ≠ k) :
    (c.setEntries m k).snapshot j = c.snapshot j := by
  cases j <;> cases k <;> simp_all [setEntries, snapshot]

end Context

/-- Contexts derived from one another. They share the parts of `shared`, and each has a frame of
variables of its own. -/
structure Family where
  shared : Context
  frames : List (Fields Value)
deriving Inhabited

namespace Family

def root (c : Context) : Family := ⟨c, [c.vars]⟩

/-- A context of the family, in the order of derivation. -/
def context (f : Family) (i : Nat) : Context := { f.shared with vars := f.frames.getD i [] }

/-- Derives a context from another one. -/
def derive (f : Family) (i : Nat) (extra : List (String × Value)) : Family :=
  { f with frames := f.frames ++ [((f.context i).extend extra).vars] }

/-- Writes through one context of the family. -/
def assign (f : Family) (i : Nat) (k : Namespace) (path : String) (v : Value) :
    Family × Option PathError :=
  let (c, fault) := (f.context i).assign k path v
  (⟨c, f.frames.set i c.vars⟩, fault)

/-- Drops the context derived last, but never the root. -/
def pop (f : Family) : Family :=
  if f.frames.length ≤ 1 then f else { f with frames := f.frames.dropLast }

end Family

end LivePage
