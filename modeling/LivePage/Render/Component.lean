import LivePage.Json.Decode

/-!
# Components

What a host shows the types of nodes with.
-/

namespace LivePage

open Json (Tree DecodeError)

structure Component where
  name : String
  version : Option String := none
  info : Fields Value := []
deriving Repr, Inhabited

namespace Component

def spec : Json.Decode.Spec Component where
  names := ["name", "version", "meta"]
  write k t c :=
    match k with
    | "name" => (Json.Decode.string t).map fun s => { c with name := s }
    | "version" => (Json.Decode.option Json.Decode.string t).map fun s => { c with version := s }
    | _ => (Json.Decode.fields Json.Decode.value t).map fun m => { c with info := m }
  required := ["name"]

def ofTree (surplus : DecodeError) : Tree → Except DecodeError Component :=
  Json.Decode.record spec surplus { name := "" }

/-- The component of a document. -/
def ofValue (v : Value) : Except DecodeError Component := ofTree .shape (.ofValue v)

def toValue (c : Component) : Value :=
  .obj ([("name", .str c.name)] ++ Fields.optional "version" (c.version.map .str) ++
    Value.objectMember "meta" c.info)

end Component

/-- Components by type of node. -/
abbrev Components := Fields Component

namespace Components

/-- Each type with a component of the same name. -/
def ofTypes (types : List String) : Components :=
  Fields.ofList (types.map fun type => (type, { name := type }))

def resolve? (cs : Components) (type : String) : Option Component := cs.get? type

def register (cs : Components) (type : String) (c : Component) : Components := cs.insert type c

/-- Removes the component of a type. -/
def unregister (cs : Components) (type : String) : Components := cs.filter (·.1 != type)

end Components

end LivePage
