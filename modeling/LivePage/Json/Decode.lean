import LivePage.Json.Reader

/-!
# Decoding documents

Typed data is read off the tree of a document, in the order of its text; the first fault or
unwanted shape counts. A record is an object with known members, or a list of its fields in
order; unknown members are skipped, and a known one must not be repeated.
-/

namespace LivePage.Json

/-- Why a document does not hold the data that is wanted: it has another shape, or its text has a
fault. -/
inductive DecodeError where
  | shape
  | text (fault : Fault)
deriving DecidableEq, Repr

def DecodeError.message : DecodeError → String
  | shape => "unexpected shape"
  | text f => f.message

/-- What an unwanted tree is an error of. -/
def Tree.reject : Tree → DecodeError
  | .fault f => .text f
  | .cut f => .text f
  | .unusable _ => .text .malformed
  | _ => .shape

namespace Decode

/-- A list or an object that has come to its end. -/
def closed : Option Fault → Except DecodeError Unit
  | none => .ok ()
  | some f => .error (.text f)

def value (t : Tree) : Except DecodeError Value := t.value.mapError .text

def skip (t : Tree) : Except DecodeError Unit := closed t.skip

def key (k : Except Fault String) : Except DecodeError String := k.mapError .text

def string : Tree → Except DecodeError String
  | .str s => .ok s
  | t => .error t.reject

def bool : Tree → Except DecodeError Bool
  | .bool b => .ok b
  | t => .error t.reject

/-- A natural number; one with a point is none. -/
def nat : Tree → Except DecodeError Nat
  | .num (.int n) => if 0 ≤ n then .ok n.toNat else .error .shape
  | t => .error t.reject

/-- Null stands for nothing. -/
def option {α : Type} (decode : Tree → Except DecodeError α) :
    Tree → Except DecodeError (Option α)
  | .null => .ok none
  | t => (decode t).map some

def list {α : Type} (decode : Tree → Except DecodeError α) : Tree → Except DecodeError (List α)
  | .arr items broken => do
    let xs ← items.mapM decode
    closed broken
    return xs
  | t => .error t.reject

/-- An object of any members; of a repeated one the last stays. -/
def fields {α : Type} (decode : Tree → Except DecodeError α) :
    Tree → Except DecodeError (Fields α)
  | .obj members broken => do
    let xs ← members.mapM fun (k, t) => do return (← key k, ← decode t)
    closed broken
    return Fields.ofList xs
  | t => .error t.reject

/-- One of some words, also written as an object from the word to nothing. What is neither, and
an object that goes on, is an error of its own kind. -/
def word {α : Type} (read : String → Option α) (other : DecodeError) (isNothing : Tree → Bool)
    (t : Tree) : Except DecodeError α :=
  let find (s : String) : Except DecodeError α :=
    match read s with
    | some a => .ok a
    | none => .error .shape
  match t with
  | .str s => find s
  | .obj ((k, t) :: more) broken => do
    let a ← key k >>= find
    if !isNothing t then throw t.reject
    if !more.isEmpty then throw other
    closed broken
    return a
  | .obj [] (some f) => .error (.text f)
  | .fault f => .error (.text f)
  | .unusable _ => .error (.text .malformed)
  | _ => .error other

def isNull : Tree → Bool
  | .null => true
  | _ => false

/-- The fields of a record of type `σ`, in their order: what each writes into it, and whether it
must be there. -/
structure Spec (σ : Type) where
  names : List String
  write : String → Tree → σ → Except DecodeError σ
  required : List String := []

/-- Reads members, where those of `seen` have been read. -/
def members {σ : Type} (spec : Spec σ) : List (Except Fault String × Tree) →
    (seen : List String) → σ → Except DecodeError (σ × List String)
  | [], seen, s => .ok (s, seen)
  | (.error f, _) :: _, _, _ => .error (.text f)
  | (.ok k, t) :: r, seen, s =>
    if spec.names.contains k then
      if seen.contains k then .error .shape
      else do
        let s ← spec.write k t s
        members spec r (k :: seen) s
    else do
      skip t
      members spec r seen s

/-- Reads fields in order. A list with more items than fields is an error of its own kind. -/
def positions {σ : Type} (spec : Spec σ) (surplus : DecodeError) :
    List String → List Tree → (seen : List String) → σ → Except DecodeError (σ × List String)
  | _, [], seen, s => .ok (s, seen)
  | [], _ :: _, _, _ => .error surplus
  | k :: ks, t :: r, seen, s => do
    let s ← spec.write k t s
    positions spec surplus ks r (k :: seen) s

/-- A record that has all it must have. -/
def complete {σ : Type} (required : List String) : σ × List String → Except DecodeError σ
  | (s, seen) => if required.all seen.contains then .ok s else .error .shape

/-- Reads a record into one that has its defaults. -/
def record {σ : Type} (spec : Spec σ) (surplus : DecodeError) (init : σ) :
    Tree → Except DecodeError σ
  | .obj ms broken => do
    let read ← members spec ms [] init
    closed broken
    complete spec.required read
  | .arr items broken => do
    let read ← positions spec surplus spec.names items [] init
    closed broken
    complete spec.required read
  | t => .error t.reject

end Decode

/-- Decodes a whole text. -/
def Source.decode {α : Type} (s : Source) (decode : Tree → Except DecodeError α) :
    Except DecodeError α := do
  let a ← decode s.tree
  Decode.closed s.after
  return a

/-- The error of too many items, in a document that is read from text. -/
def surplusInText : DecodeError := .text .malformed

end LivePage.Json
