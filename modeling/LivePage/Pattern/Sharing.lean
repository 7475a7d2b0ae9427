import LivePage.Pattern.Size
import LivePage.Text.CharSet
import LivePage.Text.Octets
import Std.Data.HashMap

/-!
# Automata of sets and texts

How large the automaton gets that reads a character of a set byte by byte, or one of several
texts. States that are alike are shared, as far as they are remembered: a memory has a number of
slots, and a state takes the slot of an earlier one whose key has the same remainder.
-/

namespace LivePage

namespace Pattern

open Text (Octets)

/-! ## Slots -/

def keySeed : UInt64 := 14695981039346656037

def keyStep (key : UInt64) (n : Nat) : UInt64 := (key ^^^ n.toUInt64) * 1099511628211

/-- The slot of a key of several numbers. -/
def slot (slots : Nat) (numbers : List Nat) : Nat := (numbers.foldl keyStep keySeed).toNat % slots

/-- A way to a state by a range of bytes. -/
structure Link where
  first : Nat
  last : Nat
  target : Nat
deriving DecidableEq, Repr

def Link.numbers (l : Link) : List Nat := [l.first, l.last, l.target]

/-- States that are remembered by their links. -/
abbrev Memory (Key : Type) := Std.HashMap Nat (Key × Nat)

/-- The state under a key, unless its slot has been taken by another one. -/
def Memory.recall? {Key : Type} [BEq Key] (m : Memory Key) (slot : Nat) (key : Key) :
    Option Nat :=
  (m.get? slot).bind fun (known, state) => if known == key then some state else none

/-! ## Reading a set forwards -/

/-- A state that is not done: its links, last first, and the range of one whose target is
missing. -/
structure Branching where
  links : List Link := []
  missing : Option (Nat × Nat) := none

/-- Gives the missing target. -/
def Branching.complete (b : Branching) (target : Nat) : Branching :=
  match b.missing with
  | some (first, last) => ⟨⟨first, last, target⟩ :: b.links, none⟩
  | none => b

/-- A set that has been read in part. The path leads from its first state to the latest ones. -/
structure SetBuilder where
  size : Size
  target : Nat
  path : List Branching := [{}]
  memory : Memory (List Link) := {}

namespace SetBuilder

def slots : Nat := 10000

/-- The state with some links. -/
def place? (w : SetBuilder) (links : List Link) : Option (Nat × SetBuilder) :=
  let links := links.reverse
  let n := slot slots (links.flatMap Link.numbers)
  match w.memory.recall? n links with
  | some state => some (state, w)
  | none =>
    (w.size.add? 1 (Size.rangeBytes * links.length)).map fun size =>
      (w.size.states, { w with size, memory := w.memory.insert n (links, w.size.states) })

/-- Completes states from the latest one on, each with the one before it as its target. -/
def placeAll? (w : SetBuilder) (target : Nat) : List Branching → Option (Nat × SetBuilder)
  | [] => some (target, w)
  | b :: r =>
    match w.place? (b.complete target).links with
    | some (state, w) => placeAll? w state r
    | none => none

/-- Completes all states of the path but for so many at its front, and one more. -/
def settle? (w : SetBuilder) (kept : Nat) : Option SetBuilder :=
  (w.placeAll? w.target (w.path.drop (kept + 1)).reverse).map fun (state, w) =>
    { w with path := (w.path.take (kept + 1)).modify kept (·.complete state) }

/-- How much of the path has the same ranges as a run. -/
def common : Octets → List Branching → Nat
  | range :: run, b :: path => if b.missing = some range then common run path + 1 else 0
  | _, _ => 0

/-- Adds a run behind those that come before it. -/
def addRun? (w : SetBuilder) (run : Octets) : Option SetBuilder :=
  let kept := common run w.path
  (w.settle? kept).map fun w =>
    match run.drop kept with
    | [] => w
    | range :: more =>
      { w with
        path := w.path.modify kept (fun b => { b with missing := some range }) ++
          more.map fun range => { missing := some range } }

def addRuns? (w : SetBuilder) : List Octets → Option SetBuilder
  | [] => some w
  | run :: r =>
    match w.addRun? run with
    | some w => addRuns? w r
    | none => none

end SetBuilder

/-- The size with a set that is read forwards. -/
def addForward? (s : Size) (runs : List Octets) : Option Size :=
  (s.add? 1 0).bind fun size =>
    (({ size, target := s.states : SetBuilder }.addRuns? runs).bind (·.settle? 0)).bind fun w =>
      (w.path.head?.bind fun b => w.place? b.links).map (·.2.size)

/-! ## Reading a set backwards -/

/-- States that read the bytes of encodings from the last one on. -/
structure ReverseSetBuilder where
  size : Size
  memory : Memory Link := {}

namespace ReverseSetBuilder

def slots : Nat := 1000

/-- Reads a byte and goes on to a state. -/
def place? (u : ReverseSetBuilder) (key : Link) : Option (Nat × ReverseSetBuilder) :=
  let n := slot slots [key.target, key.first, key.last]
  match u.memory.recall? n key with
  | some state => some (state, u)
  | none =>
    (u.size.add? 1 0).map fun size =>
      (u.size.states, ⟨size, u.memory.insert n (key, u.size.states)⟩)

def addRun? (u : ReverseSetBuilder) (target : Nat) : Octets → Option ReverseSetBuilder
  | [] => (u.size.add? 0 Size.linkBytes).map fun size => { u with size }
  | (first, last) :: r =>
    match u.place? ⟨first, last, target⟩ with
    | some (state, u) => addRun? u state r
    | none => none

def addRuns? (u : ReverseSetBuilder) (target : Nat) : List Octets → Option ReverseSetBuilder
  | [] => some u
  | run :: r =>
    match u.addRun? target run with
    | some u => addRuns? u target r
    | none => none

end ReverseSetBuilder

/-- The size with a set that is read backwards. -/
def addBackward? (s : Size) (runs : List Octets) : Option Size :=
  (s.add? 2 0).bind fun size =>
    ({ size : ReverseSetBuilder }.addRuns? (s.states + 1) runs).map (·.size)

/-! ## Reading one of several texts -/

/-- A state of a tree of texts: where bytes lead to since a text ended here, and how many bytes
led on each time that one did. -/
structure TextNode where
  ways : List (Nat × Nat) := []
  ended : List Nat := []
deriving Inhabited

/-- The states of a tree of texts; the first one is its root. -/
abbrev TextTree := Array TextNode

namespace TextTree

/-- Follows the bytes of a text from a state, and adds the states that are missing. -/
def follow (t : TextTree) (state : Nat) : List Nat → Nat × TextTree
  | [] => (state, t)
  | b :: r =>
    match (t.getD state {}).ways.lookup b with
    | some next => follow t next r
    | none =>
      let next := t.size
      follow ((t.modify state fun f => { f with ways := (b, next) :: f.ways }).push {}) next r

/-- Adds a text. Where one has ended and none goes on, it makes no difference. -/
def addText (t : TextTree) (text : List Nat) : TextTree :=
  let (state, t) := t.follow 0 text
  t.modify state fun f =>
    if f.ways.isEmpty && !f.ended.isEmpty && f.ended.all (· == 0) then f
    else { ways := [], ended := f.ways.length :: f.ended }

/-- A state chooses between its ways on and the end; ways by several bytes are one list. -/
def nodeSize (f : TextNode) : Size :=
  let groups := (f.ways.length :: f.ended).filter (0 < ·)
  if groups.isEmpty then {}
  else
    ⟨groups.length + 1,
      Size.linkBytes * (groups.length + f.ended.length) +
        groups.foldr (fun n bytes => (if 1 < n then Size.rangeBytes * n else 0) + bytes) 0⟩

end TextTree

/-- The size with a choice between texts. -/
def addTexts? (s : Size) (texts : List (List Nat)) : Option Size :=
  let tree := texts.foldl TextTree.addText #[{}]
  let size := (tree.map TextTree.nodeSize).foldl Size.append {}
  s.add? (1 + size.states) size.bytes

end Pattern

end LivePage
