import LivePage.Expr.Eval

/-!
# Templates

Text may hold expressions between double braces. A text that is one expression and nothing else
has the value of the expression; in any other text each expression is replaced by its value as
text. What an expression gives is not read again.
-/

namespace LivePage

namespace Template

/-- The end of an expression: blanks, two closing braces, and what follows. -/
def closing? (cs : List Char) : Option (List Char) :=
  match cs.dropWhile Text.isBlank with
  | '}' :: '}' :: r => some r
  | _ => none

/-- The end of a text that holds nothing behind its expression. -/
def lastClosing? (cs : List Char) : Option (List Char) :=
  (closing? cs).bind fun r => if r.all Text.isBlank then some [] else none

/-- The shortest text on one line in front of an end, and what follows the end. -/
def body? (ends : List Char → Option (List Char)) :
    List Char → Option (List Char × List Char)
  | [] => none
  | c :: r =>
    if c = '\n' then none
    else match ends r with
      | some rest => some ([c], rest)
      | none => (body? ends r).map fun (code, rest) => (c :: code, rest)

/-- An expression behind its opening braces. One that is all blank is its last blank that is not
the end of a line. -/
def code? (ends : List Char → Option (List Char)) (cs : List Char) :
    Option (List Char × List Char) :=
  let blanks := cs.takeWhile Text.isBlank
  let inner := cs.dropWhile Text.isBlank
  match body? ends inner with
  | some found => some found
  | none =>
    match ends inner, blanks.reverse.find? (· != '\n') with
    | some rest, some c => some ([c], rest)
    | _, _ => none

/-- An expression between braces at the front of a text. -/
def segment? : List Char → Option (List Char × List Char)
  | '{' :: '{' :: r => code? closing? r
  | _ => none

/-- A part of a text. -/
inductive Piece where
  | literal (c : Char)
  | code (source : String)
deriving DecidableEq, Repr

theorem length_of_closing? {cs rest : List Char} (h : closing? cs = some rest) :
    rest.length < cs.length := by
  have le := (List.dropWhile_suffix (l := cs) Text.isBlank).length_le
  grind [closing?]

theorem length_of_body? {ends : List Char → Option (List Char)}
    (shorter : ∀ {cs rest}, ends cs = some rest → rest.length < cs.length)
    {cs code rest : List Char} (h : body? ends cs = some (code, rest)) :
    rest.length < cs.length := by
  induction cs generalizing code with
  | nil => simp [body?] at h
  | cons c r ih => grind [body?, Option.map_eq_some_iff]

theorem length_of_code? {ends : List Char → Option (List Char)}
    (shorter : ∀ {cs rest}, ends cs = some rest → rest.length < cs.length)
    {cs code rest : List Char} (h : code? ends cs = some (code, rest)) :
    rest.length < cs.length := by
  have le := (List.dropWhile_suffix (l := cs) Text.isBlank).length_le
  have := @length_of_body? ends shorter
  grind [code?]

/-- An expression takes up some of the text. -/
theorem length_of_segment? {cs code rest : List Char} (h : segment? cs = some (code, rest)) :
    rest.length < cs.length := by
  unfold segment? at h
  split at h
  · have := length_of_code? length_of_closing? h
    grind
  · simp at h

/-- The parts of a text. -/
def pieces (cs : List Char) : List Piece :=
  match _h : segment? cs with
  | some (code, rest) => .code (String.ofList code) :: pieces rest
  | none =>
    match cs with
    | [] => []
    | c :: r => .literal c :: pieces r
termination_by cs.length
decreasing_by
  · exact length_of_segment? _h
  · simp

def codes : List Piece → List String
  | [] => []
  | .literal _ :: r => codes r
  | .code source :: r => source :: codes r

/-- The expression of a text that holds nothing else but blanks. -/
def whole? (cs : List Char) : Option String :=
  match cs.dropWhile Text.isBlank with
  | '{' :: '{' :: r => (code? lastClosing? r).map fun (code, _) => String.ofList code
  | _ => none

def pieceText (env : Env) : Piece → Except ExprError String
  | .literal c => .ok c.toString
  | .code source => (Expr.run env source).map Value.display

/-- The text of the parts, or the first failure among them. -/
def fill (env : Env) (parts : List Piece) : Except ExprError String :=
  (parts.mapM (pieceText env)).map String.join

/-- The value of a text. -/
def renderText (env : Env) (text : String) : Except ExprError Value :=
  let parts := pieces text.toList
  match codes parts, whole? text.toList with
  | [], _ => .ok (.str text)
  | [_], some source => Expr.run env source
  | _, _ => (fill env parts).map .str

mutual

/-- The value of a template; all text in it is rendered. -/
def render (env : Env) : Value → Except ExprError Value
  | .str text => renderText env text
  | .arr items => (renderItems env items).map .arr
  | .obj members => (renderMembers env members).map .obj
  | v => .ok v

def renderItems (env : Env) : List Value → Except ExprError (List Value)
  | [] => .ok []
  | v :: r => do
    let v ← render env v
    let vs ← renderItems env r
    return v :: vs

def renderMembers (env : Env) : List (String × Value) → Except ExprError (List (String × Value))
  | [] => .ok []
  | (k, v) :: r => do
    let v ← render env v
    let vs ← renderMembers env r
    return (k, v) :: vs

end

end Template

end LivePage
