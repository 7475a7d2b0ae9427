import LivePage.Expr.Lexer
import LivePage.Proofs.Safety.Crash

/-!
# Reading tokens cannot crash

A string is read byte by byte, and what is behind its closing quote is cut off where a byte says so.
The places of tokens are what is left of the length of the source without what is still ahead.  All
these cuts are where characters start, and all these differences are of a smaller number from a
greater one.
-/

namespace LivePage

namespace Checked

/-- What a string says up to its closing quote, and what is behind that; `text` was read so far,
last first, up to the byte `i` of the input. -/
def quoted (input : List Char) (quote : Char) :
    (i : Nat) → (text : List Char) → List Char → Checked (Option (List Char × List Char))
  | _, _, [] => .ok none
  | i, text, c :: r =>
    if c = quote then do
      let rest ← behind input (i + c.utf8Size)
      return some (text.reverse, rest)
    else if c = '\\' then
      match r with
      | [] => .ok none
      | d :: r => quoted input quote (i + c.utf8Size + d.utf8Size) (Token.unescape d :: text) r
    else quoted input quote (i + c.utf8Size) (c :: text) r

/-- The string at the front of a text, and what is behind it. -/
def string : List Char → Checked (Option (Token × List Char))
  | [] => .ok none
  | c :: r =>
    if c = '"' ∨ c = '\'' then do
      let found ← quoted (c :: r) c c.utf8Size [] r
      return found.map fun (text, rest) ↦ (.string (String.ofList text), rest)
    else .ok none

/-- The token at the front of a text, and what is behind it. -/
def munch (cs : List Char) : Checked (Option (Token × List Char)) :=
  match Token.number? cs with
  | some m => .ok (some (m.token, cs.drop m.size))
  | none => do
    match ← string cs with
    | some found => return some found
    | none =>
      let found := ((Token.operator? cs).or (Token.delimiter? cs)).or (Token.identifier? cs)
      return found.map fun m ↦ (m.token, cs.drop m.size)

/-- The tokens of what is left of an input. -/
def lexRest (input : List Char) :
    (fuel : Nat) → List Char → Checked (Except LexError (List Spanned))
  | 0, _ => .error .endless
  | fuel + 1, remaining =>
    match remaining.dropWhile Token.isSpace with
    | [] => .ok (.ok [])
    | c :: r => do
      let start ← minus (Text.byteLength input) (Text.byteLength (c :: r))
      match ← munch (c :: r) with
      | none => return .error ⟨String.ofList ((c :: r).take 12), start⟩
      | some (token, rest) =>
        let stop ← minus (Text.byteLength input) (Text.byteLength rest)
        let more ← lexRest input fuel rest
        return more.map (⟨token, start, stop⟩ :: ·)

def tokenize (source : String) : Checked (Except LexError (List Spanned)) :=
  lexRest source.toList (source.length + 1) source.toList

theorem quoted_eq (front cs : List Char) (quote : Char) (text : List Char) :
    quoted (front ++ cs) quote (Text.byteLength front) text cs =
      .ok ((Token.quoted? quote cs).map fun (s, n) ↦ (text.reverse ++ s, cs.drop n)) := by
  induction cs using Token.quoted?.induct quote generalizing front text with
  | case1 => rfl
  | case2 r =>
    have cut := behind_append (front ++ [quote]) r
    simp only [List.append_assoc, List.singleton_append, Text.byteLength_append,
      Text.byteLength_cons, Text.byteLength_nil, Nat.add_zero] at cut
    rw [quoted.eq_def, Token.quoted?.eq_def]
    simp only [if_pos, cut, Option.map_some, List.append_nil, List.drop_one, List.tail_cons, bind,
      Except.bind, pure, Except.pure]
  | case3 h => simp only [quoted, Token.quoted?, if_neg h, if_pos, Option.map_none]
  | case4 d r h ih =>
    have next := ih (front ++ ['\\', d]) (Token.unescape d :: text)
    simp only [List.append_assoc, List.cons_append, List.nil_append, Text.byteLength_append,
      Text.byteLength_cons, Text.byteLength_nil, Nat.add_zero] at next
    simp only [quoted, Token.quoted?, if_neg h, if_pos, Nat.add_assoc, next, Option.map_map,
      Function.comp_def, List.reverse_cons, List.append_assoc, List.singleton_append,
      List.drop_succ_cons]
  | case5 c r h h' ih =>
    have next := ih (front ++ [c]) (c :: text)
    simp only [List.append_assoc, List.singleton_append, Text.byteLength_append,
      Text.byteLength_cons, Text.byteLength_nil, Nat.add_zero] at next
    rw [quoted.eq_def, Token.quoted?.eq_def]
    simp only [if_neg h, if_neg h', next, Option.map_map,
      Function.comp_def, List.reverse_cons, List.append_assoc, List.singleton_append,
      List.drop_succ_cons]

theorem string_eq (cs : List Char) :
    string cs = .ok ((Token.string? cs).map fun m ↦ (m.token, cs.drop m.size)) := by
  cases cs with
  | nil => rfl
  | cons c r =>
    have read := quoted_eq [c] r c []
    simp only [List.singleton_append, Text.byteLength_cons, Text.byteLength_nil, Nat.add_zero,
      List.reverse_nil, List.nil_append] at read
    simp only [string, Token.string?]
    split
    · rw [read]
      cases Token.quoted? c r <;> rfl
    · rfl

theorem munch_eq (cs : List Char) :
    munch cs = .ok ((Token.munch? cs).map fun m ↦ (m.token, cs.drop m.size)) := by
  rw [munch, string_eq, Token.munch?]
  cases Token.number? cs with
  | some m => rfl
  | none =>
    cases Token.string? cs with
    | some m => rfl
    | none => rfl

/-- What is in front of the rest of an input. -/
theorem minus_byteLength {input front rest : List Char} {n : Nat} (h : input = front ++ rest)
    (hn : Text.byteLength front = n) :
    minus (Text.byteLength input) (Text.byteLength rest) = .ok n := by
  rw [h, Text.byteLength_append, minus_add, hn]

/-- What is left of an input is read without a crash, to the tokens that start where it does. -/
theorem lexRest_eq {fuel : Nat} (front cs : List Char) (h : cs.length < fuel) :
    lexRest (front ++ cs) fuel cs = .ok (lexFrom (Text.byteLength front) cs) := by
  induction fuel generalizing front cs with
  | zero => cases h
  | succ fuel ih =>
    rw [lexRest, lexFrom]
    split
    · next hd =>
      split
      · rfl
      · next hd' => cases hd.symm.trans hd'
    · next c r hd =>
      split
      · next hd' => cases hd.symm.trans hd'
      · next hd' =>
        obtain ⟨rfl, rfl⟩ := List.cons.inj (hd.symm.trans hd')
        have input : front ++ cs = (front ++ cs.takeWhile Token.isSpace) ++ (c :: r) := by
          rw [List.append_assoc, ← hd, List.takeWhile_append_dropWhile]
        rw [minus_byteLength input (Text.byteLength_append ..), munch_eq]
        cases hm : Token.munch? (c :: r) with
        | none => rfl
        | some m =>
          let read := front ++ cs.takeWhile Token.isSpace ++ (c :: r).take m.size
          have rest : front ++ cs = read ++ (c :: r).drop m.size := by
            rw [input, List.append_assoc _ (List.take ..), List.take_append_drop]
          have shorter : ((c :: r).drop m.size).length < fuel := by
            have le := (List.dropWhile_suffix (l := cs) Token.isSpace).length_le
            have pos := m.size_pos
            rw [hd] at le
            simp only [List.length_drop, List.length_cons] at *
            omega
          have stop : Text.byteLength read = Text.byteLength front +
              Text.byteLength (cs.takeWhile Token.isSpace) +
                Text.byteLength ((c :: r).take m.size) := by
            rw [Text.byteLength_append, Text.byteLength_append]
          have more := ih read ((c :: r).drop m.size) shorter
          rw [← rest, stop] at more
          simp only [Option.map_some, bind, Except.bind, minus_byteLength rest stop, more]
          rfl

theorem tokenize_eq (source : String) : tokenize source = .ok (LivePage.tokenize source) :=
  lexRest_eq [] source.toList (Nat.lt_succ_of_le (Nat.le_of_eq String.length_toList))

end Checked

end LivePage
