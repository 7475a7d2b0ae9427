import LivePage.Expr.Builtin
import LivePage.Proofs.Safety.Crash

/-!
# Reading numbers cannot crash

The number at the front of a text is found by trying its prefixes, one character longer each time,
as long as the characters may be part of a number: the last prefix that is a number counts.  Each
prefix is cut off at a byte.  The running definition reads the text once instead.  Both find the
same number: what is read once is a prefix that is a number, and a longer prefix that was one would
have been read.

An integer is read in a radix, which stops the program if it is not from 2 to 36, and made negative
as a machine word.
-/

namespace LivePage

namespace Decimal

variable {cs ds r rest a q : List Char} {c : Char} {n places : Nat} {e : Int} {negative : Bool}
  {x : Float}

/-- Characters that numbers are written with. -/
def isNumeric (c : Char) : Bool :=
  c.isDigit || c = '.' || c = '-' || c = '+' || c = 'e' || c = 'E'

theorem isNumeric_of_isDigit (h : c.isDigit = true) : isNumeric c = true := by
  simp [isNumeric, h]

/-- The number at the front of a text, and what is behind it. -/
def leading? (cs : List Char) : Option (Float × List Char) :=
  let (negative, rest) := takeSign cs
  (takeDecimal? rest).map fun (n, places, rest) ↦
    let (e, rest) := (takeExponent? rest).getD (0, rest)
    let x := scientific n (e - places)
    (if negative then -x else x, rest)

theorem leadingFloat?_eq (cs : List Char) : leadingFloat? cs = (leading? cs).map (·.1) := by
  simp only [leadingFloat?, leading?, Option.map_map]
  congr 1
  funext ⟨n, places, rest⟩
  dsimp only [Function.comp]
  cases takeExponent? rest <;> rfl

theorem leading?_eq_some_iff : leading? cs = some (x, rest) ↔
    ∃ negative r n places r' e, takeSign cs = (negative, r) ∧
      takeDecimal? r = some (n, places, r') ∧ (takeExponent? r').getD (0, r') = (e, rest) ∧
        (if negative then -scientific n (e - places) else scientific n (e - places)) = x := by
  simp only [leading?, Option.map_eq_some_iff, Prod.exists, Prod.mk.injEq]
  constructor
  · rintro ⟨n, places, r', decimal, value, exponent⟩
    exact ⟨_, _, n, places, r', _, rfl, decimal, Prod.ext rfl exponent, value⟩
  · rintro ⟨negative, r, n, places, r', e, sign, decimal, exponent, value⟩
    rw [sign]
    exact ⟨n, places, r', decimal, by rw [exponent]; exact value, by rw [exponent]⟩

/-! ## What is read is a prefix

What is read does not depend on what is behind it, as long as that starts with the same character,
or there is nothing. -/

/-- Texts that start with the same character, unless the first one has none. -/
def SameStart (a r : List Char) : Prop := ∀ c ∈ a.head?, c ∈ r.head?

theorem SameStart.nil : SameStart [] r := nofun

theorem SameStart.append (h : r ≠ []) : SameStart (r ++ q) r := by
  cases r with
  | nil => exact absurd rfl h
  | cons => exact fun _ h ↦ h

theorem SameStart.left (h : SameStart a r) : SameStart (ds ++ a) (ds ++ r) := by
  cases ds with
  | nil => exact h
  | cons => exact fun _ h ↦ h

theorem SameStart.common (h : ds ≠ []) : SameStart (ds ++ a) (ds ++ r) := by
  cases ds with
  | nil => exact absurd rfl h
  | cons => exact fun _ h ↦ h

theorem SameStart.self_append : SameStart a (a ++ r) := by
  cases a with
  | nil => exact .nil
  | cons => exact fun _ h ↦ h

theorem takeDigits_append (hd : ∀ c ∈ ds, c.isDigit = true)
    (hr : ∀ c ∈ r.head?, c.isDigit = false) : takeDigits (ds ++ r) = (ds, r) := by
  rw [takeDigits, List.takeWhile_append_of_pos hd, List.dropWhile_append_of_pos hd]
  cases r with
  | nil => simp
  | cons c r => simp [hr c rfl]

theorem takeDigits_eq (h : takeDigits cs = (ds, r)) :
    cs = ds ++ r ∧ (∀ c ∈ ds, c.isDigit = true) ∧ ∀ c ∈ r.head?, c.isDigit = false := by
  cases h
  refine ⟨List.takeWhile_append_dropWhile.symm, List.all_eq_true.mp List.all_takeWhile,
    fun c hc ↦ ?_⟩
  have := List.head?_dropWhile_not Char.isDigit cs
  rw [Option.mem_def.mp hc] at this
  exact this

/-- Digits before a text, and those at its front. -/
theorem takeDigits_append_digits (hd : ∀ c ∈ ds, c.isDigit = true) (q : List Char) :
    takeDigits (ds ++ q) = (ds ++ (takeDigits q).1, (takeDigits q).2) := by
  rw [takeDigits, List.takeWhile_append_of_pos hd, List.dropWhile_append_of_pos hd]
  rfl

theorem takeDigits_length_le (q : List Char) : (takeDigits q).2.length ≤ q.length :=
  (List.dropWhile_suffix _).length_le

theorem takeSign_eq (h : takeSign cs = (negative, r)) (hr : r ≠ []) :
    ∃ ds, cs = ds ++ r ∧ (∀ c ∈ ds, isNumeric c = true) ∧
      ∀ a, a ≠ [] → SameStart a r → takeSign (ds ++ a) = (negative, a) := by
  unfold takeSign at h
  split at h
  · cases h
    exact ⟨['-'], rfl, List.forall_mem_singleton.mpr rfl, fun _ _ _ ↦ rfl⟩
  · cases h
    exact ⟨['+'], rfl, List.forall_mem_singleton.mpr rfl, fun _ _ _ ↦ rfl⟩
  · next minus plus =>
    cases h
    refine ⟨[], rfl, nofun, fun a ha same ↦ ?_⟩
    obtain ⟨c, a, rfl⟩ := List.exists_cons_of_ne_nil ha
    obtain ⟨d, r, rfl⟩ := List.exists_cons_of_ne_nil hr
    obtain rfl : d = c := Option.some.inj (same c rfl)
    rw [List.nil_append, takeSign]
    · exact fun u h ↦ minus r (congrArg (· :: r) (List.cons.inj h).1)
    · exact fun u h ↦ plus r (congrArg (· :: r) (List.cons.inj h).1)

/-- A point and the digits behind it, which need not be there. -/
def takeFraction : List Char → List Char × List Char
  | '.' :: r => takeDigits r
  | r => ([], r)

theorem takeDecimal?_eq_some_iff : takeDecimal? cs = some (n, places, rest) ↔
    ∃ whole r fraction, takeDigits cs = (whole, r) ∧ takeFraction r = (fraction, rest) ∧
      ¬(whole = [] ∧ fraction = []) ∧ ofDigits (whole ++ fraction) = n ∧
        fraction.length = places := by
  have parts : takeDecimal? cs =
      if (takeDigits cs).1.isEmpty && (takeFraction (takeDigits cs).2).1.isEmpty then none
      else some (ofDigits ((takeDigits cs).1 ++ (takeFraction (takeDigits cs).2).1),
        (takeFraction (takeDigits cs).2).1.length, (takeFraction (takeDigits cs).2).2) := by
    delta takeDecimal? takeFraction
    rfl
  rw [parts, Option.ite_none_left_eq_some, Bool.and_eq_true, List.isEmpty_iff, List.isEmpty_iff]
  constructor
  · rintro ⟨some, h⟩
    cases h
    exact ⟨_, _, _, rfl, rfl, some, rfl, rfl⟩
  · rintro ⟨whole, r, fraction, hw, hf, some, rfl, rfl⟩
    rw [hw, hf]
    exact ⟨some, rfl⟩

theorem takeFraction_eq (h : takeFraction cs = (ds, r)) :
    ∃ us, cs = us ++ r ∧ (∀ c ∈ us, isNumeric c = true) ∧ (us = [] → ds = []) ∧
      ∀ a, SameStart a r → takeFraction (us ++ a) = (ds, a) := by
  unfold takeFraction at h
  split at h
  · next cs =>
    obtain ⟨rfl, digits, stop⟩ := takeDigits_eq h
    refine ⟨'.' :: ds, rfl, ?_, nofun, fun a same ↦ ?_⟩
    · exact List.forall_mem_cons.mpr ⟨rfl, fun c hc ↦ isNumeric_of_isDigit (digits c hc)⟩
    · exact takeDigits_append digits fun c hc ↦ stop c (same c hc)
  · next pointless =>
    cases h
    refine ⟨[], rfl, nofun, fun _ ↦ rfl, fun a same ↦ ?_⟩
    rw [List.nil_append, takeFraction]
    rintro u rfl
    obtain ⟨us, rfl⟩ := List.head?_eq_some_iff.mp (same '.' rfl)
    exact pointless us rfl

/-- Digits with a point are a prefix. -/
theorem takeDecimal?_eq (h : takeDecimal? cs = some (n, places, rest)) :
    ∃ us, cs = us ++ rest ∧ us ≠ [] ∧ (∀ c ∈ us, isNumeric c = true) ∧
      ∀ a, SameStart a rest → takeDecimal? (us ++ a) = some (n, places, a) := by
  obtain ⟨whole, r, fraction, hw, hf, some, rfl, rfl⟩ := takeDecimal?_eq_some_iff.mp h
  obtain ⟨rfl, digits, stop⟩ := takeDigits_eq hw
  obtain ⟨us, rfl, numeric, pointed, within⟩ := takeFraction_eq hf
  refine ⟨whole ++ us, (List.append_assoc ..).symm, ?_, ?_, fun a same ↦ ?_⟩
  · rintro none
    obtain ⟨rfl, rfl⟩ := List.append_eq_nil_iff.mp none
    exact some ⟨rfl, pointed rfl⟩
  · exact List.forall_mem_append.mpr ⟨fun c hc ↦ isNumeric_of_isDigit (digits c hc), numeric⟩
  · have read : takeDigits (whole ++ (us ++ a)) = (whole, us ++ a) :=
      takeDigits_append digits fun c hc ↦ stop c (same.left c hc)
    rw [List.append_assoc]
    exact takeDecimal?_eq_some_iff.mpr ⟨_, _, _, read, within a same, some, rfl, rfl⟩

/-- An exponent is a prefix that ends in digits, and goes on with more of them. -/
theorem takeExponent?_eq (h : takeExponent? cs = some (e, rest)) :
    ∃ (us : List Char) (value : List Char → Int), cs = us ++ rest ∧
      (∀ c ∈ us, isNumeric c = true) ∧ value [] = e ∧
        ∀ q, takeExponent? (us ++ q) = some (value (takeDigits q).1, (takeDigits q).2) := by
  cases cs with
  | nil => cases h
  | cons mark cs =>
    obtain ⟨negative, r, hs⟩ : ∃ negative r, takeSign cs = (negative, r) := ⟨_, _, rfl⟩
    obtain ⟨ds, r', hd⟩ : ∃ ds r', takeDigits r = (ds, r') := ⟨_, _, rfl⟩
    rw [takeExponent?, Option.ite_none_right_eq_some] at h
    obtain ⟨marked, h⟩ := h
    simp only [hs, hd, Option.ite_none_left_eq_some] at h
    obtain ⟨some, h⟩ := h
    obtain ⟨value, rfl⟩ := Prod.mk.inj (Option.some.inj h)
    have some : ds ≠ [] := fun none ↦ some (List.isEmpty_iff.mpr none)
    obtain ⟨rfl, digits, -⟩ := takeDigits_eq hd
    obtain ⟨us, rfl, numeric, signed⟩ := takeSign_eq hs (List.append_ne_nil_of_left_ne_nil some _)
    refine ⟨mark :: (us ++ ds), fun more ↦ if negative then -(ofDigits (ds ++ more) : Int) else
      ofDigits (ds ++ more), congrArg (mark :: ·) (List.append_assoc ..).symm, ?_, ?_,
      fun q ↦ ?_⟩
    · refine List.forall_mem_cons.mpr ⟨?_, List.forall_mem_append.mpr ⟨numeric, fun c hc ↦
        isNumeric_of_isDigit (digits c hc)⟩⟩
      rcases marked with rfl | rfl <;> rfl
    · dsimp only
      rw [List.append_nil, value]
    · have sign : takeSign (us ++ (ds ++ q)) = (negative, ds ++ q) :=
        signed _ (List.append_ne_nil_of_left_ne_nil some _) (.common some)
      rw [List.cons_append, List.append_assoc, takeExponent?, if_pos marked, sign]
      dsimp only
      rw [takeDigits_append_digits digits, if_neg]
      exact fun none ↦ some (List.append_eq_nil_iff.mp (List.isEmpty_iff.mp none)).1

/-- The exponent that is used is a prefix, and so is no exponent. -/
theorem getD_takeExponent?_eq (h : (takeExponent? cs).getD (0, cs) = (e, rest)) :
    ∃ us, cs = us ++ rest ∧ (∀ c ∈ us, isNumeric c = true) ∧
      (takeExponent? us).getD (0, us) = (e, []) := by
  rcases Option.getD_eq_iff.mp h with h | ⟨-, h⟩
  · obtain ⟨us, value, rfl, numeric, rfl, goes⟩ := takeExponent?_eq h
    have whole := goes []
    rw [List.append_nil] at whole
    refine ⟨us, rfl, numeric, ?_⟩
    rw [whole, Option.getD_some]
    rfl
  · cases h
    exact ⟨[], rfl, nofun, rfl⟩

/-- A number at the front is a prefix, which is a number as a whole. -/
theorem leading?_eq (h : leading? cs = some (x, rest)) :
    ∃ us, cs = us ++ rest ∧ us ≠ [] ∧ (∀ c ∈ us, isNumeric c = true) ∧
      leading? us = some (x, []) := by
  obtain ⟨negative, r, n, places, r', e, hs, decimal, he, value⟩ := leading?_eq_some_iff.mp h
  obtain ⟨us, rfl, some, numeric, decimal⟩ := takeDecimal?_eq decimal
  obtain ⟨ws, rfl, sign, signed⟩ := takeSign_eq hs (List.append_ne_nil_of_left_ne_nil some _)
  obtain ⟨vs, rfl, exponential, exponent⟩ := getD_takeExponent?_eq he
  have some : us ++ vs ≠ [] := List.append_ne_nil_of_left_ne_nil some vs
  refine ⟨ws ++ (us ++ vs), by simp only [List.append_assoc],
    List.append_ne_nil_of_right_ne_nil _ some, ?_, ?_⟩
  · exact List.forall_mem_append.mpr ⟨sign, List.forall_mem_append.mpr ⟨numeric, exponential⟩⟩
  · exact leading?_eq_some_iff.mpr ⟨_, _, _, _, _, _, signed _ some (.left .self_append),
      decimal vs .self_append, exponent, value⟩

/-! ## What is read goes on -/

theorem takeFraction_length_le (cs : List Char) : (takeFraction cs).2.length ≤ cs.length := by
  unfold takeFraction
  split
  · exact Nat.le_succ_of_le (takeDigits_length_le _)
  · exact Nat.le_refl _

theorem takeFraction_append (h : takeFraction cs = (ds, [])) (q : List Char) :
    ∃ ds' r, takeFraction (cs ++ q) = (ds', r) ∧ r.length ≤ q.length ∧ (ds' = [] → ds = []) := by
  unfold takeFraction at h
  split at h
  · obtain ⟨rfl, digits, -⟩ := takeDigits_eq h
    rw [List.append_nil, List.cons_append, takeFraction, takeDigits_append_digits digits]
    exact ⟨_, _, rfl, takeDigits_length_le q, fun none ↦ (List.append_eq_nil_iff.mp none).1⟩
  · cases h
    exact ⟨_, _, rfl, takeFraction_length_le q, fun _ ↦ rfl⟩

/-- Behind digits with a point that are a whole text, at most what comes then is left. -/
theorem takeDecimal?_append (h : takeDecimal? cs = some (n, places, [])) (q : List Char) :
    ∃ n places r, takeDecimal? (cs ++ q) = some (n, places, r) ∧ r.length ≤ q.length := by
  obtain ⟨whole, r, fraction, hw, hf, some, -⟩ := takeDecimal?_eq_some_iff.mp h
  obtain ⟨rfl, digits, stop⟩ := takeDigits_eq hw
  rw [List.append_assoc]
  cases r with
  | nil =>
    cases hf
    refine ⟨_, _, _, takeDecimal?_eq_some_iff.mpr
      ⟨_, _, _, takeDigits_append_digits digits q, rfl, ?_, rfl, rfl⟩,
      Nat.le_trans (takeFraction_length_le _) (takeDigits_length_le q)⟩
    exact fun none ↦ some ⟨(List.append_eq_nil_iff.mp none.1).1, rfl⟩
  | cons c r =>
    obtain ⟨ds, r', read, le, kept⟩ := takeFraction_append hf q
    have front : takeDigits (whole ++ (c :: r ++ q)) = (whole, c :: r ++ q) :=
      takeDigits_append digits stop
    refine ⟨_, _, r', takeDecimal?_eq_some_iff.mpr
      ⟨_, _, _, front, read, ?_, rfl, rfl⟩, le⟩
    exact fun none ↦ some ⟨none.1, kept none.2⟩

/-- Behind a number that is a whole text, at most what comes then is left. -/
theorem leading?_append (h : leading? cs = some (x, [])) (q : List Char) :
    ∃ x r, leading? (cs ++ q) = some (x, r) ∧ r.length ≤ q.length := by
  obtain ⟨negative, r, n, places, r', e, hs, decimal, he, -⟩ := leading?_eq_some_iff.mp h
  obtain ⟨us, rfl, some, -, within⟩ := takeDecimal?_eq decimal
  have some : us ++ r' ≠ [] := List.append_ne_nil_of_left_ne_nil some r'
  obtain ⟨ws, rfl, -, signed⟩ := takeSign_eq hs some
  have sign : takeSign (ws ++ ((us ++ r') ++ q)) = (negative, (us ++ r') ++ q) :=
    signed _ (List.append_ne_nil_of_left_ne_nil some _) (.append some)
  rw [List.append_assoc ws]
  cases r' with
  | nil =>
    obtain ⟨n, places, r, read, le⟩ := takeDecimal?_append decimal q
    obtain ⟨e, r', he⟩ : ∃ e r', (takeExponent? r).getD (0, r) = (e, r') := ⟨_, _, rfl⟩
    obtain ⟨vs, rfl, -⟩ := getD_takeExponent?_eq he
    rw [List.length_append] at le
    exact ⟨_, r', leading?_eq_some_iff.mpr ⟨_, _, _, _, _, _, sign, read, he, rfl⟩, by omega⟩
  | cons c r =>
    have exponent : takeExponent? (c :: r) = Option.some (e, []) := by
      rcases Option.getD_eq_iff.mp he with he | ⟨-, he⟩
      · exact he
      · cases he
    obtain ⟨vs, value, same, -, -, goes⟩ := takeExponent?_eq exponent
    rw [List.append_nil] at same
    have read : takeDecimal? (us ++ c :: r ++ q) = Option.some (n, places, vs ++ q) := by
      rw [List.append_assoc, within _ (.append nofun), same]
    have more : (takeExponent? (vs ++ q)).getD (0, vs ++ q) = _ :=
      congrArg (Option.getD · (0, vs ++ q)) (goes q)
    exact ⟨_, _, leading?_eq_some_iff.mpr ⟨_, _, _, _, _, _, sign, read, more, rfl⟩,
      takeDigits_length_le q⟩

/-! ## Numbers as whole texts -/

theorem readMagnitude?_eq (cs : List Char) : readMagnitude? cs =
    (takeDecimal? cs).bind fun (n, places, rest) ↦
      let (e, rest) := (takeExponent? rest).getD (0, rest)
      if rest = [] then some (scientific n (e - places)) else none := by
  rw [readMagnitude?]
  congr 1
  funext ⟨n, places, rest⟩
  dsimp only
  cases rest with
  | nil =>
    have none : takeExponent? [] = none := rfl
    rw [none, Option.getD_none, if_pos rfl, Int.zero_sub]
  | cons c r =>
    rcases takeExponent? (c :: r) with - | ⟨e, - | ⟨d, r⟩⟩ <;> rfl

theorem toLower_of_isDigit (h : c.isDigit = true) : c.toLower = c := by
  simp only [Char.isDigit, Bool.and_eq_true, decide_eq_true_eq] at h
  exact dif_neg fun upper ↦ absurd (UInt32.le_trans upper.1 h.2) (by decide)

theorem toLower_of_isNumeric (h : isNumeric c = true) : c.toLower ≠ 'i' ∧ c.toLower ≠ 'n' := by
  simp only [isNumeric, Bool.or_eq_true, decide_eq_true_eq] at h
  rcases h with ((((digit | rfl) | rfl) | rfl) | rfl) | rfl
  · rw [toLower_of_isDigit digit]
    constructor <;> (rintro rfl; cases digit)
  all_goals decide

/-- Digits and the like are no name. -/
theorem ofList_toLower_ne (hn : ∀ c ∈ cs, isNumeric c = true) {name : String}
    (h : name.toList.head? = some 'i' ∨ name.toList.head? = some 'n') :
    String.ofList (cs.map Char.toLower) ≠ name := by
  rintro rfl
  rw [String.toList_ofList] at h
  cases cs with
  | nil => simp at h
  | cons c r =>
    have lower := toLower_of_isNumeric (hn c List.mem_cons_self)
    exact h.elim (fun h ↦ lower.1 (Option.some.inj h)) fun h ↦ lower.2 (Option.some.inj h)

/-- A text of digits and the like is a number where one is at its front and nothing behind. -/
theorem readFloat?_eq (hn : ∀ c ∈ cs, isNumeric c = true) :
    readFloat? cs = (leading? cs).bind fun (x, rest) ↦ if rest = [] then some x else none := by
  obtain ⟨negative, r, hs⟩ : ∃ negative r, takeSign cs = (negative, r) := ⟨_, _, rfl⟩
  have numeric : ∀ c ∈ r, isNumeric c = true := by
    by_cases some : r = []
    · rw [some]
      nofun
    · obtain ⟨us, rfl, -⟩ := takeSign_eq hs some
      exact (List.forall_mem_append.mp hn).2
  rw [readFloat?, leading?, hs]
  dsimp only
  rw [if_neg, if_neg, readMagnitude?_eq]
  · cases takeDecimal? r with
    | none => rfl
    | some read =>
      simp only [Option.map_some, Option.bind_some]
      split <;> split <;> rfl
  · exact ofList_toLower_ne numeric (.inr rfl)
  · exact not_or.mpr ⟨ofList_toLower_ne numeric (.inl rfl), ofList_toLower_ne numeric (.inl rfl)⟩

end Decimal

namespace Checked

open Decimal

/-- The number that the last prefix is that is one: those of `text` from the byte `i` on are tried,
as long as characters are numeric; `best` is the last one so far. -/
def lastFloat (text : List Char) : (i : Nat) → (best : Option Float) → List Char →
    Checked (Option Float)
  | _, best, [] => .ok best
  | i, best, c :: r =>
    if isNumeric c then do
      let front ← before text (i + c.utf8Size)
      lastFloat text (i + c.utf8Size) ((readFloat? front).or best) r
    else .ok best

def parseFloat (text : List Char) : Checked Value := do
  let cs := Text.trimStart text
  let best ← lastFloat cs 0 none cs
  return (best.map Value.ofFloat).getD .null

def digit? (radix : Nat) (c : Char) : Checked (Option Nat) :=
  if radix < 2 ∨ 36 < radix then .error (.radix radix) else .ok (Builtin.digit? radix c)

/-- The digits at the front of a text. -/
def leadingDigits (radix : Nat) : List Char → Checked (List Nat)
  | [] => .ok []
  | c :: r => do
    match ← digit? radix c with
    | some d =>
      let ds ← leadingDigits radix r
      return d :: ds
    | none => return []

/-- The machine word that some digits write; none without digits, or if there is no such word. -/
def word? (radix : Nat) (digits : List Nat) : Checked (Option Int) :=
  if radix < 2 ∨ 36 < radix then .error (.radix radix)
  else
    let n := digits.foldl (fun n d ↦ radix * n + d) 0
    .ok (if digits.isEmpty ∨ Nat.pow 2 63 ≤ n then none else some n)

def parseInt (text : List Char) (radix : Nat) : Checked Value :=
  if radix < 2 ∨ 36 < radix then .ok .null
  else do
    let (negative, body) := takeSign (Text.trimStart text)
    let digits ← leadingDigits radix body
    match ← word? radix digits with
    | none => return .null
    | some n =>
      let n ← if negative then negate n else .ok n
      return .int n

variable (front : List Char) {cs used rest : List Char} {c : Char} {best : Option Float} {x : Float}

theorem lastFloat_cons (h : isNumeric c = true) : lastFloat (front ++ c :: rest)
    (Text.byteLength front) best (c :: rest) = lastFloat (front ++ [c] ++ rest)
      (Text.byteLength (front ++ [c])) ((readFloat? (front ++ [c])).or best) rest := by
  have bytes : Text.byteLength (front ++ [c]) = Text.byteLength front + c.utf8Size := by
    rw [Text.byteLength_append, Text.byteLength_cons, Text.byteLength_nil, Nat.add_zero]
  have cut := before_append (front ++ [c]) rest
  rw [bytes] at cut
  rw [List.append_cons, lastFloat, if_pos h, cut, bytes]
  rfl

/-- Where no prefix is a number any more, the last one so far stays. -/
theorem lastFloat_of_none (h : ∀ us r, cs = us ++ r → us ≠ [] → (∀ c ∈ us, isNumeric c = true) →
    readFloat? (front ++ us) = none) :
    lastFloat (front ++ cs) (Text.byteLength front) best cs = .ok best := by
  induction cs generalizing front with
  | nil => rfl
  | cons c r ih =>
    by_cases numeric : isNumeric c
    · rw [lastFloat_cons front numeric, h [c] r rfl nofun (List.forall_mem_singleton.mpr numeric),
        Option.none_or]
      refine ih _ fun us r' e _ hn ↦ ?_
      rw [List.append_assoc]
      exact h (c :: us) r' (congrArg (c :: ·) e) nofun (List.forall_mem_cons.mpr ⟨numeric, hn⟩)
    · rw [lastFloat, if_neg numeric]

/-- A number that is reached counts, whichever came before. -/
theorem lastFloat_of_some (hn : ∀ c ∈ used, isNumeric c = true) (hu : used ≠ [])
    (h : readFloat? (front ++ used) = some x) :
    lastFloat (front ++ (used ++ rest)) (Text.byteLength front) best (used ++ rest) =
      lastFloat (front ++ used ++ rest) (Text.byteLength (front ++ used)) (some x) rest := by
  induction used generalizing front best with
  | nil => exact absurd rfl hu
  | cons c r ih =>
    obtain ⟨numeric, hn⟩ := List.forall_mem_cons.mp hn
    rw [List.cons_append, lastFloat_cons front numeric]
    cases r with
    | nil => rw [h, Option.some_or, List.nil_append]
    | cons d r =>
      rw [List.append_cons front c (d :: r)] at h ⊢
      exact ih _ hn nofun h

/-- The last prefix that is a number is the number that is read once. -/
theorem lastFloat_eq (cs : List Char) : lastFloat cs 0 none cs = .ok (leadingFloat? cs) := by
  rw [leadingFloat?_eq]
  cases h : leading? cs with
  | none =>
    refine lastFloat_of_none [] fun us r e _ hn ↦ ?_
    rw [List.nil_append, readFloat?_eq hn, Option.bind_eq_none_iff]
    rintro ⟨x, rest⟩ hx
    refine if_neg ?_
    rintro rfl
    obtain ⟨y, r', read, -⟩ := leading?_append hx r
    rw [← e, h] at read
    cases read
  | some read =>
    obtain ⟨x, rest⟩ := read
    obtain ⟨us, rfl, some, numeric, whole⟩ := leading?_eq h
    have number : readFloat? ([] ++ us) = .some x := by
      rw [List.nil_append, readFloat?_eq numeric, whole]
      rfl
    refine (lastFloat_of_some [] numeric some number).trans
      (lastFloat_of_none us fun ws r e some hn ↦ ?_)
    rw [readFloat?_eq (List.forall_mem_append.mpr ⟨numeric, hn⟩), Option.bind_eq_none_iff]
    rintro ⟨y, r'⟩ hy
    refine if_neg ?_
    rintro rfl
    obtain ⟨y, r', read, le⟩ := leading?_append hy r
    rw [List.append_assoc, ← e, h] at read
    cases read
    rw [e, List.length_append] at le
    have := List.length_pos_iff.mpr some
    omega

theorem parseFloat_eq (text : List Char) : parseFloat text = .ok (Builtin.parseFloat text) := by
  rw [parseFloat, lastFloat_eq]
  rfl

/-! ## Integers -/

variable {radix : Nat}

theorem leadingDigits_eq (h : ¬(radix < 2 ∨ 36 < radix)) (cs : List Char) :
    leadingDigits radix cs = .ok (Builtin.leadingDigits radix cs) := by
  induction cs with
  | nil => rfl
  | cons c r ih =>
    rw [leadingDigits, digit?, if_neg h, Builtin.leadingDigits, ih]
    cases Builtin.digit? radix c <;> rfl

/-- Digits write a number that is not negative, so that there is a negative of it. -/
theorem parseInt_eq (text : List Char) (radix : Nat) :
    parseInt text radix = .ok (Builtin.parseInt text radix) := by
  by_cases outside : radix < 2 ∨ 36 < radix
  · rw [parseInt, Builtin.parseInt, if_pos outside, if_pos outside]
  · rw [parseInt, Builtin.parseInt, if_neg outside, if_neg outside]
    dsimp only
    rw [leadingDigits_eq outside]
    simp only [word?, if_neg outside, bind, Except.bind]
    generalize Builtin.leadingDigits radix (takeSign (Text.trimStart text)).2 = digits
    by_cases none : digits.isEmpty ∨ Nat.pow 2 63 ≤ digits.foldl (fun n d ↦ radix * n + d) 0
    · rw [if_pos none, if_pos none]
      rfl
    · rw [if_neg none, if_neg none]
      dsimp only
      rw [negate_of_nonneg (Int.natCast_nonneg _)]
      cases (takeSign (Text.trimStart text)).1 <;> rfl

end Checked

end LivePage
