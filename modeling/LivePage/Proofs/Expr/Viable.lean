import LivePage.Proofs.Expr.Acceptance
import Mathlib.Order.Filter.AtTopBot.Basic

/-!
# Tokens that can go on to an expression

Tokens are viable if some tokens go on with them to an expression, limits aside.  Reading is to stop
at the first token that is not viable with those in front of it.

What reading does up to a place depends on nothing behind the token at this place.  So this is said
of two readings at once: one of some tokens within the limits, and one of others that begin alike,
within wider limits and with as much fuel as that takes.  Where the first one takes tokens, so does
the second one; and where the first one stops, the tokens in front are viable and the second one
stops as well.

A closing brace stands for the end of the tokens: it ends whatever can end there.  At one place the
rejection is not where reading stops: behind the brace or comma in front of an entry of an object,
the end is reported at the last token.
-/

namespace LivePage

open Filter

/-- Limits that are as wide as some or wider. -/
structure Limits.Within (limits wide : Limits) : Prop where
  nesting : limits.nesting ≤ wide.nesting
  height : limits.height ≤ wide.height

/-- Tokens that some tokens go on with to an expression, limits aside. -/
def Viable (ts : List Token) : Prop :=
  ∃ more wide e, Limits.standard.Within wide ∧ Expr.ofTokens wide (ts ++ more) = .ok e

/-- The tokens in front of an entry of an object. -/
def Token.precedesKey (t : Token) : Bool := t = .delimiter .openBrace ∨ t = .delimiter .comma

/-- Tokens that end in front of an entry of an object, where the object can be closed as well. -/
def AwaitsKey (ts : List Token) : Prop :=
  (∃ t, ts.getLast? = some t ∧ t.precedesKey = true) ∧ Viable (ts ++ [.delimiter .closeBrace])

/-- Tokens that do not end in front of an entry. -/
def Settled (ts : List Token) : Prop := ∃ t, ts.getLast? = some t ∧ t.precedesKey = false

variable {α β : Type} {limits wide : Limits} {front ts us vs r s : List Token} {n m : Nat}

theorem Settled.append (h : Settled us) (ts : List Token) : Settled (ts ++ us) := by
  obtain ⟨t, ht, hk⟩ := h
  exact ⟨t, by rw [List.getLast?_append, ht, Option.some_or], hk⟩

theorem Settled.cons (h : Settled us) (t : Token) : Settled (t :: us) := h.append [t]

theorem settled_concat {t : Token} (ht : t.precedesKey = false) (ts : List Token) :
    Settled (ts ++ [t]) := ⟨t, List.getLast?_concat, ht⟩

theorem Settled.not_awaitsKey (h : Settled ts) : ¬AwaitsKey ts := by
  rintro ⟨⟨t, ht, hk⟩, -⟩
  obtain ⟨t', ht', hk'⟩ := h
  obtain rfl := Option.some.inj (ht.symm.trans ht')
  rw [hk] at hk'
  cases hk'

theorem Viable.of_append (h : Viable (ts ++ us)) : Viable ts := by
  obtain ⟨more, wide, e, hw, h⟩ := h
  exact ⟨us ++ more, wide, e, hw, by rwa [← List.append_assoc]⟩

namespace Derives

variable {p : Phrase}

/-- What is derived from an expression is viable. -/
theorem viable {e : Expr} (h : Derives n (.expression e) ts) : Viable ts := by
  refine ⟨[], ⟨max 64 n, max 256 e.height⟩, e, ⟨Nat.le_max_left .., Nat.le_max_left ..⟩, ?_⟩
  rw [List.append_nil]
  exact Expr.ofTokens_of_derives h (Nat.le_max_right ..) (Nat.le_max_right ..)

/-- What is derived from an expression ends in no comma and no opening brace. -/
theorem settled (h : Derives n p ts) (hp : p.isExpression = true) : Settled ts := by
  induction h with
  | plain _ ih | bare _ ih | start _ ih => exact ih rfl
  | single _ ih => exact ih (by simp)
  | conditional _ _ _ _ _ ih => exact (((ih rfl).cons _).append _ |>.cons _).append _
  | binary _ _ _ _ ih | logical _ _ _ _ ih => exact ((ih (by simp)).cons _).append _
  | unary _ _ ih => exact (ih rfl).cons _
  | member | optionalMember => exact (settled_concat rfl [_]).append _
  | index | call => exact ((settled_concat rfl _).cons _).append _
  | optionalIndex | optionalCall => exact (((settled_concat rfl _).cons _).cons _).append _
  | number | string | yes | no | null | undefined | name => exact settled_concat rfl []
  | group | array | object => exact (settled_concat rfl _).cons _
  | noItems | lastItem | moreItems | full | shorthand | noEntries | lastEntry | moreEntries =>
    cases hp

/-- What is derived from an entry ends in no comma and no opening brace. -/
theorem settled_entry {k : String} {e : Expr} (h : Derives n (.entry k e) ts) : Settled ts := by
  cases h with
  | full _ h => exact ((h.settled rfl).cons _).cons _
  | shorthand hk =>
    refine settled_concat ?_ []
    cases hk <;> rfl

end Derives

/-! ## Tokens ahead -/

/-- The token that is read next; a closing brace stands for the end. -/
def ahead (ts : List Token) : Token := ts.headD (.delimiter .closeBrace)

/-- Tokens that begin with the token ahead of some others. -/
def Alike (ts us : List Token) : Prop := ∃ r, us = ahead ts :: r

theorem alike_ahead (ts r : List Token) : Alike ts (ahead ts :: r) := ⟨r, rfl⟩

/-- Whatever is put behind the token ahead, the tokens begin alike. -/
theorem Alike.append (h : Alike s vs) (us : List Token) : Alike (us ++ s) (us ++ vs) := by
  obtain ⟨r, rfl⟩ := h
  cases us with
  | nil => exact ⟨r, rfl⟩
  | cons t us => exact ⟨us ++ ahead s :: r, rfl⟩

theorem alike_append (ts r : List Token) : Alike ts (ts ++ .delimiter .closeBrace :: r) := by
  cases ts with
  | nil => exact ⟨r, rfl⟩
  | cons t ts => exact ⟨ts ++ .delimiter .closeBrace :: r, rfl⟩

/-- No token is ahead if it is not there, unless the closing brace stands for the end. -/
theorem Alike.ne {t : Token} (h : Alike ts us) (hd : ts = [] → t ≠ .delimiter .closeBrace)
    (ht : ∀ r, ts ≠ t :: r) (r : List Token) : us ≠ t :: r := by
  obtain ⟨b, rfl⟩ := h
  intro h
  have hahead : ahead ts = t := (List.cons.inj h).1
  cases ts with
  | nil => exact hd rfl hahead.symm
  | cons u ts => exact ht ts (congrArg (· :: ts) hahead)

theorem Alike.ne_operator {o : Operator} (h : Alike ts us) (ht : ∀ r, ts ≠ .operator o :: r)
    (r : List Token) : us ≠ .operator o :: r :=
  h.ne (fun _ ↦ Token.noConfusion) ht r

theorem Alike.ne_delimiter {d : Delimiter} (h : Alike ts us) (hd : d ≠ .closeBrace)
    (ht : ∀ r, ts ≠ .delimiter d :: r) (r : List Token) : us ≠ .delimiter d :: r :=
  h.ne (fun _ heq ↦ hd (Token.delimiter.inj heq)) ht r

/-! ## Two ways to read -/

/-- Tokens that are viable with whatever is derived from phrases of a kind behind them. -/
def Admits (front : List Token) (n : Nat) (k : α → Phrase) : Prop :=
  ∀ ⦃a us⦄, Derives n (k a) us → Viable (front ++ us)

theorem Admits.viable {k : α → Phrase} {a : α} (h : Admits front n k) (d : Derives n (k a) us) :
    Viable front := (h d).of_append

/-- A part of a phrase is admitted behind the tokens in front of it. -/
theorem Admits.inside {k : α → Phrase} {j : β → Phrase} (h : Admits front n k) (us : List Token)
    (rule : ∀ b ts, Derives m (j b) ts → ∃ a vs, Derives n (k a) (us ++ (ts ++ vs))) :
    Admits (front ++ us) m j := by
  intro b ts d
  obtain ⟨a, vs, d⟩ := rule b ts d
  have hv := h d
  rw [← List.append_assoc, ← List.append_assoc] at hv
  exact hv.of_append

/-- Why `ts` are rejected behind `front`: on account of the limits; for want of an entry of an
object; or at a place up to which the tokens are viable, while all that go on alike from there are
`bad`.  Where the end is wanted to be a closing brace, nothing is said of one. -/
inductive Offence (front ts : List Token) (bad : List Token → Prop) : Reject → Prop where
  | tooDeep (limit : Nat) (rest : List Token) : Offence front ts bad ⟨.tooDeep limit, rest⟩
  | noKey {cause : SyntaxCause} {t : Token} (hlast : (front ++ ts).getLast? = some t)
      (ht : t.precedesKey = true) (hv : Viable (front ++ ts ++ [.delimiter .closeBrace])) :
      Offence front ts bad ⟨cause, [t]⟩
  | stuck {cause : SyntaxCause} {us rest : List Token} (hts : ts = us ++ rest)
      (hv : Viable (front ++ us))
      (hbad : rest = [] ∧ Settled (front ++ us) ∨ ∀ vs, Alike rest vs → bad (us ++ vs)) :
      Offence front ts bad ⟨cause, rest⟩

/-- What reading `ts` behind `front` comes to tells what reading as `g` does, with enough fuel,
comes to on tokens that begin alike. -/
def Told (front ts : List Token) (g : Nat → List Token → Except Reject (α × List Token)) :
    Except Reject (α × List Token) → Prop
  | .ok (a, s) => ∃ us, ts = us ++ s ∧
      ∀ vs, Alike s vs → ∀ᶠ n in atTop, g n (us ++ vs) = .ok (a, vs)
  | .error e => Offence front ts (fun vs ↦ ∀ᶠ n in atTop, ∃ e', g n vs = .error e') e

namespace Offence

variable {bad bad' : List Token → Prop} {e : Reject}

theorem mono (h : Offence front ts bad e) (hbad : ∀ vs, bad vs → bad' vs) :
    Offence front ts bad' e := by
  cases h with
  | tooDeep limit rest => exact .tooDeep limit rest
  | noKey hlast ht hv => exact .noKey hlast ht hv
  | stuck hts hv h => exact .stuck hts hv (h.imp_right fun h vs hvs ↦ hbad _ (h vs hvs))

/-- What is rejected behind some tokens is rejected with them. -/
theorem after (h : Offence (front ++ us) s bad e)
    (hbad : ∀ vs, Alike s vs → bad vs → bad' (us ++ vs)) : Offence front (us ++ s) bad' e := by
  cases h with
  | tooDeep limit rest => exact .tooDeep limit rest
  | noKey hlast ht hv =>
    rw [List.append_assoc front us s] at hlast hv
    exact .noKey hlast ht hv
  | @stuck _ ws rest hts hv h =>
    subst hts
    rw [List.append_assoc] at hv h
    refine .stuck (List.append_assoc ..).symm hv (h.imp_right fun h vs hvs ↦ ?_)
    rw [List.append_assoc]
    exact hbad _ (hvs.append ws) (h vs hvs)

end Offence

namespace Told

variable {g g' : Nat → List Token → Except Reject (α × List Token)} {a : α} {cause : SyntaxCause}

/-- Reading that takes no tokens. -/
theorem pure (h : ∀ vs n, g (n + 1) (ahead ts :: vs) = .ok (a, ahead ts :: vs)) :
    Told front ts g (.ok (a, ts)) := by
  refine ⟨[], rfl, fun vs hvs ↦ ?_⟩
  obtain ⟨vs, rfl⟩ := hvs
  rw [← map_add_atTop_eq_nat 1, eventually_map]
  exact .of_forall (h vs)

/-- Reading that stops where it is. -/
theorem stop (hv : Viable front) (h : ∀ vs n, ∃ e, g (n + 1) (ahead ts :: vs) = .error e) :
    Told front ts g (.error ⟨cause, ts⟩) := by
  refine .stuck rfl (by rwa [List.append_nil]) (.inr fun vs hvs ↦ ?_)
  obtain ⟨vs, rfl⟩ := hvs
  rw [← map_add_atTop_eq_nat 1, eventually_map]
  exact .of_forall (h vs)

/-- Reading goes on behind some tokens, with less fuel. -/
theorem after (k : Nat) (us : List Token) {x : Except Reject (α × List Token)}
    (step : ∀ vs, Alike r vs → ∀ n, g' (n + k) (us ++ vs) = g n vs)
    (h : Told (front ++ us) r g x) : Told front (us ++ r) g' x := by
  cases x with
  | ok read =>
    obtain ⟨a, s⟩ := read
    obtain ⟨ws, rfl, h⟩ := h
    refine ⟨us ++ ws, (List.append_assoc ..).symm, fun vs hvs ↦ ?_⟩
    rw [← map_add_atTop_eq_nat k, eventually_map]
    filter_upwards [h vs hvs] with n h
    rw [List.append_assoc, step _ (hvs.append ws), h]
  | error e =>
    refine Offence.after h fun vs hvs hbad ↦ ?_
    rw [← map_add_atTop_eq_nat k, eventually_map]
    filter_upwards [hbad] with n hbad
    rwa [step vs hvs]

/-- Reading goes on where it is, with less fuel. -/
theorem succ {x : Except Reject (α × List Token)}
    (step : ∀ vs, Alike ts vs → ∀ n, g' (n + 1) vs = g n vs) (h : Told front ts g x) :
    Told front ts g' x := by
  refine after 1 [] step ?_
  rwa [List.append_nil]

/-- Reading goes on from what was read. -/
theorem bind {x : Except Reject (α × List Token)}
    {f : α × List Token → Except Reject (β × List Token)}
    {h : Nat → α × List Token → Except Reject (β × List Token)} (hx : Told front ts g x)
    (hf : ∀ a us s, x = .ok (a, s) → ts = us ++ s →
      Told (front ++ us) s (fun n vs ↦ h n (a, vs)) (f (a, s))) :
    Told front ts (fun n vs ↦ g n vs >>= h n) (x >>= f) := by
  cases x with
  | ok read =>
    obtain ⟨a, s⟩ := read
    obtain ⟨us, rfl, hx⟩ := hx
    replace hf := hf a us s rfl rfl
    rw [ok_bind]
    cases hy : f (a, s) with
    | ok read =>
      obtain ⟨b, t⟩ := read
      rw [hy] at hf
      obtain ⟨ws, rfl, hf⟩ := hf
      refine ⟨us ++ ws, (List.append_assoc ..).symm, fun vs hvs ↦ ?_⟩
      filter_upwards [hx _ (hvs.append ws), hf vs hvs] with n hx hf
      rw [List.append_assoc, hx, ok_bind, hf]
    | error e =>
      rw [hy] at hf
      refine Offence.after hf fun vs hvs hbad ↦ ?_
      filter_upwards [hx vs hvs, hbad] with n hx hbad
      rwa [hx, ok_bind]
  | error e =>
    refine Offence.mono hx fun vs hbad ↦ ?_
    filter_upwards [hbad] with n hbad
    obtain ⟨e', hbad⟩ := hbad
    exact ⟨e', by rw [hbad]; rfl⟩

end Told

end LivePage
