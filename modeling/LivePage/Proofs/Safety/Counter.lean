import LivePage.Proofs.Expr.Soundness
import LivePage.Proofs.Safety.Lexer

/-!
# The counter of nested expressions

Reading an expression counts how deep it is nested in others: up when an expression or a prefix
operator is entered, and down behind it, whether or not it could be read.  What fails on entering is
not counted down.  Here the counter is kept beside what is read, as a number without sign, and the
reading functions are those of expressions otherwise.

Wherever reading succeeds the counter is what it was before, and where it fails the counter is not
less; so what is counted down was counted up.
-/

namespace LivePage

/-- Steps of reading tokens.  The counter stays as it is where one fails. -/
abbrev Counting := ExceptT Reject (StateT Nat Checked)

theorem Spells.length_le {limits : Limits} {depth : Nat} {p : Phrase} {ts r : List Token}
    (h : Spells limits depth p ts r) : r.length ≤ ts.length := by
  obtain ⟨us, rfl, -⟩ := h
  simp

theorem Expr.length_of_take {d : Delimiter} {u : Unit} {ts r : List Token}
    (h : take d ts = .ok (u, r)) : ts.length = r.length + 1 := by
  rw [take_eq_ok_iff.mp h, List.length_cons]

theorem Expr.length_of_propertyName {name : String} {ts r : List Token}
    (h : propertyName ts = .ok (name, r)) : ts.length = r.length + 1 := by
  rw [propertyName_eq_ok_iff.mp h, List.length_cons]

theorem ite_error_bind {ε α β : Type} (p : Prop) [Decidable p] (e : ε) (x : Except ε α)
    (f : α → Except ε β) :
    (if p then .error e else x) >>= f = if p then .error e else x >>= f := by
  split <;> rfl

namespace Counting

variable {α β : Type} (limits : Limits)

/-- What does not count. -/
def settled (r : Except Reject α) : Counting α := ExceptT.mk (pure r)

def endless : Counting α := ExceptT.lift (StateT.lift (.error .endless))

def enter (ts : List Token) : Counting Unit := do
  modify (· + 1)
  if (← get) > limits.nesting then throw ⟨.tooDeep limits.nesting, ts⟩

def leave : Counting Unit := do
  let left ← Checked.minus (← get) 1
  set left

/-- What is read one level deeper. -/
def nested (ts : List Token) (inner : Counting α) : Counting α := do
  enter limits ts
  let read ← ExceptT.lift inner.run
  leave
  settled read

def separated (closing : Delimiter) (more : List Token → Counting (List α × List Token)) (x : α) :
    List Token → Counting (List α × List Token)
  | .delimiter .comma :: r => do
    let (xs, r) ← more r
    return (x :: xs, r)
  | r => do
    let ((), r) ← settled (Expr.take closing r)
    return ([x], r)

def entryValue (read : List Token → Counting (Expr × List Token)) (key : String) :
    List Token → Counting (Expr × List Token)
  | .delimiter .colon :: r => read r
  | r => return (.identifier key, r)

mutual

def expression : (fuel : Nat) → List Token → Counting (Expr × List Token)
  | 0, _ => endless
  | fuel + 1, ts => nested limits ts do
    let (test, ts) ← chain fuel .nullish ts
    match ts with
    | .operator .question :: ts =>
      let (consequent, ts) ← expression fuel ts
      let ((), ts) ← settled (Expr.take .colon ts)
      let (alternate, ts) ← expression fuel ts
      settled (Expr.bounded limits (.conditional test consequent alternate) ts)
    | ts => return (test, ts)

def chain : (fuel : Nat) → Level → List Token → Counting (Expr × List Token)
  | 0, _, _ => endless
  | fuel + 1, level, ts => do
    let (left, ts) ← operand fuel level ts
    chainRest fuel level left ts

def operand : (fuel : Nat) → Level → List Token → Counting (Expr × List Token)
  | 0, _, _ => endless
  | fuel + 1, level, ts =>
    match level.next with
    | some level => chain fuel level ts
    | none => prefixed fuel ts

def chainRest : (fuel : Nat) → Level → Expr → List Token → Counting (Expr × List Token)
  | 0, _, _, _ => endless
  | fuel + 1, level, left, ts =>
    match ts with
    | .operator o :: r =>
      match level.join? o with
      | some join => do
        let (right, r) ← operand fuel level r
        let (left, r) ← settled (Expr.bounded limits (join left right) r)
        chainRest fuel level left r
      | none => return (left, ts)
    | _ => return (left, ts)

def prefixed : (fuel : Nat) → List Token → Counting (Expr × List Token)
  | 0, _ => endless
  | fuel + 1, ts =>
    match ts with
    | .operator o :: r =>
      match UnaryOp.ofOperator? o with
      | some op => do
        let (operand, r) ← nested limits r (prefixed fuel r)
        settled (Expr.bounded limits (.unary op operand) r)
      | none => linked fuel ts
    | _ => linked fuel ts

def linked : (fuel : Nat) → List Token → Counting (Expr × List Token)
  | 0, _ => endless
  | fuel + 1, ts => do
    let (e, ts) ← primary fuel ts
    links fuel e ts

def links : (fuel : Nat) → Expr → List Token → Counting (Expr × List Token)
  | 0, _, _ => endless
  | fuel + 1, e, ts =>
    match ts with
    | .operator .dot :: r => do
      let (name, r) ← settled (Expr.propertyName r)
      let (e, r) ← settled (Expr.bounded limits (.member e name false) r)
      links fuel e r
    | .operator .optionalDot :: .delimiter .openBracket :: r => do
      let (position, r) ← expression fuel r
      let ((), r) ← settled (Expr.take .closeBracket r)
      let (e, r) ← settled (Expr.bounded limits (.index e position true) r)
      links fuel e r
    | .operator .optionalDot :: .delimiter .openParen :: r => do
      let (arguments, r) ← items fuel .closeParen r
      let (e, r) ← settled (Expr.bounded limits (.call e arguments true) r)
      links fuel e r
    | .operator .optionalDot :: r => do
      let (name, r) ← settled (Expr.propertyName r)
      let (e, r) ← settled (Expr.bounded limits (.member e name true) r)
      links fuel e r
    | .delimiter .openBracket :: r => do
      let (position, r) ← expression fuel r
      let ((), r) ← settled (Expr.take .closeBracket r)
      let (e, r) ← settled (Expr.bounded limits (.index e position false) r)
      links fuel e r
    | .delimiter .openParen :: r => do
      let (arguments, r) ← items fuel .closeParen r
      let (e, r) ← settled (Expr.bounded limits (.call e arguments false) r)
      links fuel e r
    | _ => return (e, ts)

def primary : (fuel : Nat) → List Token → Counting (Expr × List Token)
  | 0, _ => endless
  | _ + 1, [] => settled (Expr.expected "an expression" [])
  | fuel + 1, t :: r =>
    match t with
    | .number x => return (.literal (.ofFloat x), r)
    | .string s => return (.literal (.str s), r)
    | .identifier name => return (Expr.ofName name, r)
    | .delimiter .openParen => do
      let (e, r) ← expression fuel r
      let ((), r) ← settled (Expr.take .closeParen r)
      return (e, r)
    | .delimiter .openBracket => do
      let (items, r) ← items fuel .closeBracket r
      settled (Expr.bounded limits (.array items) r)
    | .delimiter .openBrace => do
      let (entries, r) ← entries fuel t r
      settled (Expr.bounded limits (.object entries) r)
    | t => throw ⟨.unexpected t, t :: r⟩

def items : (fuel : Nat) → Delimiter → List Token → Counting (List Expr × List Token)
  | 0, _, _ => endless
  | fuel + 1, closing, ts =>
    match Expr.take closing ts with
    | .ok ((), r) => return ([], r)
    | .error _ => do
      let (e, r) ← expression fuel ts
      separated closing (items fuel closing) e r

def entries : (fuel : Nat) → (before : Token) → List Token →
    Counting (List (String × Expr) × List Token)
  | 0, _, _ => endless
  | _ + 1, before, [] => settled (Expr.expected "a property name" [before])
  | fuel + 1, _, t :: r =>
    if t = .delimiter .closeBrace then return ([], r)
    else match Expr.key? t with
      | none => settled (Expr.expected "a property name" (t :: r))
      | some key => do
        let (e, r) ← entryValue (expression fuel) key r
        separated .closeBrace (entries fuel (.delimiter .comma)) (key, e) r

end

variable {limits} {d fuel : Nat} {ts : List Token}

/-! ## Steps and the counter -/

theorem run_bind_of_ok {x : Counting α} {a : α} {d' : Nat} (h : x.run.run d = .ok (.ok a, d'))
    (f : α → Counting β) : (x >>= f).run.run d = (f a).run.run d' := by
  simp only [ExceptT.run_bind, StateT.run_bind, h]
  rfl

theorem run_bind_of_error {x : Counting α} {e : Reject} {d' : Nat}
    (h : x.run.run d = .ok (.error e, d')) (f : α → Counting β) :
    (x >>= f).run.run d = .ok (.error e, d') := by
  simp only [ExceptT.run_bind, StateT.run_bind, h]
  rfl

theorem run_enter (limits : Limits) (ts : List Token) (d : Nat) :
    (enter limits ts).run.run d =
      .ok (if d ≥ limits.nesting then .error ⟨.tooDeep limits.nesting, ts⟩ else .ok (), d + 1) := by
  have counted : (enter limits ts).run.run d =
      (if d + 1 > limits.nesting then throw ⟨.tooDeep limits.nesting, ts⟩
        else pure () : Counting Unit).run.run (d + 1) := rfl
  rw [counted]
  by_cases deep : d ≥ limits.nesting
  · rw [if_pos deep, if_pos (Nat.lt_succ_of_le deep)]
    rfl
  · rw [if_neg deep, if_neg (by omega)]
    rfl

theorem run_leave (d : Nat) : leave.run.run (d + 1) = .ok (.ok (), d) := rfl

/-- Steps that count come to what steps at a fixed depth come to, and leave the counter as it was
if they succeed, and not less if they fail. -/
def Agrees (d : Nat) (x : Counting α) (r : Except Reject α) : Prop :=
  ∃ d', x.run.run d = .ok (r, d') ∧ d ≤ d' ∧ (r.isOk → d' = d)

namespace Agrees

theorem settled (d : Nat) (r : Except Reject α) : Agrees d (settled r) r :=
  ⟨d, rfl, Nat.le_refl d, fun _ ↦ rfl⟩

theorem bind {x : Counting α} {f : α → Counting β} {r : Except Reject α}
    {g : α → Except Reject β} (hx : Agrees d x r)
    (hf : ∀ a, r = .ok a → Agrees d (f a) (g a)) : Agrees d (x >>= f) (r >>= g) := by
  obtain ⟨d', hx, le, same⟩ := hx
  cases r with
  | error e => exact ⟨d', run_bind_of_error hx f, le, nofun⟩
  | ok a =>
    obtain rfl := same rfl
    obtain ⟨d'', hf, le, same⟩ := hf a rfl
    exact ⟨d'', (run_bind_of_ok hx f).trans hf, le, same⟩

/-- A tree that is not too high is taken on. -/
theorem bind_bounded {e : Expr} {f : Expr × List Token → Counting β}
    {g : Expr × List Token → Except Reject β} (hf : Agrees d (f (e, ts)) (g (e, ts))) :
    Agrees d (Counting.settled (Expr.bounded limits e ts) >>= f)
      (Expr.bounded limits e ts >>= g) := by
  refine .bind (.settled _ _) ?_
  rintro ⟨e', us⟩ h
  obtain ⟨rfl, rfl, -⟩ := Expr.bounded_eq_ok_iff.mp h
  exact hf

/-- What is counted down behind a nested part was counted up in front of it. -/
theorem nested {x : Counting α} {r : Except Reject α}
    (h : d < limits.nesting → Agrees (d + 1) x r) : Agrees d (nested limits ts x)
      (if d ≥ limits.nesting then .error ⟨.tooDeep limits.nesting, ts⟩ else r) := by
  have entered := run_enter limits ts d
  by_cases deep : d ≥ limits.nesting
  · rw [if_pos deep] at entered ⊢
    exact ⟨d + 1, run_bind_of_error entered _, Nat.le_succ d, nofun⟩
  · rw [if_neg deep] at entered ⊢
    obtain ⟨d', hx, le, same⟩ := h (Nat.lt_of_not_le deep)
    obtain ⟨d', rfl⟩ := Nat.exists_eq_add_one_of_ne_zero (Nat.ne_of_gt (Nat.zero_lt_of_lt le))
    have inner : (ExceptT.lift x.run : Counting (Except Reject α)).run.run (d + 1) =
        .ok (.ok r, d' + 1) := by
      simp only [ExceptT.run_lift, StateT.run_map, hx]
      rfl
    refine ⟨d', ?_, Nat.le_of_succ_le_succ le, fun ok ↦ Nat.succ.inj (same ok)⟩
    rw [Counting.nested, run_bind_of_ok entered, run_bind_of_ok inner,
      run_bind_of_ok (run_leave d')]
    rfl

end Agrees

/-- With enough fuel, reading counts as it nests. -/
structure Balanced (limits : Limits) (fuel : Nat) : Prop where
  expression {d : Nat} {ts : List Token} : 24 * ts.length + 18 ≤ fuel →
    Agrees d (expression limits fuel ts) (Expr.expression limits fuel d ts)
  chain {d : Nat} {level : Level} {ts : List Token} :
    24 * ts.length + (17 - 2 * level.rank) ≤ fuel →
      Agrees d (chain limits fuel level ts) (Expr.chain limits fuel d level ts)
  operand {d : Nat} {level : Level} {ts : List Token} :
    24 * ts.length + (16 - 2 * level.rank) ≤ fuel →
      Agrees d (operand limits fuel level ts) (Expr.operand limits fuel d level ts)
  chainRest {d : Nat} {level : Level} {left : Expr} {ts : List Token} :
    24 * ts.length + 1 ≤ fuel →
      Agrees d (chainRest limits fuel level left ts) (Expr.chainRest limits fuel d level left ts)
  prefixed {d : Nat} {ts : List Token} : 24 * ts.length + 3 ≤ fuel →
    Agrees d (prefixed limits fuel ts) (Expr.prefixed limits fuel d ts)
  linked {d : Nat} {ts : List Token} : 24 * ts.length + 2 ≤ fuel →
    Agrees d (linked limits fuel ts) (Expr.linked limits fuel d ts)
  links {d : Nat} {e : Expr} {ts : List Token} : 24 * ts.length + 1 ≤ fuel →
    Agrees d (links limits fuel e ts) (Expr.links limits fuel d e ts)
  primary {d : Nat} {ts : List Token} : 24 * ts.length + 1 ≤ fuel →
    Agrees d (primary limits fuel ts) (Expr.primary limits fuel d ts)
  items {d : Nat} {closing : Delimiter} {ts : List Token} : 24 * ts.length + 19 ≤ fuel →
    Agrees d (items limits fuel closing ts) (Expr.items limits fuel d closing ts)
  entries {d : Nat} {before : Token} {ts : List Token} : 24 * ts.length + 1 ≤ fuel →
    Agrees d (entries limits fuel before ts) (Expr.entries limits fuel d before ts)

variable {level : Level} {left target : Expr}

theorem agrees_expression (hl : 0 < limits.height) (ih : Balanced limits fuel)
    (h : 24 * ts.length + 18 ≤ fuel + 1) :
    Agrees d (expression limits (fuel + 1) ts) (Expr.expression limits (fuel + 1) d ts) := by
  rw [expression, Expr.expression]
  have first : Level.nullish.rank = 0 := rfl
  refine .nested fun _ ↦ .bind (ih.chain (by omega)) ?_
  rintro ⟨test, us⟩ ht
  have le := ((Expr.sound hl fuel).chain ht).length_le
  cases us with
  | nil => exact .settled _ (.ok (test, []))
  | cons t r =>
    cases t with
    | operator o =>
      cases o with
      | question =>
        rw [List.length_cons] at le
        refine .bind (ih.expression (by omega)) ?_
        rintro ⟨consequent, vs⟩ hc
        have := ((Expr.sound hl fuel).expression hc).length_le
        refine .bind (.settled _ _) ?_
        rintro ⟨⟨⟩, r⟩ hr
        have : vs.length = r.length + 1 := Expr.length_of_take hr
        exact .bind (ih.expression (by omega)) fun _ _ ↦ .settled _ _
      | _ => exact .settled _ (.ok (test, _))
    | _ => exact .settled _ (.ok (test, _))

theorem agrees_chain (hl : 0 < limits.height) (ih : Balanced limits fuel)
    (h : 24 * ts.length + (17 - 2 * level.rank) ≤ fuel + 1) :
    Agrees d (chain limits (fuel + 1) level ts) (Expr.chain limits (fuel + 1) d level ts) := by
  rw [chain, Expr.chain]
  have := level.rank_le
  refine .bind (ih.operand (by omega)) ?_
  rintro ⟨left, us⟩ hs
  have := ((Expr.sound hl fuel).operand hs).length_le
  exact ih.chainRest (by omega)

theorem agrees_operand (ih : Balanced limits fuel)
    (h : 24 * ts.length + (16 - 2 * level.rank) ≤ fuel + 1) :
    Agrees d (operand limits (fuel + 1) level ts) (Expr.operand limits (fuel + 1) d level ts) := by
  rw [operand, Expr.operand]
  cases level with
  | multiplicative => exact ih.prefixed (by simp only [Level.rank] at h; omega)
  | nullish | or | and | equality | relational | additive =>
    exact ih.chain (by simp only [Level.rank] at h ⊢; omega)

theorem agrees_chainRest (hl : 0 < limits.height) (ih : Balanced limits fuel)
    (h : 24 * ts.length + 1 ≤ fuel + 1) :
    Agrees d (chainRest limits (fuel + 1) level left ts)
      (Expr.chainRest limits (fuel + 1) d level left ts) := by
  unfold chainRest Expr.chainRest
  cases ts with
  | nil => exact .settled _ (.ok (left, []))
  | cons t us =>
    rw [List.length_cons] at h
    cases t with
    | operator o =>
      dsimp only
      cases level.join? o with
      | some join =>
        have := level.rank_le
        refine .bind (ih.operand (by omega)) ?_
        rintro ⟨right, vs⟩ hs
        have := ((Expr.sound hl fuel).operand hs).length_le
        exact .bind_bounded (ih.chainRest (show 24 * vs.length + 1 ≤ fuel by omega))
      | none => exact .settled _ (.ok (left, _))
    | _ => exact .settled _ (.ok (left, _))

theorem agrees_prefixed (ih : Balanced limits fuel) (h : 24 * ts.length + 3 ≤ fuel + 1) :
    Agrees d (prefixed limits (fuel + 1) ts) (Expr.prefixed limits (fuel + 1) d ts) := by
  unfold prefixed Expr.prefixed
  cases ts with
  | nil => exact ih.linked (by omega)
  | cons t us =>
    cases t with
    | operator o =>
      dsimp only
      cases UnaryOp.ofOperator? o with
      | some op =>
        rw [List.length_cons] at h
        dsimp only
        rw [← ite_error_bind]
        exact .bind (.nested fun _ ↦ ih.prefixed (by omega)) fun _ _ ↦ .settled _ _
      | none => exact ih.linked (by omega)
    | _ => exact ih.linked (by omega)

theorem agrees_linked (hl : 0 < limits.height) (ih : Balanced limits fuel)
    (h : 24 * ts.length + 2 ≤ fuel + 1) :
    Agrees d (linked limits (fuel + 1) ts) (Expr.linked limits (fuel + 1) d ts) := by
  rw [linked, Expr.linked]
  refine .bind (ih.primary (by omega)) ?_
  rintro ⟨e, us⟩ hs
  have := ((Expr.sound hl fuel).primary hs).length_le
  exact ih.links (by omega)

/-- Links behind a member. -/
theorem agrees_member (ih : Balanced limits fuel) (h : 24 * ts.length + 1 ≤ fuel)
    (join : String → Expr) :
    Agrees d (do
        let (name, r) ← settled (Expr.propertyName ts)
        let (e, r) ← settled (Expr.bounded limits (join name) r)
        links limits fuel e r)
      (do
        let (name, r) ← Expr.propertyName ts
        let (e, r) ← Expr.bounded limits (join name) r
        Expr.links limits fuel d e r) := by
  refine .bind (.settled _ _) ?_
  rintro ⟨name, r⟩ hr
  have : ts.length = r.length + 1 := Expr.length_of_propertyName hr
  exact .bind_bounded (ih.links (show 24 * r.length + 1 ≤ fuel by omega))

/-- Links behind an index. -/
theorem agrees_index (hl : 0 < limits.height) (ih : Balanced limits fuel)
    (h : 24 * ts.length + 18 ≤ fuel) (join : Expr → Expr) :
    Agrees d (do
        let (position, r) ← expression limits fuel ts
        let ((), r) ← settled (Expr.take .closeBracket r)
        let (e, r) ← settled (Expr.bounded limits (join position) r)
        links limits fuel e r)
      (do
        let (position, r) ← Expr.expression limits fuel d ts
        let ((), r) ← Expr.take .closeBracket r
        let (e, r) ← Expr.bounded limits (join position) r
        Expr.links limits fuel d e r) := by
  refine .bind (ih.expression h) ?_
  rintro ⟨position, us⟩ hs
  have := ((Expr.sound hl fuel).expression hs).length_le
  refine .bind (.settled _ _) ?_
  rintro ⟨⟨⟩, r⟩ hr
  have : us.length = r.length + 1 := Expr.length_of_take hr
  exact .bind_bounded (ih.links (show 24 * r.length + 1 ≤ fuel by omega))

/-- Links behind a call. -/
theorem agrees_call (hl : 0 < limits.height) (ih : Balanced limits fuel)
    (h : 24 * ts.length + 19 ≤ fuel) (join : List Expr → Expr) :
    Agrees d (do
        let (arguments, r) ← items limits fuel .closeParen ts
        let (e, r) ← settled (Expr.bounded limits (join arguments) r)
        links limits fuel e r)
      (do
        let (arguments, r) ← Expr.items limits fuel d .closeParen ts
        let (e, r) ← Expr.bounded limits (join arguments) r
        Expr.links limits fuel d e r) := by
  refine .bind (ih.items h) ?_
  rintro ⟨arguments, r⟩ hs
  have := ((Expr.sound hl fuel).items hs).length_le
  rw [List.length_cons] at this
  exact .bind_bounded (ih.links (show 24 * r.length + 1 ≤ fuel by omega))

theorem agrees_links (hl : 0 < limits.height) (ih : Balanced limits fuel)
    (h : 24 * ts.length + 1 ≤ fuel + 1) :
    Agrees d (links limits (fuel + 1) target ts)
      (Expr.links limits (fuel + 1) d target ts) := by
  unfold links
  split
  · rw [Expr.links]
    exact agrees_member ih (by grind) (.member target · false)
  · rw [Expr.links]
    exact agrees_index hl ih (by grind) (.index target · true)
  · rw [Expr.links]
    exact agrees_call hl ih (by grind) (.call target · true)
  · rw [Expr.links]
    · exact agrees_member ih (by grind) (.member target · true)
    all_goals assumption
  · rw [Expr.links]
    exact agrees_index hl ih (by grind) (.index target · false)
  · rw [Expr.links]
    exact agrees_call hl ih (by grind) (.call target · false)
  · rw [Expr.links]
    · exact .settled _ _
    all_goals assumption

theorem agrees_primary (ih : Balanced limits fuel)
    (h : 24 * ts.length + 1 ≤ fuel + 1) :
    Agrees d (primary limits (fuel + 1) ts) (Expr.primary limits (fuel + 1) d ts) := by
  cases ts with
  | nil =>
    rw [primary, Expr.primary]
    exact .settled _ _
  | cons t r =>
    rw [List.length_cons] at h
    unfold primary Expr.primary
    cases t with
    | number | string | identifier => exact .settled _ (.ok (_, r))
    | operator o => exact .settled _ (.error _)
    | delimiter closing =>
      cases closing with
      | openParen =>
        refine .bind (ih.expression (by omega)) ?_
        rintro ⟨e, us⟩ _
        exact .bind (.settled _ _) fun _ _ ↦ .settled _ _
      | openBracket => exact .bind (ih.items (by omega)) fun _ _ ↦ .settled _ _
      | openBrace => exact .bind (ih.entries (by omega)) fun _ _ ↦ .settled _ _
      | _ => exact .settled _ (.error _)

/-- What comes behind an item, if more of them are read with the fuel there is. -/
theorem agrees_separated {closing : Delimiter} {x : α}
    {more : List Token → Counting (List α × List Token)}
    {more' : List Token → Except Reject (List α × List Token)}
    (h : ∀ us : List Token, us.length < ts.length → Agrees d (more us) (more' us)) :
    Agrees d (separated closing more x ts) (Expr.separated closing more' x ts) := by
  unfold separated
  split
  · rw [Expr.separated]
    exact .bind (h _ (Nat.lt_succ_self _)) fun _ _ ↦ .settled _ _
  · rw [Expr.separated]
    · exact .bind (.settled _ _) fun _ _ ↦ .settled _ _
    · assumption

theorem agrees_entryValue {key : String} {read : List Token → Counting (Expr × List Token)}
    {read' : List Token → Parsed}
    (h : ∀ us : List Token, us.length < ts.length → Agrees d (read us) (read' us)) :
    Agrees d (entryValue read key ts) (Expr.entryValue read' key ts) := by
  unfold entryValue
  split
  · exact h _ (Nat.lt_succ_self _)
  · rw [Expr.entryValue]
    · exact .settled _ _
    · assumption

theorem length_of_entryValue (hl : 0 < limits.height) {key : String} {e : Expr} {r : List Token}
    (h : Expr.entryValue (Expr.expression limits fuel d) key ts = .ok (e, r)) :
    r.length ≤ ts.length := by
  unfold Expr.entryValue at h
  split at h
  · exact Nat.le_succ_of_le ((Expr.sound hl fuel).expression h).length_le
  · cases h
    exact Nat.le_refl _

theorem agrees_items (hl : 0 < limits.height) (ih : Balanced limits fuel) {closing : Delimiter}
    (h : 24 * ts.length + 19 ≤ fuel + 1) :
    Agrees d (items limits (fuel + 1) closing ts) (Expr.items limits (fuel + 1) d closing ts) := by
  rw [items, Expr.items]
  cases Expr.take closing ts with
  | ok taken => exact .settled _ (.ok ([], taken.2))
  | error =>
    refine .bind (ih.expression (by omega)) ?_
    rintro ⟨e, us⟩ hs
    have := ((Expr.sound hl fuel).expression hs).length_le
    exact agrees_separated fun vs _ ↦ ih.items (by omega)

theorem agrees_entries (hl : 0 < limits.height) (ih : Balanced limits fuel) {before : Token}
    (h : 24 * ts.length + 1 ≤ fuel + 1) :
    Agrees d (entries limits (fuel + 1) before ts)
      (Expr.entries limits (fuel + 1) d before ts) := by
  cases ts with
  | nil =>
    rw [entries, Expr.entries]
    exact .settled _ _
  | cons t r =>
    rw [List.length_cons] at h
    rw [entries, Expr.entries]
    split
    · exact .settled _ _
    · cases Expr.key? t with
      | none => exact .settled _ _
      | some key =>
        refine .bind (agrees_entryValue fun us _ ↦ ih.expression (by omega)) ?_
        rintro ⟨e, us⟩ hs
        have : us.length ≤ r.length := length_of_entryValue hl hs
        exact agrees_separated fun vs _ ↦ ih.entries (by omega)

theorem balanced (hl : 0 < limits.height) : ∀ fuel, Balanced limits fuel
  | 0 => by
    constructor
    case chain | operand =>
      intro _ level _ h
      have := level.rank_le
      omega
    all_goals
      intros
      omega
  | fuel + 1 =>
    have ih := balanced hl fuel
    { expression := agrees_expression hl ih
      chain := agrees_chain hl ih
      operand := agrees_operand ih
      chainRest := agrees_chainRest hl ih
      prefixed := agrees_prefixed ih
      linked := agrees_linked hl ih
      links := agrees_links hl ih
      primary := agrees_primary ih
      items := agrees_items hl ih
      entries := agrees_entries hl ih }

/-- The expression that a whole sequence of tokens spells. -/
def ofTokens (limits : Limits) (ts : List Token) : Counting Expr := do
  let (e, rest) ← expression limits (Expr.enough ts.length) ts
  match rest with
  | [] => return e
  | t :: _ => throw ⟨.unexpected t, rest⟩

theorem agrees_ofTokens (hl : 0 < limits.height) (ts : List Token) :
    Agrees 0 (ofTokens limits ts) (Expr.ofTokens limits ts) := by
  have enough : 24 * ts.length + 18 ≤ Expr.enough ts.length := by
    rw [Expr.enough]
    omega
  refine .bind ((balanced hl _).expression enough) ?_
  rintro ⟨e, rest⟩ _
  cases rest with
  | nil => exact .settled _ (.ok e)
  | cons t r => exact .settled _ (.error ⟨.unexpected t, t :: r⟩)

end Counting

/-- The expression that a text spells, and what is on the counter in the end. -/
def Checked.parse (source : String) : Checked (Except SyntaxError Expr × Nat) := do
  match ← Checked.tokenize source with
  | .error e => return (.error ⟨.lexical e.found, e.position⟩, 0)
  | .ok [] => return (.error ⟨.emptySource, 0⟩, 0)
  | .ok ts =>
    let (read, count) ← (Counting.ofTokens .standard (ts.map (·.token))).run.run 0
    return (read.mapError fun r ↦
      ⟨r.cause, Expr.positionOf ts source.utf8ByteSize r.rest.length⟩, count)

/-- Parsing ends, with nothing on the counter if there is an expression. -/
theorem Checked.parse_eq (source : String) : ∃ count, Checked.parse source =
    .ok (Expr.parse source, count) ∧ ((Expr.parse source).isOk → count = 0) := by
  rw [Checked.parse, tokenize_eq, Expr.parse]
  cases LivePage.tokenize source with
  | error e => exact ⟨0, rfl, nofun⟩
  | ok ts =>
    cases ts with
    | nil => exact ⟨0, rfl, nofun⟩
    | cons t r =>
      have standard : 0 < Limits.standard.height := by decide
      obtain ⟨count, run, -, same⟩ := Counting.agrees_ofTokens standard ((t :: r).map (·.token))
      refine ⟨count, ?_, ?_⟩
      · simp only [bind, Except.bind, run]
        cases Expr.ofTokens .standard ((t :: r).map (·.token)) <;> rfl
      · intro ok
        dsimp only at ok
        cases h : Expr.ofTokens .standard ((t :: r).map (·.token)) with
        | ok e => exact same (by rw [h]; rfl)
        | error e =>
          rw [h] at ok
          cases ok

end LivePage
