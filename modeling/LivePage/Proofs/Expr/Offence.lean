import LivePage.Proofs.Expr.Viable

/-!
# Where reading stops

Every reading function is told of in the same way: if the tokens in front of it admit the phrase
that it reads, then it stops at the first token behind which nothing can go on, or it takes a phrase
and leaves the rest.  All functions are told of together, by induction on the fuel, with one lemma
for each from all of them with less fuel.  The fuel of the first reading is enough for its tokens,
so that it never stops for want of fuel; the second one has as much as it takes.

For whole sequences of tokens this means that those that are rejected are viable up to the place
where reading stops, and not with the token there.
-/

namespace LivePage

open Filter

variable {limits wide : Limits} {fuel depth n : Nat} {front ts us r : List Token}

theorem Spells.derives {p : Phrase} (h : Spells limits depth p (us ++ r) r) :
    Derives (limits.nesting - depth) p us := by
  obtain ⟨vs, hvs, d, -⟩ := h
  rwa [List.append_cancel_right hvs]

namespace Expr

variable {α β : Type} {e left target : Expr} {level : Level} {d : Delimiter}

/-! ## Single tokens -/

/-- Without its delimiter, taking one stops at once. -/
theorem take_eq_error (h : ∀ r, ts ≠ .delimiter d :: r) :
    take d ts = expected s!"`{d.char}`" ts := by
  fun_cases take d ts
  · exact absurd rfl (h _)
  · rfl
  · rfl

theorem told_take (hv : Viable front) (hd : d ≠ .closeBrace ∨ Settled front) :
    Told front ts (fun _ ↦ take d) (take d ts) := by
  by_cases hts : ∃ r, ts = .delimiter d :: r
  · obtain ⟨r, rfl⟩ := hts
    rw [take_delimiter]
    exact .after (g := fun _ vs ↦ .ok ((), vs)) 0 [.delimiter d] (fun vs _ _ ↦ take_delimiter d vs)
      (.pure fun _ _ ↦ rfl)
  · have hts (r : List Token) : ts ≠ .delimiter d :: r := fun h ↦ hts ⟨r, h⟩
    rw [take_eq_error hts]
    -- only a closing brace that is wanted at the end is there in the second reading
    by_cases hend : ts = [] ∧ d = .closeBrace
    · obtain ⟨rfl, rfl⟩ := hend
      have hd : Settled front := hd.resolve_left (absurd rfl)
      rw [← List.append_nil front] at hv hd
      exact .stuck (List.nil_append []).symm hv (.inl ⟨rfl, hd⟩)
    · have hne : ts = [] → Token.delimiter d ≠ .delimiter .closeBrace :=
        fun hn hc ↦ hend ⟨hn, Token.delimiter.inj hc⟩
      exact .stop hv fun vs _ ↦ ⟨_, take_eq_error ((alike_ahead ts vs).ne hne hts)⟩

/-- Reading goes on behind a delimiter. -/
theorem told_take_bind (hv : Viable front) (hd : d ≠ .closeBrace ∨ Settled front)
    {f : Unit × List Token → Except Reject (β × List Token)}
    {h : Nat → Unit × List Token → Except Reject (β × List Token)}
    (hf : ∀ r, ts = .delimiter d :: r →
      Told (front ++ [.delimiter d]) r (fun n vs ↦ h n ((), vs)) (f ((), r))) :
    Told front ts (fun n vs ↦ take d vs >>= h n) (take d ts >>= f) := by
  refine .bind (told_take hv hd) ?_
  rintro ⟨⟩ us r ht rfl
  have hr : us ++ r = [.delimiter d] ++ r := take_eq_ok_iff.mp ht
  rw [List.append_cancel_right hr]
  exact hf r (take_eq_ok_iff.mp ht)

theorem told_propertyName (hv : Viable front) :
    Told front ts (fun _ ↦ propertyName) (propertyName ts) := by
  cases ts with
  | nil => exact .stop hv fun _ _ ↦ ⟨_, rfl⟩
  | cons t r =>
    cases t with
    | identifier name =>
      exact .after (g := fun _ vs ↦ .ok (name, vs)) 0 [.identifier name] (fun _ _ _ ↦ rfl)
        (.pure fun _ _ ↦ rfl)
    | number | string | operator | delimiter => exact .stop hv fun _ _ ↦ ⟨_, rfl⟩

/-- Reading goes on behind the name of a property. -/
theorem told_propertyName_bind (hv : Viable front)
    {f : String × List Token → Except Reject (β × List Token)}
    {h : Nat → String × List Token → Except Reject (β × List Token)}
    (hf : ∀ name r, ts = .identifier name :: r →
      Told (front ++ [.identifier name]) r (fun n vs ↦ h n (name, vs)) (f (name, r))) :
    Told front ts (fun n vs ↦ propertyName vs >>= h n) (propertyName ts >>= f) := by
  refine .bind (told_propertyName hv) ?_
  rintro name us r ht rfl
  have hr : us ++ r = [.identifier name] ++ r := propertyName_eq_ok_iff.mp ht
  rw [List.append_cancel_right hr]
  exact hf name r (propertyName_eq_ok_iff.mp ht)

theorem told_bounded (hw : limits.Within wide) :
    Told front ts (fun _ ↦ bounded wide e) (bounded limits e ts) := by
  rw [bounded]
  split
  · next hh => exact .pure fun _ _ ↦ bounded_of_le (Nat.le_trans hh hw.height) _
  · exact .tooDeep _ _

/-- Reading goes on with a tree. -/
theorem told_bounded_bind (hw : limits.Within wide)
    {f : Expr × List Token → Except Reject (β × List Token)}
    {h : Nat → Expr × List Token → Except Reject (β × List Token)}
    (hf : Told front ts (fun n vs ↦ h n (e, vs)) (f (e, ts))) :
    Told front ts (fun n vs ↦ bounded wide e vs >>= h n) (bounded limits e ts >>= f) := by
  refine .bind (told_bounded hw) ?_
  intro e' us s hs hts
  obtain ⟨rfl, rfl, -⟩ := bounded_eq_ok_iff.mp hs
  have hus : us = [] := by simpa using hts
  rw [hus, List.append_nil]
  exact hf

/-- What comes behind an item, if it can be told of what comes behind a comma. -/
theorem told_separated {closing : Delimiter} {a : α}
    {more : List Token → Except Reject (List α × List Token)}
    {g : Nat → List Token → Except Reject (List α × List Token)} (hv : Viable front)
    (hc : closing ≠ .closeBrace ∨ Settled front)
    (hm : ∀ r, ts = .delimiter .comma :: r → Told (front ++ [.delimiter .comma]) r g (more r)) :
    Told front ts (fun n ↦ separated closing (g n) a) (separated closing more a ts) := by
  by_cases hts : ∃ r, ts = .delimiter .comma :: r
  · obtain ⟨r, rfl⟩ := hts
    rw [separated]
    refine .after 0 [.delimiter .comma] (fun _ _ _ ↦ rfl) (.bind (hm r rfl) ?_)
    intro as us s _ _
    exact .pure fun _ _ ↦ rfl
  · have hts (r : List Token) : ts ≠ .delimiter .comma :: r := fun h ↦ hts ⟨r, h⟩
    have step (us : List Token) (h : ∀ r, us ≠ .delimiter .comma :: r)
        (more : List Token → Except Reject (List α × List Token)) :
        separated closing more a us = take closing us >>= fun x ↦ .ok ([a], x.2) := by
      rw [separated]
      · rfl
      · exact h
    rw [step ts hts]
    refine .succ (g := fun _ vs ↦ take closing vs >>= fun x ↦ .ok ([a], x.2))
      (fun vs hvs n ↦ step vs (hvs.ne_delimiter (by decide) hts) _) ?_
    exact told_take_bind hv hc fun r _ ↦ .pure fun _ _ ↦ rfl

/-- The value of an entry, if it can be told of what comes behind a colon. -/
theorem told_entryValue {key : String} {read : List Token → Parsed} {g : Nat → List Token → Parsed}
    (h : ∀ r, ts = .delimiter .colon :: r → Told (front ++ [.delimiter .colon]) r g (read r)) :
    Told front ts (fun n ↦ entryValue (g n) key) (entryValue read key ts) := by
  by_cases hts : ∃ r, ts = .delimiter .colon :: r
  · obtain ⟨r, rfl⟩ := hts
    exact .after 0 [.delimiter .colon] (fun _ _ _ ↦ rfl) (h r rfl)
  · have hts (r : List Token) : ts ≠ .delimiter .colon :: r := fun h ↦ hts ⟨r, h⟩
    have bare (us : List Token) (h : ∀ r, us ≠ .delimiter .colon :: r)
        (read : List Token → Parsed) : entryValue read key us = .ok (.identifier key, us) := by
      rw [entryValue]
      exact h
    rw [bare ts hts]
    exact .pure fun vs _ ↦ bare _ ((alike_ahead ts vs).ne_delimiter (by decide) hts) _

/-! ## One step of every function -/

variable (limits wide) in
/-- What can be told of the reading functions with some fuel. -/
structure Tells (fuel : Nat) : Prop where
  expression {depth : Nat} {front ts : List Token} : 24 * ts.length + 18 ≤ fuel →
    Admits front (limits.nesting - depth) .expression →
      Told front ts (fun n ↦ expression wide n depth) (expression limits fuel depth ts)
  chain {depth : Nat} {level : Level} {front ts : List Token} :
    24 * ts.length + (17 - 2 * level.rank) ≤ fuel →
      Admits front (limits.nesting - depth) (.chain level) →
        Told front ts (fun n ↦ chain wide n depth level) (chain limits fuel depth level ts)
  operand {depth : Nat} {level : Level} {front ts : List Token} :
    24 * ts.length + (16 - 2 * level.rank) ≤ fuel →
      Admits front (limits.nesting - depth) (Phrase.operand · level) →
        Told front ts (fun n ↦ operand wide n depth level) (operand limits fuel depth level ts)
  chainRest {depth : Nat} {level : Level} {left : Expr} {front us ts : List Token} :
    24 * ts.length + 1 ≤ fuel → Admits front (limits.nesting - depth) (.chain level) →
      Derives (limits.nesting - depth) (.chain level left) us →
        Told (front ++ us) ts (fun n ↦ chainRest wide n depth level left)
          (chainRest limits fuel depth level left ts)
  prefixed {depth : Nat} {front ts : List Token} : 24 * ts.length + 3 ≤ fuel →
    Admits front (limits.nesting - depth) .prefixed →
      Told front ts (fun n ↦ prefixed wide n depth) (prefixed limits fuel depth ts)
  linked {depth : Nat} {front ts : List Token} : 24 * ts.length + 2 ≤ fuel →
    Admits front (limits.nesting - depth) .linked →
      Told front ts (fun n ↦ linked wide n depth) (linked limits fuel depth ts)
  links {depth : Nat} {target : Expr} {front us ts : List Token} : 24 * ts.length + 1 ≤ fuel →
    Admits front (limits.nesting - depth) .linked →
      Derives (limits.nesting - depth) (.linked target) us →
        Told (front ++ us) ts (fun n ↦ links wide n depth target)
          (links limits fuel depth target ts)
  primary {depth : Nat} {front ts : List Token} : 24 * ts.length + 1 ≤ fuel →
    Admits front (limits.nesting - depth) .primary →
      Told front ts (fun n ↦ primary wide n depth) (primary limits fuel depth ts)
  items {depth : Nat} {closing : Delimiter} {front ts : List Token} :
    24 * ts.length + 19 ≤ fuel → closing ≠ .closeBrace →
      Admits front (limits.nesting - depth) .items →
        Told front ts (fun n ↦ items wide n depth closing) (items limits fuel depth closing ts)
  entries {depth : Nat} {before : Token} {front ts : List Token} :
    24 * ts.length + 1 ≤ fuel → front.getLast? = some before → before.precedesKey = true →
      (∀ ms us, Derives (limits.nesting - depth) (.entries ms) us →
        Viable (front ++ us ++ [.delimiter .closeBrace])) →
        Told front ts (fun n ↦ entries wide n depth before)
          (entries limits fuel depth before ts)

/-- What comes behind a test and a question mark. -/
theorem tells_conditional (hl : 0 < limits.height) (hw : limits.Within wide)
    (ih : Tells limits wide fuel) {test : Expr} (hf : 24 * ts.length + 18 ≤ fuel)
    (ha : Admits front (limits.nesting - depth + 1) .expression)
    (dt : Derives (limits.nesting - depth) (.chain .nullish test) us) :
    Told (front ++ us ++ [.operator .question]) ts
      (fun n ts ↦ do
        let (consequent, ts) ← expression wide n depth ts
        let ((), ts) ← take .colon ts
        let (alternate, ts) ← expression wide n depth ts
        bounded wide (.conditional test consequent alternate) ts)
      (do
        let (consequent, ts) ← expression limits fuel depth ts
        let ((), ts) ← take .colon ts
        let (alternate, ts) ← expression limits fuel depth ts
        bounded limits (.conditional test consequent alternate) ts) := by
  have hc : Admits (front ++ us ++ [.operator .question]) (limits.nesting - depth)
      .expression := by
    rw [List.append_assoc]
    refine ha.inside _ fun e cs d ↦ ⟨.conditional test e e, .delimiter .colon :: cs, ?_⟩
    simpa using Derives.conditional dt d d
  refine .bind (ih.expression hf hc) ?_
  rintro consequent cs s hs rfl
  have dc := ((sound hl fuel).expression hs).derives
  dsimp only
  refine told_take_bind (d := .colon) (hc dc) (.inl (by decide)) ?_
  rintro r rfl
  have ha : Admits (front ++ us ++ [.operator .question] ++ cs ++ [.delimiter .colon])
      (limits.nesting - depth) .expression := by
    simp only [List.append_assoc]
    refine ha.inside _ fun e as d ↦ ⟨.conditional test consequent e, [], ?_⟩
    simpa using Derives.conditional dt dc d
  simp only [List.length_append, List.length_cons] at hf
  refine .bind (ih.expression (by omega) ha) ?_
  intro alternate as s _ _
  exact told_bounded hw

theorem tells_expression (hl : 0 < limits.height) (hw : limits.Within wide)
    (ih : Tells limits wide fuel) (hf : 24 * ts.length + 18 ≤ fuel + 1)
    (ha : Admits front (limits.nesting - depth) .expression) :
    Told front ts (fun n ↦ expression wide n depth) (expression limits (fuel + 1) depth ts) := by
  rw [expression]
  split
  · exact .tooDeep _ _
  · next hd =>
    have hd : depth < limits.nesting := by omega
    have hd' : ¬depth ≥ wide.nesting := by
      have := hw.nesting
      omega
    have hchain : 24 * ts.length + (17 - 2 * Level.nullish.rank) ≤ fuel :=
      Nat.le_of_succ_le_succ hf
    rw [Limits.nesting_sub_depth hd] at ha
    refine .succ (fun vs _ n ↦ by rw [expression, if_neg hd']) ?_
    refine .bind (ih.chain hchain fun _ _ d ↦ ha (.plain d)) ?_
    rintro test us s hs rfl
    have dt := ((sound hl fuel).chain hs).derives
    dsimp only
    split
    · next r =>
      simp only [List.length_append, List.length_cons] at hf
      refine .after 0 [.operator .question] (fun _ _ _ ↦ rfl) ?_
      exact tells_conditional hl hw ih (by omega) ha dt
    · next h =>
      refine .pure fun vs n ↦ ?_
      split
      · next heq => exact absurd heq ((alike_ahead s vs).ne_operator h _)
      · rfl

theorem tells_chain (hl : 0 < limits.height) (ih : Tells limits wide fuel)
    (hf : 24 * ts.length + (17 - 2 * level.rank) ≤ fuel + 1)
    (ha : Admits front (limits.nesting - depth) (.chain level)) :
    Told front ts (fun n ↦ chain wide n depth level) (chain limits (fuel + 1) depth level ts) := by
  have hk := level.rank_le
  rw [chain]
  refine .succ (fun vs _ n ↦ by rw [chain]) ?_
  refine .bind (ih.operand (by omega) fun _ _ d ↦ ha (.single d)) ?_
  rintro left us s hs rfl
  rw [List.length_append] at hf
  exact ih.chainRest (by omega) ha (.single ((sound hl fuel).operand hs).derives)

theorem tells_operand (ih : Tells limits wide fuel)
    (hf : 24 * ts.length + (16 - 2 * level.rank) ≤ fuel + 1)
    (ha : Admits front (limits.nesting - depth) (Phrase.operand · level)) :
    Told front ts (fun n ↦ operand wide n depth level)
      (operand limits (fuel + 1) depth level ts) := by
  rw [operand]
  refine .succ (fun vs _ n ↦ by rw [operand]) ?_
  cases level with
  | multiplicative => exact ih.prefixed (by simp only [Level.rank] at hf; omega) ha
  | nullish | or | and | equality | relational | additive =>
    exact ih.chain (by simp only [Level.rank] at hf ⊢; omega) ha

theorem tells_chainRest (hl : 0 < limits.height) (hw : limits.Within wide)
    (ih : Tells limits wide fuel) (hf : 24 * ts.length + 1 ≤ fuel + 1)
    (ha : Admits front (limits.nesting - depth) (.chain level))
    (dl : Derives (limits.nesting - depth) (.chain level left) us) :
    Told (front ++ us) ts (fun n ↦ chainRest wide n depth level left)
      (chainRest limits (fuel + 1) depth level left ts) := by
  unfold chainRest
  split
  · next o r =>
    have hr : 24 * (r.length + 1) + 1 ≤ fuel + 1 := hf
    have hk := level.rank_le
    split
    · next join ho =>
      have hv : Admits (front ++ us ++ [.operator o]) (limits.nesting - depth)
          (Phrase.operand · level) := by
        rw [List.append_assoc]
        exact ha.inside _ fun right vs d ↦ ⟨join left right, [], by simpa using dl.join ho d⟩
      refine .after 1 [.operator o] (fun vs _ n ↦ by
        rw [List.singleton_append, chainRest, ho]) (.bind (ih.operand (by omega) hv) ?_)
      rintro right vs s hs rfl
      have dr := ((sound hl fuel).operand hs).derives
      rw [List.length_append] at hr
      refine told_bounded_bind hw ?_
      simp only [List.append_assoc]
      exact ih.chainRest (by omega) ha (by simpa using dl.join ho dr)
    · next ho => exact .pure fun vs n ↦ by simp [ahead, chainRest, ho]
  · next h =>
    refine .pure fun vs n ↦ ?_
    rw [chainRest]
    exact fun o ↦ (alike_ahead ts vs).ne_operator (h o)

theorem tells_prefixed (hw : limits.Within wide)
    (ih : Tells limits wide fuel) (hf : 24 * ts.length + 3 ≤ fuel + 1)
    (ha : Admits front (limits.nesting - depth) .prefixed) :
    Told front ts (fun n ↦ prefixed wide n depth) (prefixed limits (fuel + 1) depth ts) := by
  have bare (h : ∀ vs n, prefixed wide (n + 1) depth (ahead ts :: vs) =
      linked wide n depth (ahead ts :: vs)) :
      Told front ts (fun n ↦ prefixed wide n depth) (linked limits fuel depth ts) := by
    refine .succ (fun vs hvs n ↦ ?_) (ih.linked (by omega) fun _ _ d ↦ ha (.bare d))
    obtain ⟨vs, rfl⟩ := hvs
    exact h vs n
  unfold prefixed
  split
  · next o r =>
    have hr : 24 * (r.length + 1) + 3 ≤ fuel + 1 := hf
    split
    · next op ho =>
      split
      · exact .tooDeep _ _
      · next hd =>
        have hd : depth < limits.nesting := by omega
        have hd' : ¬depth ≥ wide.nesting := by
          have := hw.nesting
          omega
        obtain rfl := UnaryOp.operator_of_ofOperator? ho
        rw [Limits.nesting_sub_depth hd] at ha
        have hp : Admits (front ++ [.operator op.operator]) (limits.nesting - (depth + 1))
            .prefixed := ha.inside _ fun e vs d ↦ ⟨.unary op e, [], by simpa using .unary op d⟩
        refine .after 1 [.operator op.operator] (fun vs _ n ↦ by
          rw [List.singleton_append, prefixed, ho]
          exact if_neg hd') (.bind (ih.prefixed (by omega) hp) ?_)
        intro operand vs s _ _
        exact told_bounded hw
    · next ho => exact bare fun vs n ↦ by simp [ahead, prefixed, ho]
  · next h =>
    refine bare fun vs n ↦ ?_
    rw [prefixed]
    exact fun o ↦ (alike_ahead ts vs).ne_operator (h o)

theorem tells_linked (hl : 0 < limits.height) (ih : Tells limits wide fuel)
    (hf : 24 * ts.length + 2 ≤ fuel + 1) (ha : Admits front (limits.nesting - depth) .linked) :
    Told front ts (fun n ↦ linked wide n depth) (linked limits (fuel + 1) depth ts) := by
  rw [linked]
  refine .succ (fun vs _ n ↦ by rw [linked]) ?_
  refine .bind (ih.primary (by omega) fun _ _ d ↦ ha (.start d)) ?_
  rintro e us s hs rfl
  rw [List.length_append] at hf
  exact ih.links (by omega) ha (.start ((sound hl fuel).primary hs).derives)

/-- Links behind the name of a property. -/
theorem tells_member (hw : limits.Within wide) (ih : Tells limits wide fuel)
    (hf : 24 * ts.length + 1 ≤ fuel) (ha : Admits front (limits.nesting - depth) .linked)
    (vs : List Token) (join : String → Expr)
    (rule : ∀ name, Derives (limits.nesting - depth) (.linked (join name))
      (us ++ (vs ++ [.identifier name]))) :
    Told (front ++ us ++ vs) ts
      (fun n ts ↦ do
        let (name, r) ← propertyName ts
        let (e, r) ← bounded wide (join name) r
        links wide n depth e r)
      (do
        let (name, r) ← propertyName ts
        let (e, r) ← bounded limits (join name) r
        links limits fuel depth e r) := by
  have hv : Viable (front ++ us ++ vs) := by
    have hv := ha (rule "")
    rw [← List.append_assoc, ← List.append_assoc] at hv
    exact hv.of_append
  refine told_propertyName_bind hv ?_
  rintro name r rfl
  refine told_bounded_bind hw ?_
  simp only [List.append_assoc]
  rw [List.length_cons] at hf
  exact ih.links (by omega) ha (rule name)

/-- Links behind an index. -/
theorem tells_index (hl : 0 < limits.height) (hw : limits.Within wide) (ih : Tells limits wide fuel)
    (hf : 24 * ts.length + 18 ≤ fuel) (ha : Admits front (limits.nesting - depth) .linked)
    (vs : List Token) (join : Expr → Expr)
    (rule : ∀ e ws, Derives (limits.nesting - depth) (.expression e) ws →
      Derives (limits.nesting - depth) (.linked (join e))
        (us ++ (vs ++ (ws ++ [.delimiter .closeBracket])))) :
    Told (front ++ us ++ vs) ts
      (fun n ts ↦ do
        let (position, r) ← expression wide n depth ts
        let ((), r) ← take .closeBracket r
        let (e, r) ← bounded wide (join position) r
        links wide n depth e r)
      (do
        let (position, r) ← expression limits fuel depth ts
        let ((), r) ← take .closeBracket r
        let (e, r) ← bounded limits (join position) r
        links limits fuel depth e r) := by
  have he : Admits (front ++ us ++ vs) (limits.nesting - depth) .expression := by
    rw [List.append_assoc]
    exact ha.inside _ fun e ws d ↦ ⟨join e, [.delimiter .closeBracket], by
      simpa using rule e ws d⟩
  refine .bind (ih.expression hf he) ?_
  rintro position ws s hs rfl
  have dp := ((sound hl fuel).expression hs).derives
  dsimp only
  refine told_take_bind (d := .closeBracket) (he dp) (.inl (by decide)) ?_
  rintro r rfl
  dsimp only
  refine told_bounded_bind hw ?_
  simp only [List.append_assoc]
  simp only [List.length_append, List.length_cons] at hf
  exact ih.links (by omega) ha (by simpa using rule position ws dp)

/-- Links behind a call. -/
theorem tells_call (hl : 0 < limits.height) (hw : limits.Within wide) (ih : Tells limits wide fuel)
    (hf : 24 * ts.length + 19 ≤ fuel) (ha : Admits front (limits.nesting - depth) .linked)
    (vs : List Token) (join : List Expr → Expr)
    (rule : ∀ es ws, Derives (limits.nesting - depth) (.items es) ws →
      Derives (limits.nesting - depth) (.linked (join es))
        (us ++ (vs ++ (ws ++ [.delimiter .closeParen])))) :
    Told (front ++ us ++ vs) ts
      (fun n ts ↦ do
        let (arguments, r) ← items wide n depth .closeParen ts
        let (e, r) ← bounded wide (join arguments) r
        links wide n depth e r)
      (do
        let (arguments, r) ← items limits fuel depth .closeParen ts
        let (e, r) ← bounded limits (join arguments) r
        links limits fuel depth e r) := by
  have hs : Admits (front ++ us ++ vs) (limits.nesting - depth) .items := by
    rw [List.append_assoc]
    exact ha.inside _ fun es ws d ↦ ⟨join es, [.delimiter .closeParen], by
      simpa using rule es ws d⟩
  refine .bind (ih.items hf (by decide) hs) ?_
  rintro arguments ws s hread rfl
  obtain ⟨ws', hws, ds, -⟩ := (sound hl fuel).items hread
  have hws : ws ++ s = (ws' ++ [.delimiter .closeParen]) ++ s := by simpa using hws
  rw [List.append_cancel_right hws]
  refine told_bounded_bind hw ?_
  simp only [List.append_assoc]
  simp only [List.length_append] at hf
  exact ih.links (by omega) ha (by simpa using rule arguments ws' ds)

theorem tells_links (hl : 0 < limits.height) (hw : limits.Within wide)
    (ih : Tells limits wide fuel) (hf : 24 * ts.length + 1 ≤ fuel + 1)
    (ha : Admits front (limits.nesting - depth) .linked)
    (dt : Derives (limits.nesting - depth) (.linked target) us) :
    Told (front ++ us) ts (fun n ↦ links wide n depth target)
      (links limits (fuel + 1) depth target ts) := by
  unfold links
  split
  · refine .after 1 [.operator .dot] (fun vs _ n ↦ by rw [List.singleton_append, links]) ?_
    exact tells_member hw ih (by grind) ha _ (.member target · false) fun name ↦ .member name dt
  · refine .after 1 [.operator .optionalDot, .delimiter .openBracket] (fun vs _ n ↦ by
      rw [List.cons_append, List.singleton_append, links]) ?_
    exact tells_index hl hw ih (by grind) ha _ (.index target · true)
      fun e ws d ↦ .optionalIndex dt d
  · refine .after 1 [.operator .optionalDot, .delimiter .openParen] (fun vs _ n ↦ by
      rw [List.cons_append, List.singleton_append, links]) ?_
    exact tells_call hl hw ih (by grind) ha _ (.call target · true)
      fun es ws d ↦ .optionalCall dt d
  · next r hindex hcall =>
    refine .after 1 [.operator .optionalDot] (fun vs hvs n ↦ by
      rw [List.singleton_append, links]
      · exact hvs.ne_delimiter (by decide) hindex
      · exact hvs.ne_delimiter (by decide) hcall) ?_
    exact tells_member hw ih (by grind) ha _ (.member target · true)
      fun name ↦ .optionalMember name dt
  · refine .after 1 [.delimiter .openBracket] (fun vs _ n ↦ by
      rw [List.singleton_append, links]) ?_
    exact tells_index hl hw ih (by grind) ha _ (.index target · false) fun e ws d ↦ .index dt d
  · refine .after 1 [.delimiter .openParen] (fun vs _ n ↦ by
      rw [List.singleton_append, links]) ?_
    exact tells_call hl hw ih (by grind) ha _ (.call target · false) fun es ws d ↦ .call dt d
  · next hdot _ _ hoptional hindex hcall =>
    refine .pure fun vs n ↦ ?_
    have hvs := alike_ahead ts vs
    rw [links]
    · exact hvs.ne_operator hdot
    · exact fun _ ↦ hvs.ne_operator hoptional _
    · exact fun _ ↦ hvs.ne_operator hoptional _
    · exact hvs.ne_operator hoptional
    · exact hvs.ne_delimiter (by decide) hindex
    · exact hvs.ne_delimiter (by decide) hcall

theorem tells_primary (hl : 0 < limits.height) (hw : limits.Within wide)
    (ih : Tells limits wide fuel) (hf : 24 * ts.length + 1 ≤ fuel + 1)
    (ha : Admits front (limits.nesting - depth) .primary) :
    Told front ts (fun n ↦ primary wide n depth) (primary limits (fuel + 1) depth ts) := by
  have hv : Viable front := ha.viable .null
  cases ts with
  | nil =>
    rw [primary]
    exact .stop hv fun _ _ ↦ ⟨_, by unfold primary; rfl⟩
  | cons t r =>
    have hr : 24 * (r.length + 1) + 1 ≤ fuel + 1 := hf
    unfold primary
    cases t with
    | number x =>
      exact .after 1 [.number x] (fun _ _ _ ↦ by rw [List.singleton_append, primary])
        (.pure fun _ _ ↦ rfl)
    | string text =>
      exact .after 1 [.string text] (fun _ _ _ ↦ by rw [List.singleton_append, primary])
        (.pure fun _ _ ↦ rfl)
    | identifier name =>
      exact .after 1 [.identifier name] (fun _ _ _ ↦ by rw [List.singleton_append, primary])
        (.pure fun _ _ ↦ rfl)
    | operator o => exact .stop hv fun _ _ ↦ ⟨_, by unfold primary; rfl⟩
    | delimiter d =>
      cases d with
      | openParen =>
        have he : Admits (front ++ [.delimiter .openParen]) (limits.nesting - depth) .expression :=
          ha.inside _ fun e us d ↦ ⟨e, [.delimiter .closeParen], .group d⟩
        refine .after 1 [.delimiter .openParen] (fun vs _ n ↦ by
          rw [List.singleton_append, primary]) (.bind (ih.expression (by omega) he) ?_)
        rintro e us s hs rfl
        refine told_take_bind (d := .closeParen) ?_ (.inl (by decide)) fun r _ ↦
          .pure fun _ _ ↦ rfl
        exact he ((sound hl fuel).expression hs).derives
      | openBracket =>
        have hs : Admits (front ++ [.delimiter .openBracket]) (limits.nesting - depth) .items :=
          ha.inside _ fun es us d ↦ ⟨.array es, [.delimiter .closeBracket], .array d⟩
        refine .after 1 [.delimiter .openBracket] (fun vs _ n ↦ by
          rw [List.singleton_append, primary]) (.bind (ih.items (by omega) (by decide) hs) ?_)
        intro es us s _ _
        exact told_bounded hw
      | openBrace =>
        have hs (ms : List (String × Expr)) (us : List Token)
            (d : Derives (limits.nesting - depth) (.entries ms) us) :
            Viable (front ++ [.delimiter .openBrace] ++ us ++ [.delimiter .closeBrace]) := by
          simpa using ha (.object d)
        refine .after 1 [.delimiter .openBrace] (fun vs _ n ↦ by
          rw [List.singleton_append, primary])
          (.bind (ih.entries (by omega) List.getLast?_concat rfl hs) ?_)
        intro ms us s _ _
        exact told_bounded hw
      | closeParen | closeBracket | closeBrace | comma | colon =>
        exact .stop hv fun _ _ ↦ ⟨_, by unfold primary; rfl⟩

theorem tells_items (hl : 0 < limits.height) (ih : Tells limits wide fuel) {closing : Delimiter}
    (hf : 24 * ts.length + 19 ≤ fuel + 1) (hc : closing ≠ .closeBrace)
    (ha : Admits front (limits.nesting - depth) .items) :
    Told front ts (fun n ↦ items wide n depth closing)
      (items limits (fuel + 1) depth closing ts) := by
  by_cases hts : ∃ r, ts = .delimiter closing :: r
  · obtain ⟨r, rfl⟩ := hts
    have step (limits : Limits) (n : Nat) (r : List Token) :
        items limits (n + 1) depth closing (.delimiter closing :: r) = .ok ([], r) := by
      rw [items, take_delimiter]
    rw [step]
    exact .after 1 [.delimiter closing] (fun vs _ n ↦ step wide n vs) (.pure fun _ _ ↦ rfl)
  · have hts (r : List Token) : ts ≠ .delimiter closing :: r := fun h ↦ hts ⟨r, h⟩
    have step (limits : Limits) (n : Nat) {us : List Token}
        (h : ∀ r, us ≠ .delimiter closing :: r) :
        items limits (n + 1) depth closing us = expression limits n depth us >>= fun x ↦
          separated closing (items limits n depth closing) x.1 x.2 := by
      rw [items, take_eq_error h]
      rfl
    have he : Admits front (limits.nesting - depth) .expression := fun _ _ d ↦ ha (.lastItem d)
    rw [step limits fuel hts]
    refine .succ (fun vs hvs n ↦ step wide n (hvs.ne_delimiter hc hts))
      (.bind (ih.expression (by omega) he) ?_)
    rintro e us s hs rfl
    have d := ((sound hl fuel).expression hs).derives
    refine told_separated (he d) (.inl hc) ?_
    rintro r rfl
    have hr : Admits (front ++ us ++ [.delimiter .comma]) (limits.nesting - depth) .items := by
      rw [List.append_assoc]
      exact ha.inside _ fun es vs ds ↦ ⟨e :: es, [], by simpa using Derives.moreItems d ds⟩
    simp only [List.length_append, List.length_cons] at hf
    exact ih.items (by omega) hc hr

/-- What comes behind the name of an entry. -/
theorem tells_entry (hl : 0 < limits.height) (ih : Tells limits wide fuel) {t : Token} {k : String}
    (hk : t.Names k) (hf : 24 * ts.length + 1 ≤ fuel)
    (ha : ∀ ms us, Derives (limits.nesting - depth) (.entries ms) us →
      Viable (front ++ us ++ [.delimiter .closeBrace])) :
    Told (front ++ [t]) ts
      (fun n ts ↦ do
        let (e, r) ← entryValue (expression wide n depth) k ts
        separated .closeBrace (entries wide n depth (.delimiter .comma)) (k, e) r)
      (do
        let (e, r) ← entryValue (expression limits fuel depth) k ts
        separated .closeBrace (entries limits fuel depth (.delimiter .comma)) (k, e) r) := by
  have he : Admits (front ++ [t] ++ [.delimiter .colon]) (limits.nesting - depth) .expression := by
    intro e us d
    have hm := ha [(k, e)] _ (.lastEntry (.full hk d))
    simpa using hm.of_append
  refine .bind (told_entryValue fun r h ↦ ih.expression (by grind) he) ?_
  rintro e us s hs rfl
  have d : Derives (limits.nesting - depth) (.entry k e) (t :: us) :=
    (sound_entry hl (sound hl fuel) hk hs).derives
  have hone : Viable (front ++ [t] ++ us) := by
    have hm := ha [(k, e)] _ (.lastEntry d)
    simpa using hm.of_append
  have hend : Settled (front ++ [t] ++ us) := by
    simpa using d.settled_entry.append front
  refine told_separated hone (.inr hend) ?_
  rintro r rfl
  rw [List.length_append, List.length_cons] at hf
  refine ih.entries (by omega) List.getLast?_concat rfl fun ms vs ds ↦ ?_
  simpa using ha ((k, e) :: ms) _ (.moreEntries d ds)

theorem tells_entries (hl : 0 < limits.height) (ih : Tells limits wide fuel) {before : Token}
    (hf : 24 * ts.length + 1 ≤ fuel + 1) (hlast : front.getLast? = some before)
    (hb : before.precedesKey = true)
    (ha : ∀ ms us, Derives (limits.nesting - depth) (.entries ms) us →
      Viable (front ++ us ++ [.delimiter .closeBrace])) :
    Told front ts (fun n ↦ entries wide n depth before)
      (entries limits (fuel + 1) depth before ts) := by
  have hv : Viable (front ++ [.delimiter .closeBrace]) := by simpa using ha [] [] .noEntries
  cases ts with
  | nil =>
    rw [entries]
    exact .noKey (by rwa [List.append_nil]) hb (by rwa [List.append_nil])
  | cons t r =>
    rw [entries]
    split
    · next ht =>
      subst ht
      exact .after 1 [.delimiter .closeBrace] (fun _ _ _ ↦ by
        rw [List.singleton_append, entries, if_pos rfl]) (.pure fun _ _ ↦ rfl)
    · next ht =>
      cases hk : key? t with
      | none =>
        have step (vs : List Token) (n : Nat) : entries wide (n + 1) depth before (t :: vs) =
            expected "a property name" (t :: vs) := by
          rw [entries, if_neg ht, hk]
        exact .stop hv.of_append fun vs n ↦ ⟨_, step vs n⟩
      | some k =>
        rw [List.length_cons] at hf
        refine .after 1 [t] (fun vs _ n ↦ by
          rw [List.singleton_append, entries, if_neg ht, hk]) ?_
        exact tells_entry hl ih (key?_eq_some_iff.mp hk) (by omega) ha

/-! ## All functions together -/

theorem tells (hl : 0 < limits.height) (hw : limits.Within wide) : ∀ fuel, Tells limits wide fuel
  | 0 => by
    constructor
    case chain | operand =>
      intro _ level _ _ h
      have := level.rank_le
      omega
    all_goals
      intros
      omega
  | fuel + 1 =>
    have ih := tells hl hw fuel
    { expression := tells_expression hl hw ih
      chain := tells_chain hl ih
      operand := tells_operand ih
      chainRest := tells_chainRest hl hw ih
      prefixed := tells_prefixed hw ih
      linked := tells_linked hl ih
      links := tells_links hl hw ih
      primary := tells_primary hl hw ih
      items := tells_items hl ih
      entries := tells_entries hl ih }

/-- What is read to its end is read with any fuel that is enough. -/
theorem eventually_of_ofTokens (hl : 0 < wide.height) (h : ofTokens wide ts = .ok e) :
    ∀ᶠ n in atTop, expression wide n 0 ts = .ok (e, []) := by
  obtain ⟨d, hh⟩ := derives_of_ofTokens hl h
  rw [eventually_atTop]
  refine ⟨24 * ts.length + 18, fun n hn ↦ ?_⟩
  have hf : Fits wide n 0 wide.nesting (.expression e) ts :=
    ⟨Nat.le_refl _, hh, (by omega : 24 * ts.length + 18 ≤ n + 24)⟩
  simpa using reads_of_derives d hf (r := []) trivial

/-- Why a whole sequence of tokens is rejected, within wider limits as well. -/
theorem offence_of_ofTokens (hw : Limits.standard.Within wide) {x : Reject}
    (h : ofTokens .standard ts = .error x) :
    Offence [] ts (fun vs ↦ ∀ e, ofTokens wide vs ≠ .ok e) x := by
  have hl : 0 < Limits.standard.height := by decide
  have hl' : 0 < wide.height := Nat.lt_of_lt_of_le hl hw.height
  have hf : 24 * ts.length + 18 ≤ enough ts.length := by
    rw [enough]
    omega
  have told : Told [] ts (fun n ↦ expression wide n 0)
      (expression .standard (enough ts.length) 0 ts) :=
    (tells hl hw _).expression hf fun _ _ d ↦ d.viable
  unfold ofTokens at h
  cases hx : expression .standard (enough ts.length) 0 ts with
  | error x =>
    rw [hx] at h told
    cases h
    refine Offence.mono told fun vs hbad e he ↦ ?_
    obtain ⟨n, ⟨x, hbad⟩, hok⟩ := (hbad.and (eventually_of_ofTokens hl' he)).exists
    cases hbad.symm.trans hok
  | ok read =>
    obtain ⟨e, s⟩ := read
    rw [hx] at h told
    obtain ⟨us, rfl, hread⟩ := told
    cases s with
    | nil => cases h
    | cons t r =>
      cases h
      refine .stuck rfl ((sound hl _).expression hx).derives.viable (.inr fun vs hvs e' he ↦ ?_)
      obtain ⟨n, hread, hok⟩ := ((hread vs hvs).and (eventually_of_ofTokens hl' he)).exists
      obtain ⟨_, rfl⟩ := hvs
      cases hread.symm.trans hok

/-- Tokens that are rejected, but not on account of the limits, are viable up to where reading
stops, and no further; except where they end in front of an entry of an object: there reading stops
at the last one. -/
theorem rest_of_ofTokens {cause : SyntaxCause} {rest : List Token}
    (h : ofTokens .standard ts = .error ⟨cause, rest⟩) (hc : ∀ limit, cause ≠ .tooDeep limit) :
    ∃ us, ts = us ++ rest ∧ Viable us ∧ (AwaitsKey ts → ∃ t, rest = [t]) ∧
      (¬AwaitsKey ts → ∀ t r, rest = t :: r → ¬Viable (us ++ [t])) := by
  obtain ⟨us, hts, hv⟩ : ∃ us, ts = us ++ rest ∧ Viable us := by
    cases offence_of_ofTokens ⟨Nat.le_refl _, Nat.le_refl _⟩ h with
    | tooDeep limit => exact absurd rfl (hc limit)
    | noKey hlast _ hv =>
      obtain ⟨us, rfl⟩ := List.getLast?_eq_some_iff.mp hlast
      have hv : Viable (us ++ [_]) := hv.of_append
      exact ⟨us, rfl, hv.of_append⟩
    | stuck hts hv => exact ⟨_, hts, hv⟩
  refine ⟨us, hts, hv, ?_, ?_⟩
  · intro ha
    obtain ⟨more, wide, e, hw, he⟩ := ha.2
    cases offence_of_ofTokens hw h with
    | tooDeep limit => exact absurd rfl (hc limit)
    | noKey => exact ⟨_, rfl⟩
    | @stuck _ us _ hts _ hbad =>
      rcases hbad with ⟨rfl, hs⟩ | hbad
      · rw [List.append_nil] at hts
        exact absurd ha (hts ▸ hs.not_awaitsKey)
      · refine absurd ?_ (hbad _ (alike_append rest more) e)
        rw [← he, hts]
        simp
  · rintro ha t r rfl ⟨more, wide, e, hw, he⟩
    cases offence_of_ofTokens hw h with
    | tooDeep limit => exact absurd rfl (hc limit)
    | noKey hlast ht hv => exact ha ⟨⟨_, hlast, ht⟩, hv⟩
    | @stuck _ us' _ hts' _ hbad =>
      obtain rfl := List.append_cancel_right (hts.symm.trans hts')
      rcases hbad with ⟨hnil, -⟩ | hbad
      · cases hnil
      · refine hbad (t :: more) ⟨more, rfl⟩ e ?_
        rw [← he]
        simp

end Expr

end LivePage
