import Mathlib
import LivePage.Proofs.Expr.Entry
import LivePage.Proofs.Expr.Observation

/-!
# Shorthand entries of objects

With a full entry in place of a shorthand one, what is derived is derived again, inside of one
expression more, from the same tree but for one entry.  This entry is the name in both, unless the
name is one of the words that stand for a value, which are read to that value behind a colon and are
looked up by themselves.  So an entry means what it is short for, unless it is a word, and one that
is a word means it where the scope keeps the word.
-/

namespace LivePage

namespace Expr

open Token

variable {k : String} {n : Nat} {stack : List Delimiter} {lead : Bool} {t : Token}
  {ts us vs before after : List Token}

/-! ## Trees that differ in the value of one entry -/

/-- The scope gives a word the value that the word stands for.  Other names are no words, and
nothing is asked of them. -/
def KeepsWord (env : Env) (k : String) : Prop :=
  ∀ v, ofName k = .literal v → env.scope.get? k = some v

variable {α β γ δ : Type} {env : Env}

/-- Parts of expressions that are as high as one another, and the same unless `k` is a word.  In
every environment that keeps the word they have the same value. -/
structure Same (k : String) (height : α → Nat) (value : Env → α → β) (a a' : α) : Prop where
  height_eq : height a' = height a
  eq : ofName k = .identifier k → a' = a
  value_eq : ∀ env, KeepsWord env k → value env a' = value env a

/-- Parts of larger parts. -/
theorem Same.map {height : α → Nat} {value : Env → α → β} {height' : γ → Nat}
    {value' : Env → γ → δ} {a a' : α} (h : Same k height value a a') (f : α → γ)
    (hv : ∀ {env a a'}, value env a' = value env a → value' env (f a') = value' env (f a))
    (hh : ∀ {a a'}, height a' = height a → height' (f a') = height' (f a) := by
      intro _ _ h
      simp only [Expr.height, heightOfItems, heightOfEntries, h]) :
    Same k height' value' (f a) (f a') where
  height_eq := hh h.height_eq
  eq hk := congrArg f (h.eq hk)
  value_eq env hw := hv (h.value_eq env hw)

theorem Same.reached {e e' : Expr} (h : Same k height observed e e') : Same k height reach e e' :=
  h.map id reach_eq_of_observed id

/-- A name is read as a word with a value, or as itself. -/
theorem ofName_eq_literal_or (k : String) :
    (∃ v, ofName k = .literal v) ∨ ofName k = .identifier k := by
  unfold ofName
  split_ifs
  · exact .inl ⟨_, rfl⟩
  · exact .inl ⟨_, rfl⟩
  · exact .inl ⟨_, rfl⟩
  · exact .inr rfl

theorem same_ofName (k : String) : Same k height reach (.identifier k) (ofName k) where
  height_eq := height_ofName k
  eq := id
  value_eq env hw := by
    rcases ofName_eq_literal_or k with ⟨v, hv⟩ | hk
    · rw [hv, reach, reach, hw v hv]
    · rw [hk]

/-- A full entry is read to the entry of its name. -/
theorem derives_full (n : Nat) (k : String) : Derives (n + 1) (.entry k (ofName k))
    [.identifier k, .delimiter .colon, .identifier k] :=
  .full (.identifier k) (.plain ((Derives.bare (.start (derives_ofName n k))).chain .nullish))

/-! ## Full entries in place of shorthand ones -/

/-- Where `place` holds of what is in front, the tokens `ts` with a full entry in place of a
shorthand one `k` are derived as well, from what is the same as `a`. -/
def Yields (k : String) (n : Nat) (ts : List Token) (place : List Delimiter → Bool → Prop)
    (p : α → Phrase) (same : α → α → Prop) (a : α) : Prop :=
  ∀ ⦃stack lead us⦄, place stack lead → Expands k stack lead ts us →
    ∃ a', Derives (n + 1) (p a') us ∧ same a a'

/-- The tokens of a phrase with a full entry in place of a shorthand one are derived from a phrase
that is the same. -/
def Fills (k : String) (n : Nat) (ts : List Token) : Phrase → Prop
  | .expression e => Yields k n ts NoKeyNext .expression (Same k height observed) e
  | .chain level e => Yields k n ts NoKeyNext (.chain level) (Same k height observed) e
  | .prefixed e => Yields k n ts NoKeyNext .prefixed (Same k height observed) e
  | .linked e => Yields k n ts NoKeyNext .linked (Same k height observed) e
  | .primary e => Yields k n ts NoKeyNext .primary (Same k height observed) e
  | .items es => Yields k n ts (fun stack _ ↦ stack.head? ≠ some .openBrace) .items
      (Same k heightOfItems evalItems) es
  | .entry key e => Yields k n ts (fun _ _ ↦ True) (.entry key) (Same k height reach) e
  | .entries ms => Yields k n ts (fun _ _ ↦ True) .entries
      (Same k heightOfEntries evalEntries) ms

variable {e left right target : Expr} {level : Level}

theorem fills_operand : Fills k n ts (.operand e level) ↔
    Yields k n ts NoKeyNext (Phrase.operand · level) (Same k height observed) e := by
  cases level <;> exact Iff.rfl

theorem noKeyNext_of_not_lead (stack : List Delimiter) : NoKeyNext stack false := nofun

/-! ## One phrase inside of another -/

namespace Yields

variable {place place' : List Delimiter → Bool → Prop} {p : α → Phrase} {q : γ → Phrase}
  {same : α → α → Prop} {same' : γ → γ → Prop} {a : α} {m : Nat}

theorem token (t : Token) : Yields k n [t] NoKeyNext p same a := by
  intro stack lead us hp hx
  obtain ⟨_, hx, -⟩ := hx.tail (.inr hp)
  exact absurd rfl hx.ne_nil

theorem nil : Yields k n [] place p same a := by
  intro stack lead us _ hx
  exact absurd rfl hx.ne_nil

/-- Tokens of a phrase that are those of another one. -/
theorem map (h : Yields k n ts place p same a) (f : α → γ)
    (rule : ∀ {a us}, Derives (n + 1) (p a) us → Derives (m + 1) (q (f a)) us)
    (hsame : ∀ {a'}, same a a' → same' (f a) (f a'))
    (hplace : ∀ {stack lead}, place' stack lead → place stack lead) :
    Yields k m ts place' q same' (f a) := by
  intro stack lead us hp hx
  obtain ⟨a', d, hs⟩ := h (hplace hp) hx
  exact ⟨f a', rule d, hsame hs⟩

/-- Tokens of a phrase between brackets. -/
theorem enclose {opening closing : Delimiter} (h : Yields k n ts place p same a) (f : α → γ)
    (rule : ∀ {a us}, Derives (n + 1) (p a) us →
      Derives (m + 1) (q (f a)) (.delimiter opening :: (us ++ [.delimiter closing])))
    (hsame : ∀ {a'}, same a a' → same' (f a) (f a'))
    (hplace : ∀ {stack}, place ((Token.delimiter opening).nest stack)
      (Token.delimiter opening).precedesKey) :
    Yields k m (.delimiter opening :: (ts ++ [.delimiter closing])) place' q same' (f a) := by
  intro stack lead us _ hx
  obtain ⟨us, hy, rfl⟩ := hx.tail (.inl delimiter_ne_identifier)
  obtain ⟨us, hz, rfl⟩ := hy.init delimiter_ne_identifier
  obtain ⟨a', d, hs⟩ := h hplace hz
  exact ⟨f a', rule d, hsame hs⟩

end Yields

/-! ## Operands -/

theorem observed_join {env : Env} {o : Operator} {join : Expr → Expr → Expr}
    {left' right' : Expr} (ho : level.join? o = some join)
    (hl : reach env left' = reach env left) (hr : reach env right' = reach env right) :
    observed env (join left' right') = observed env (join left right) := by
  rcases Level.join?_eq_some ho with ⟨op, rfl, -, -⟩ | ⟨op, rfl, -, -⟩
  · exact observed_binary hl hr op
  · exact observed_logical hl hr op

theorem fills_join {o : Operator} {join : Expr → Expr → Expr} (ho : level.join? o = some join)
    (dl : Derives n (.chain level left) ts) (dr : Derives n (.operand right level) us)
    (hl : Fills k n ts (.chain level left)) (hr : Fills k n us (.operand right level)) :
    Fills k n (ts ++ .operator o :: us) (.chain level (join left right)) := by
  intro stack lead vs hp hx
  rcases hx.split operator_ne_identifier (dl.foldl_nest _) with ⟨ts', hy, rfl⟩ | ⟨us', hy, rfl⟩
  · obtain ⟨e, d, hs⟩ := hl hp hy
    refine ⟨join e right, .join ho d dr.succ, hs.map (join · right)
      (fun h ↦ observed_join ho (reach_eq_of_observed h) rfl) fun h ↦ ?_⟩
    rw [height_join ho, height_join ho, h]
  · obtain ⟨e, d, hs⟩ := fills_operand.mp hr (noKeyNext_of_not_lead _) hy
    refine ⟨join left e, .join ho dl.succ d, hs.map (join left)
      (fun h ↦ observed_join ho rfl (reach_eq_of_observed h)) fun h ↦ ?_⟩
    rw [height_join ho, height_join ho, h]

theorem fills_conditional {test consequent alternate : Expr} {vs : List Token}
    (dt : Derives n (.chain .nullish test) ts) (dc : Derives n (.expression consequent) us)
    (da : Derives n (.expression alternate) vs) (ht : Fills k n ts (.chain .nullish test))
    (hc : Fills k n us (.expression consequent)) (ha : Fills k n vs (.expression alternate)) :
    Fills k (n + 1) (ts ++ .operator .question :: (us ++ .delimiter .colon :: vs))
      (.expression (.conditional test consequent alternate)) := by
  intro stack lead ws hp hx
  rcases hx.split operator_ne_identifier (dt.foldl_nest _) with ⟨ts', hy, rfl⟩ | ⟨_, hy, rfl⟩
  · obtain ⟨e, d, hs⟩ := ht hp hy
    exact ⟨.conditional e consequent alternate, .conditional d dc.succ da.succ,
      hs.map (conditional · consequent alternate)
        fun h ↦ observed_conditional (reach_eq_of_observed h) rfl rfl⟩
  rcases hy.split delimiter_ne_identifier (dc.foldl_nest _) with ⟨us', hz, rfl⟩ | ⟨vs', hz, rfl⟩
  · obtain ⟨e, d, hs⟩ := hc (noKeyNext_of_not_lead _) hz
    exact ⟨.conditional test e alternate, .conditional dt.succ d da.succ,
      hs.map (conditional test · alternate)
        fun h ↦ observed_conditional rfl (reach_eq_of_observed h) rfl⟩
  · obtain ⟨e, d, hs⟩ := ha (noKeyNext_of_not_lead _) hz
    exact ⟨.conditional test consequent e, .conditional dt.succ dc.succ d,
      hs.map (conditional test consequent)
        fun h ↦ observed_conditional rfl rfl (reach_eq_of_observed h)⟩

theorem fills_single (h : Fills k n ts (.operand e level)) : Fills k n ts (.chain level e) :=
  Yields.map (fills_operand.mp h) id .single id id

theorem fills_unary (op : UnaryOp) (h : Fills k n ts (.prefixed e)) :
    Fills k (n + 1) (.operator op.operator :: ts) (.prefixed (.unary op e)) := by
  intro stack lead us _ hx
  obtain ⟨us, hy, rfl⟩ := hx.tail (.inl operator_ne_identifier)
  obtain ⟨e', d, hs⟩ := h (noKeyNext_of_not_lead _) hy
  exact ⟨.unary op e', .unary op d,
    hs.map (unary op) fun h ↦ observed_unary op (reach_eq_of_observed h)⟩

/-! ## Links -/

theorem derives_member {o : Operator} {optional : Bool} (name : String)
    (ho : o = if optional then .optionalDot else .dot) (h : Derives n (.linked e) ts) :
    Derives n (.linked (.member e name optional)) (ts ++ [.operator o, .identifier name]) := by
  cases optional <;> subst ho
  · exact .member name h
  · exact .optionalMember name h

theorem fills_member {o : Operator} (optional : Bool) (name : String)
    (ho : o = if optional then .optionalDot else .dot) (dt : Derives n (.linked e) ts)
    (h : Fills k n ts (.linked e)) :
    Fills k n (ts ++ [.operator o, .identifier name]) (.linked (.member e name optional)) := by
  intro stack lead us hp hx
  rcases hx.split operator_ne_identifier (dt.foldl_nest _) with ⟨ts', hy, rfl⟩ | ⟨us', hy, -⟩
  · obtain ⟨e', d, hs⟩ := h hp hy
    exact ⟨.member e' name optional, derives_member name ho d,
      hs.map (member · name optional) fun h ↦ observed_member h name optional⟩
  · obtain ⟨_, hz, -⟩ := hy.tail (.inr (noKeyNext_of_not_lead _))
    exact absurd rfl hz.ne_nil

theorem derives_index {position : Expr} {optional : Bool} (h : Derives n (.linked e) ts)
    (hp : Derives n (.expression position) us) :
    Derives n (.linked (.index e position optional))
      (ts ++ (opening optional .openBracket ++ (us ++ [.delimiter .closeBracket]))) := by
  cases optional
  · exact .index h hp
  · exact .optionalIndex h hp

theorem fills_index {position : Expr} (optional : Bool) (dt : Derives n (.linked e) ts)
    (du : Derives n (.expression position) us) (h : Fills k n ts (.linked e))
    (hi : Fills k n us (.expression position)) :
    Fills k n (ts ++ (opening optional .openBracket ++ (us ++ [.delimiter .closeBracket])))
      (.linked (.index e position optional)) := by
  intro stack lead vs hp hx
  rcases hx.split_opening (dt.foldl_nest stack) with ⟨ts', hy, rfl⟩ | ⟨_, hy, rfl⟩
  · obtain ⟨e', d, hs⟩ := h hp hy
    exact ⟨.index e' position optional, derives_index d du.succ,
      hs.map (index · position optional)
        fun h ↦ observed_index (reach_eq_of_observed h) rfl optional⟩
  · obtain ⟨us', hz, rfl⟩ := hy.init delimiter_ne_identifier
    obtain ⟨e', d, hs⟩ := hi (noKeyNext_of_not_lead _) hz
    exact ⟨.index e e' optional, derives_index dt.succ d,
      hs.map (index e · optional) fun h ↦ observed_index rfl (reach_eq_of_observed h) optional⟩

theorem derives_call {arguments : List Expr} {optional : Bool} (h : Derives n (.linked e) ts)
    (ha : Derives n (.items arguments) us) :
    Derives n (.linked (.call e arguments optional))
      (ts ++ (opening optional .openParen ++ (us ++ [.delimiter .closeParen]))) := by
  cases optional
  · exact .call h ha
  · exact .optionalCall h ha

theorem fills_call {arguments : List Expr} (optional : Bool) (dt : Derives n (.linked e) ts)
    (du : Derives n (.items arguments) us) (h : Fills k n ts (.linked e))
    (ha : Fills k n us (.items arguments)) :
    Fills k n (ts ++ (opening optional .openParen ++ (us ++ [.delimiter .closeParen])))
      (.linked (.call e arguments optional)) := by
  intro stack lead vs hp hx
  rcases hx.split_opening (dt.foldl_nest stack) with ⟨ts', hy, rfl⟩ | ⟨_, hy, rfl⟩
  · obtain ⟨e', d, hs⟩ := h hp hy
    exact ⟨.call e' arguments optional, derives_call d du.succ,
      hs.map (call · arguments optional) fun h ↦ observed_call h rfl optional⟩
  · obtain ⟨us', hz, rfl⟩ := hy.init delimiter_ne_identifier
    have hn : (Delimiter.openParen :: stack).head? ≠ some .openBrace := by simp
    obtain ⟨es, d, hs⟩ := ha hn hz
    exact ⟨.call e es optional, derives_call dt.succ d,
      hs.map (call e · optional) fun h ↦ observed_call rfl h optional⟩

/-! ## Lists and objects -/

theorem fills_moreItems {es : List Expr} (dt : Derives n (.expression e) ts)
    (du : Derives n (.items es) us) (h : Fills k n ts (.expression e))
    (hs : Fills k n us (.items es)) :
    Fills k n (ts ++ .delimiter .comma :: us) (.items (e :: es)) := by
  intro stack lead vs hp hx
  rcases hx.split delimiter_ne_identifier (dt.foldl_nest _) with ⟨ts', hy, rfl⟩ | ⟨us', hy, rfl⟩
  · obtain ⟨e', d, hs⟩ := h (fun _ ↦ hp) hy
    exact ⟨e' :: es, .moreItems d du.succ,
      hs.map (· :: es) fun h ↦ evalItems_congr_cons (reach_eq_of_observed h) rfl⟩
  · obtain ⟨es', d, hs⟩ := hs hp hy
    exact ⟨e :: es', .moreItems dt.succ d, hs.map (e :: ·) fun h ↦ evalItems_congr_cons rfl h⟩

theorem fills_full {key : String} (hk : t.Names key) (h : Fills k n ts (.expression e)) :
    Fills k n (t :: .delimiter .colon :: ts) (.entry key e) := by
  intro stack lead us _ hx
  cases hx with
  -- the colon behind the key tells a full entry from a shorthand one
  | here hr => exact absurd rfl hr
  | there hy =>
    obtain ⟨us, hz, rfl⟩ := hy.tail (.inl delimiter_ne_identifier)
    obtain ⟨e', d, hs⟩ := h (noKeyNext_of_not_lead _) hz
    exact ⟨e', .full hk d, hs.reached⟩

theorem fills_shorthand {key : String} (hk : t.Names key) :
    Fills k n [t] (.entry key (.identifier key)) := by
  intro stack lead us _ hx
  cases hx with
  | here =>
    -- the one place where the tree may change: the name is read as an expression now
    cases hk
    exact ⟨ofName k, derives_full n k, same_ofName k⟩
  | there hy => exact absurd rfl hy.ne_nil

theorem fills_lastEntry {key : String} (h : Fills k n ts (.entry key e)) :
    Fills k n ts (.entries [(key, e)]) :=
  h.map (fun e ↦ [(key, e)]) .lastEntry
    (fun hs ↦ hs.map (fun e ↦ [(key, e)]) fun h ↦ evalEntries_congr_cons key h rfl) id

theorem fills_moreEntries {key : String} {ms : List (String × Expr)}
    (dt : Derives n (.entry key e) ts) (du : Derives n (.entries ms) us)
    (h : Fills k n ts (.entry key e)) (hs : Fills k n us (.entries ms)) :
    Fills k n (ts ++ .delimiter .comma :: us) (.entries ((key, e) :: ms)) := by
  intro stack lead vs hp hx
  rcases hx.split delimiter_ne_identifier (dt.foldl_nest _) with ⟨ts', hy, rfl⟩ | ⟨us', hy, rfl⟩
  · obtain ⟨e', d, hs⟩ := h trivial hy
    exact ⟨(key, e') :: ms, .moreEntries d du.succ,
      hs.map (fun e ↦ (key, e) :: ms) fun h ↦ evalEntries_congr_cons key h rfl⟩
  · obtain ⟨ms', d, hs⟩ := hs trivial hy
    exact ⟨(key, e) :: ms', .moreEntries dt.succ d,
      hs.map ((key, e) :: ·) fun h ↦ evalEntries_congr_cons key rfl h⟩

/-- Whatever is derived, a full entry can stand in place of a shorthand one. -/
theorem fills_of_derives {p : Phrase} (h : Derives n p ts) (k : String) : Fills k n ts p := by
  induction h with
  | plain _ ih => exact ih.map id .plain id id
  | conditional dt dc da iht ihc iha => exact fills_conditional dt dc da iht ihc iha
  | single _ ih => exact fills_single ih
  | binary op dl dr ihl ihr => exact fills_join op.join?_operator dl dr ihl ihr
  | logical op dl dr ihl ihr => exact fills_join op.join?_operator dl dr ihl ihr
  | bare _ ih => exact ih.map id .bare id id
  | unary op _ ih => exact fills_unary op ih
  | start _ ih => exact ih.map id .start id id
  | member name d ih => exact fills_member false name rfl d ih
  | optionalMember name d ih => exact fills_member true name rfl d ih
  | index d dp ih ihp => exact fills_index false d dp ih ihp
  | optionalIndex d dp ih ihp => exact fills_index true d dp ih ihp
  | call d da ih iha => exact fills_call false d da ih iha
  | optionalCall d da ih iha => exact fills_call true d da ih iha
  | number | string | yes | no | null | undefined | name => exact Yields.token _
  | group _ ih => exact Yields.enclose ih id .group id (noKeyNext_of_not_lead _)
  | array _ ih => exact Yields.enclose ih array .array (fun hs ↦ hs.map array observed_array) nofun
  | object _ ih =>
    exact Yields.enclose ih object .object (fun hs ↦ hs.map object observed_object) trivial
  | noItems => exact Yields.nil
  | lastItem _ ih =>
    exact ih.map (fun e ↦ [e]) .lastItem (fun hs ↦ hs.map (fun e ↦ [e])
      fun h ↦ evalItems_congr_cons (reach_eq_of_observed h) rfl) fun hp _ ↦ hp
  | moreItems d ds ih ihs => exact fills_moreItems d ds ih ihs
  | full hk _ ih => exact fills_full hk ih
  | shorthand hk => exact fills_shorthand hk
  | noEntries => exact Yields.nil
  | lastEntry _ ih => exact fills_lastEntry ih
  | moreEntries d ds ih ihs => exact fills_moreEntries d ds ih ihs

/-! ## Sources with an entry written in full -/

/-- A source is read to an expression where so many expressions and prefix operators may be nested
in one another. -/
def ReadsWithin (nesting : Nat) (source : String) (e : Expr) : Prop :=
  ∃ ts, HasTokens source ts ∧ ofTokens ⟨nesting, maxHeight⟩ ts = .ok e

variable {source source' : String} {e' : Expr}

theorem parse_eq_ok_iff_readsWithin : parse source = .ok e ↔ ReadsWithin maxNesting source e := by
  rw [parse_eq_ok_iff]
  constructor
  · rintro ⟨ts, ht, he⟩
    exact ⟨_, map_eq_ok_iff.mpr ⟨ts, ht, rfl⟩, he⟩
  · rintro ⟨_, hts, he⟩
    obtain ⟨ts, ht, rfl⟩ := map_eq_ok_iff.mp hts
    exact ⟨ts, ht, he⟩

/-- A source is read to one expression, however deep it may be nested. -/
theorem ReadsWithin.eq {m : Nat} (h : ReadsWithin n source e) (h' : ReadsWithin m source e') :
    e = e' := by
  obtain ⟨ts, ht, he⟩ := h
  obtain ⟨us, hu, he'⟩ := h'
  obtain rfl := ht.eq hu
  have hl : 0 < maxHeight := by decide
  exact eq_of_derives (derives_of_ofTokens hl he).1 (derives_of_ofTokens hl he').1

/-- With an entry written in full, a source is read to the same expression inside of one more. -/
theorem exists_same_of_writesOut (h : WritesOut k source source') (he : ReadsWithin n source e) :
    ∃ e', ReadsWithin (n + 1) source' e' ∧ Same k height observed e e' := by
  obtain ⟨before, after, hs, ht, hu⟩ := h
  obtain ⟨ts, ht', he⟩ := he
  obtain rfl := ht.eq ht'
  have hl : 0 < maxHeight := by decide
  obtain ⟨d, hh⟩ := derives_of_ofTokens hl he
  obtain ⟨e', d', hsame⟩ := fills_of_derives d k (noKeyNext_of_not_lead _) (hs.expands k)
  have hh' : e'.height ≤ maxHeight := hsame.height_eq ▸ hh
  exact ⟨e', ⟨_, hu, ofTokens_of_derives d' (Nat.le_refl _) hh'⟩, hsame⟩

theorem ofName_eq_identifier_iff :
    ofName k = .identifier k ↔ k ∉ ["true", "false", "null", "undefined"] := by
  unfold ofName
  split_ifs <;> simp_all

theorem parse_eq_ok_of_derives (ht : HasTokens source ts) (hd : Derives n (.expression e) ts)
    (hn : n ≤ maxNesting) (hh : e.height ≤ maxHeight) : parse source = .ok e :=
  parse_eq_ok_iff_readsWithin.mpr ⟨ts, ht, ofTokens_of_derives hd hn hh⟩

/-- An object with one entry. -/
theorem derives_object (n : Nat) {key : String} (h : Derives n (.entry key e) ts) :
    Derives (n + 1) (.expression (.object [(key, e)]))
      (.delimiter .openBrace :: (ts ++ [.delimiter .closeBrace])) :=
  .plain ((Derives.bare (.start (.object (.lastEntry h)))).chain .nullish)

/-- Every word can be an entry of an object by itself. -/
theorem exists_sources (hk : k ∈ ["true", "false", "null", "undefined"]) :
    ∃ source source', WritesOut k source source' ∧
      parse source = .ok (.object [(k, .identifier k)]) ∧
      parse source' = .ok (.object [(k, ofName k)]) := by
  have tokens : ∃ source source', HasTokens source
        [.delimiter .openBrace, .identifier k, .delimiter .closeBrace] ∧
      HasTokens source' [.delimiter .openBrace, .identifier k, .delimiter .colon, .identifier k,
        .delimiter .closeBrace] := by
    simp only [List.mem_cons, List.not_mem_nil, or_false] at hk
    rcases hk with rfl | rfl | rfl | rfl
    · exact ⟨"\x7btrue\x7d", "\x7btrue: true\x7d", by decide +kernel, by decide +kernel⟩
    · exact ⟨"\x7bfalse\x7d", "\x7bfalse: false\x7d", by decide +kernel, by decide +kernel⟩
    · exact ⟨"\x7bnull\x7d", "\x7bnull: null\x7d", by decide +kernel, by decide +kernel⟩
    · exact ⟨"\x7bundefined\x7d", "\x7bundefined: undefined\x7d", by decide +kernel,
        by decide +kernel⟩
  obtain ⟨source, source', ht, hu⟩ := tokens
  have place : IsShorthand [.delimiter .openBrace] [.delimiter .closeBrace] :=
    isShorthand_of_derives [] (.inl rfl) nofun
  have height (e : Expr) (he : e.height = 1) : (object [(k, e)]).height ≤ maxHeight := by
    simp [Expr.height, heightOfEntries, he, maxHeight]
  exact ⟨source, source', ⟨_, _, place, ht, hu⟩,
    parse_eq_ok_of_derives ht (derives_object 0 (.shorthand (.identifier k))) (by decide)
      (height _ rfl),
    parse_eq_ok_of_derives hu (derives_object 1 (derives_full 0 k)) (by decide)
      (height _ (height_ofName k))⟩

theorem eval_object_single (env : Env) (key : String) (e : Expr) :
    (object [(key, e)]).eval env = (e.eval env).map fun v ↦ .obj [(key, v)] := by
  rw [eval, eval, reach, evalEntries, evalEntries]
  cases reach env e <;> rfl

/-- A word by itself is looked up. -/
theorem eval_object_word_eq_iff {env : Env} {v : Value} (hv : ofName k = .literal v) :
    (object [(k, ofName k)]).eval env = (object [(k, .identifier k)]).eval env ↔
      env.scope.get? k = some v := by
  rw [eval_object_single, eval_object_single, hv, eval, eval, reach, reach]
  cases env.scope.get? k with
  | none => exact ⟨nofun, nofun⟩
  | some w =>
    constructor
    · intro h
      cases h
      rfl
    · rintro ⟨⟩
      rfl

/-- With an entry written in full, a source has the same result in all environments that keep the
word. -/
theorem eval_eq_of_writesOut (hw : WritesOut k source source') (he : ReadsWithin n source e) :
    ∃ e', ReadsWithin (n + 1) source' e' ∧
      (k ∉ ["true", "false", "null", "undefined"] → e' = e) ∧
      ∀ env, KeepsWord env k → e'.eval env = e.eval env := by
  obtain ⟨e', he', hs⟩ := exists_same_of_writesOut hw he
  refine ⟨e', he', fun hk ↦ hs.eq (ofName_eq_identifier_iff.mpr hk), fun env hk ↦ ?_⟩
  rw [eval, eval, reach_eq_of_observed (hs.value_eq env hk)]

/-- In an environment that does not keep a word, the word by itself has another result. -/
theorem eval_eq_iff_keepsWord (env : Env) (k : String) :
    (∀ source source' e e', WritesOut k source source' → parse source = .ok e →
      parse source' = .ok e' → e'.eval env = e.eval env) ↔ KeepsWord env k := by
  constructor
  · intro h v hv
    have hk : k ∈ ["true", "false", "null", "undefined"] := by
      by_contra hk
      rw [ofName_eq_identifier_iff.mpr hk] at hv
      cases hv
    obtain ⟨source, source', hw, he, he'⟩ := exists_sources hk
    exact (eval_object_word_eq_iff hv).mp (h source source' _ _ hw he he')
  · intro hk source source' e e' hw he he'
    obtain ⟨e'', hr, -, heval⟩ := eval_eq_of_writesOut hw (parse_eq_ok_iff_readsWithin.mp he)
    rw [(parse_eq_ok_iff_readsWithin.mp he').eq hr]
    exact heval env hk

/-- The words are not kept by the empty scope. -/
theorem forall_keepsWord_iff :
    (∀ env, KeepsWord env k) ↔ k ∉ ["true", "false", "null", "undefined"] := by
  constructor
  · intro h hk
    obtain ⟨v, hv⟩ := (ofName_eq_literal_or k).resolve_right
      fun h ↦ ofName_eq_identifier_iff.mp h hk
    cases h ⟨[], 0⟩ v hv
  · intro hk env v hv
    rw [ofName_eq_identifier_iff.mpr hk] at hv
    cases hv

/-- A shorthand entry means what it is short for, unless it is a word.  It can be written in full
wherever it stands.  That leaves the expression what it was, which is nested one level deeper at
most; and where it is a word, the expression has the same result in all environments that keep the
word, since a word by itself is looked up there.  It has the same result wherever the entry stands
just in these environments, and all environments keep the names that are no words. -/
theorem shorthand_abbreviates_iff (k : String) :
    (∀ source before after, IsShorthand before after →
      HasTokens source (before ++ .identifier k :: after) →
      ∃ front back, source = front ++ k ++ back ∧
        WritesOut k source (front ++ k ++ " : " ++ k ++ back)) ∧
    (∀ n source source' e, WritesOut k source source' → ReadsWithin n source e →
      ∃ e', ReadsWithin (n + 1) source' e' ∧
        (k ∉ ["true", "false", "null", "undefined"] → e' = e) ∧
        ∀ env, KeepsWord env k → e'.eval env = e.eval env) ∧
    (∀ env, (∀ source source' e e', WritesOut k source source' → parse source = .ok e →
      parse source' = .ok e' → e'.eval env = e.eval env) ↔ KeepsWord env k) ∧
    ((∀ env, KeepsWord env k) ↔ k ∉ ["true", "false", "null", "undefined"]) := by
  refine ⟨?_, ?_, ?_, forall_keepsWord_iff⟩
  · intro source before after h ht
    exact h.exists_writesOut ht
  · intro n source source' e hw he
    exact eval_eq_of_writesOut hw he
  · intro env
    exact eval_eq_iff_keepsWord env k

/-- An entry of an object inside of another one, behind which a comma stands, can be written in full
without a change of the tree. -/
theorem abbreviates_inner_entry :
    let source := "[\x7ba: \x7bb, c,\x7d\x7d]"
    let source' := "[\x7ba: \x7bb, c: c,\x7d\x7d]"
    let e := array [object [("a", object [("b", identifier "b"), ("c", identifier "c")])]]
    WritesOut "c" source source' ∧ parse source = .ok e ∧ parse source' = .ok e := by
  intro source source' e
  have d : Derives 0 (.entries [("b", .identifier "b")]) [.identifier "b"] :=
    .lastEntry (.shorthand (.identifier "b"))
  have place := isShorthand_of_derives
    [.delimiter .openBracket, .delimiter .openBrace, .identifier "a", .delimiter .colon]
    (.inr ⟨_, _, _, rfl, d⟩) (show [Token.delimiter .comma, .delimiter .closeBrace,
      .delimiter .closeBrace, .delimiter .closeBracket].head? ≠ some (.delimiter .colon) by decide)
  have ht : HasTokens source [.delimiter .openBracket, .delimiter .openBrace, .identifier "a",
      .delimiter .colon, .delimiter .openBrace, .identifier "b", .delimiter .comma,
      .identifier "c", .delimiter .comma, .delimiter .closeBrace, .delimiter .closeBrace,
      .delimiter .closeBracket] := by decide +kernel
  have hw : WritesOut "c" source source' := ⟨_, _, place, ht, by decide +kernel⟩
  have hr : ReadsWithin 63 source e := ⟨_, ht, by cbv⟩
  obtain ⟨e', hr', heq, -⟩ := (shorthand_abbreviates_iff "c").2.1 63 source source' e hw hr
  obtain rfl := heq (by decide)
  exact ⟨hw, by cbv, parse_eq_ok_iff_readsWithin.mpr hr'⟩

/-- The word `true` by itself is missed, although it stands for a value behind a colon. -/
theorem word_alone_not_read :
    WritesOut "true" "\x7btrue\x7d" "\x7btrue: true\x7d" ∧
    run ⟨[], 0⟩ "\x7btrue\x7d" =
      .error (.evaluation "\x7btrue\x7d" (.undefinedVariable "true")) ∧
    run ⟨[], 0⟩ "\x7btrue: true\x7d" = .ok (.obj [("true", .bool true)]) := by
  refine ⟨⟨[.delimiter .openBrace], [.delimiter .closeBrace], ⟨rfl, ⟨_, rfl, rfl⟩, by decide⟩,
    by decide +kernel, by decide +kernel⟩, ?_, ?_⟩
  · cbv
  · cbv

end Expr

end LivePage
