import LivePage.Expr.Parser

/-!
# The grammar of expressions

What sequences of tokens are read as.  A phrase is a part of an expression together with what it
is read to, and the grammar derives tokens from phrases.  Parentheses leave nothing behind, and
a comma may stand behind the last item of a list and the last entry of an object.

The number that every derivation carries bounds how deep expressions and prefix operators are
nested in one another; no rule but theirs changes it.
-/

namespace LivePage

/-- The level on which an operator joins expressions. -/
def BinaryOp.level : BinaryOp → Level
  | add | subtract => .additive
  | multiply | divide | modulo => .multiplicative
  | equal | notEqual | strictEqual | strictNotEqual => .equality
  | less | lessEqual | greater | greaterEqual => .relational

/-- The level on which a logical operator joins expressions. -/
def LogicalOp.level : LogicalOp → Level
  | and => .and
  | or => .or
  | nullish => .nullish

/-- The tokens that name an entry of an object, with the name. -/
inductive Token.Names : Token → String → Prop where
  | identifier (k : String) : Names (.identifier k) k
  | string (k : String) : Names (.string k) k
  | number (x : Float) : Names (.number x) (Value.ofFloat x).display

namespace Token

/-- The tokens that a primary expression can start with. -/
def startsPrimary : Token → Bool
  | number _ | string _ | identifier _ => true
  | operator _ => false
  | delimiter d => d = .openParen ∨ d = .openBracket ∨ d = .openBrace

/-- The tokens that an expression can start with. -/
def starts : Token → Bool
  | operator o => (UnaryOp.ofOperator? o).isSome
  | t => t.startsPrimary

theorem starts_of_startsPrimary {t : Token} (h : t.startsPrimary = true) : t.starts = true := by
  cases t with
  | operator o => cases h
  | number | string | identifier | delimiter => exact h

end Token

/-- A part of an expression, with what it is read to. -/
inductive Phrase where
  | expression (e : Expr)
  /-- Operands of a level, joined by its operators. -/
  | chain (level : Level) (e : Expr)
  /-- An expression that may have a prefix operator in front. -/
  | prefixed (e : Expr)
  /-- A primary expression with the links behind it. -/
  | linked (e : Expr)
  | primary (e : Expr)
  | items (es : List Expr)
  | entry (key : String) (e : Expr)
  | entries (ms : List (String × Expr))

namespace Phrase

/-- What the operators of a level join: chains of the next tighter level, and behind the last one
expressions with prefix operators. -/
def operand (e : Expr) : Level → Phrase
  | .nullish => chain .or e
  | .or => chain .and e
  | .and => chain .equality e
  | .equality => chain .relational e
  | .relational => chain .additive e
  | .additive => chain .multiplicative e
  | .multiplicative => prefixed e

/-- The height of what a phrase is read to. -/
def height : Phrase → Nat
  | expression e | chain _ e | prefixed e | linked e | primary e | entry _ e => e.height
  | items es => Expr.heightOfItems es
  | entries ms => Expr.heightOfEntries ms

@[simp] theorem height_operand (e : Expr) (level : Level) :
    (operand e level).height = e.height := by
  cases level <;> rfl

end Phrase

/-- `Derives n p ts` says that the grammar derives the tokens `ts` from the phrase `p`, and that
no point of the derivation is inside of more than `n` expressions and prefix operators. -/
inductive Derives : Nat → Phrase → List Token → Prop where
  | plain {n : Nat} {e : Expr} {ts : List Token} (h : Derives n (.chain .nullish e) ts) :
      Derives (n + 1) (.expression e) ts
  | conditional {n : Nat} {test consequent alternate : Expr} {ts us vs : List Token}
      (ht : Derives n (.chain .nullish test) ts) (hc : Derives n (.expression consequent) us)
      (ha : Derives n (.expression alternate) vs) :
      Derives (n + 1) (.expression (.conditional test consequent alternate))
        (ts ++ .operator .question :: (us ++ .delimiter .colon :: vs))
  | single {n : Nat} {level : Level} {e : Expr} {ts : List Token}
      (h : Derives n (.operand e level) ts) : Derives n (.chain level e) ts
  | binary {n : Nat} (op : BinaryOp) {left right : Expr} {ts us : List Token}
      (hl : Derives n (.chain op.level left) ts) (hr : Derives n (.operand right op.level) us) :
      Derives n (.chain op.level (.binary op left right)) (ts ++ .operator op.operator :: us)
  | logical {n : Nat} (op : LogicalOp) {left right : Expr} {ts us : List Token}
      (hl : Derives n (.chain op.level left) ts) (hr : Derives n (.operand right op.level) us) :
      Derives n (.chain op.level (.logical op left right)) (ts ++ .operator op.operator :: us)
  | bare {n : Nat} {e : Expr} {ts : List Token} (h : Derives n (.linked e) ts) :
      Derives n (.prefixed e) ts
  | unary {n : Nat} (op : UnaryOp) {e : Expr} {ts : List Token}
      (h : Derives n (.prefixed e) ts) :
      Derives (n + 1) (.prefixed (.unary op e)) (.operator op.operator :: ts)
  | start {n : Nat} {e : Expr} {ts : List Token} (h : Derives n (.primary e) ts) :
      Derives n (.linked e) ts
  | member {n : Nat} {e : Expr} {ts : List Token} (name : String)
      (h : Derives n (.linked e) ts) :
      Derives n (.linked (.member e name false)) (ts ++ [.operator .dot, .identifier name])
  | optionalMember {n : Nat} {e : Expr} {ts : List Token} (name : String)
      (h : Derives n (.linked e) ts) :
      Derives n (.linked (.member e name true))
        (ts ++ [.operator .optionalDot, .identifier name])
  | index {n : Nat} {e position : Expr} {ts us : List Token} (h : Derives n (.linked e) ts)
      (hp : Derives n (.expression position) us) :
      Derives n (.linked (.index e position false))
        (ts ++ .delimiter .openBracket :: (us ++ [.delimiter .closeBracket]))
  | optionalIndex {n : Nat} {e position : Expr} {ts us : List Token}
      (h : Derives n (.linked e) ts) (hp : Derives n (.expression position) us) :
      Derives n (.linked (.index e position true))
        (ts ++ .operator .optionalDot :: .delimiter .openBracket ::
          (us ++ [.delimiter .closeBracket]))
  | call {n : Nat} {e : Expr} {arguments : List Expr} {ts us : List Token}
      (h : Derives n (.linked e) ts) (ha : Derives n (.items arguments) us) :
      Derives n (.linked (.call e arguments false))
        (ts ++ .delimiter .openParen :: (us ++ [.delimiter .closeParen]))
  | optionalCall {n : Nat} {e : Expr} {arguments : List Expr} {ts us : List Token}
      (h : Derives n (.linked e) ts) (ha : Derives n (.items arguments) us) :
      Derives n (.linked (.call e arguments true))
        (ts ++ .operator .optionalDot :: .delimiter .openParen ::
          (us ++ [.delimiter .closeParen]))
  | number {n : Nat} (x : Float) : Derives n (.primary (.literal (.ofFloat x))) [.number x]
  | string {n : Nat} (s : String) : Derives n (.primary (.literal (.str s))) [.string s]
  | yes {n : Nat} : Derives n (.primary (.literal (.bool true))) [.identifier "true"]
  | no {n : Nat} : Derives n (.primary (.literal (.bool false))) [.identifier "false"]
  | null {n : Nat} : Derives n (.primary (.literal .null)) [.identifier "null"]
  | undefined {n : Nat} : Derives n (.primary (.literal .null)) [.identifier "undefined"]
  | name {n : Nat} {k : String} (h : k ∉ ["true", "false", "null", "undefined"]) :
      Derives n (.primary (.identifier k)) [.identifier k]
  | group {n : Nat} {e : Expr} {ts : List Token} (h : Derives n (.expression e) ts) :
      Derives n (.primary e) (.delimiter .openParen :: (ts ++ [.delimiter .closeParen]))
  | array {n : Nat} {es : List Expr} {ts : List Token} (h : Derives n (.items es) ts) :
      Derives n (.primary (.array es))
        (.delimiter .openBracket :: (ts ++ [.delimiter .closeBracket]))
  | object {n : Nat} {ms : List (String × Expr)} {ts : List Token}
      (h : Derives n (.entries ms) ts) :
      Derives n (.primary (.object ms))
        (.delimiter .openBrace :: (ts ++ [.delimiter .closeBrace]))
  | noItems {n : Nat} : Derives n (.items []) []
  | lastItem {n : Nat} {e : Expr} {ts : List Token} (h : Derives n (.expression e) ts) :
      Derives n (.items [e]) ts
  | moreItems {n : Nat} {e : Expr} {es : List Expr} {ts us : List Token}
      (h : Derives n (.expression e) ts) (hs : Derives n (.items es) us) :
      Derives n (.items (e :: es)) (ts ++ .delimiter .comma :: us)
  | full {n : Nat} {t : Token} {k : String} {e : Expr} {ts : List Token} (hk : t.Names k)
      (h : Derives n (.expression e) ts) : Derives n (.entry k e) (t :: .delimiter .colon :: ts)
  | shorthand {n : Nat} {t : Token} {k : String} (hk : t.Names k) :
      Derives n (.entry k (.identifier k)) [t]
  | noEntries {n : Nat} : Derives n (.entries []) []
  | lastEntry {n : Nat} {k : String} {e : Expr} {ts : List Token}
      (h : Derives n (.entry k e) ts) : Derives n (.entries [(k, e)]) ts
  | moreEntries {n : Nat} {k : String} {e : Expr} {ms : List (String × Expr)}
      {ts us : List Token} (h : Derives n (.entry k e) ts) (hs : Derives n (.entries ms) us) :
      Derives n (.entries ((k, e) :: ms)) (ts ++ .delimiter .comma :: us)

namespace Level

/-- How tight a level binds. -/
def rank : Level → Nat
  | nullish => 0
  | or => 1
  | and => 2
  | equality => 3
  | relational => 4
  | additive => 5
  | multiplicative => 6

theorem rank_le (level : Level) : level.rank ≤ 6 := by
  cases level <;> decide

end Level

/-! ## Operators and names -/

theorem BinaryOp.join?_operator (op : BinaryOp) :
    op.level.join? op.operator = some (.binary op) := by
  cases op <;> rfl

theorem LogicalOp.join?_operator (op : LogicalOp) :
    op.level.join? op.operator = some (.logical op) := by
  cases op <;> rfl

/-- The operators of a level are those of the trees that it joins. -/
theorem Level.join?_eq_some {level : Level} {o : Operator} {join : Expr → Expr → Expr}
    (h : level.join? o = some join) :
    (∃ op : BinaryOp, join = .binary op ∧ level = op.level ∧ o = op.operator) ∨
      ∃ op : LogicalOp, join = .logical op ∧ level = op.level ∧ o = op.operator := by
  revert h
  fun_cases Level.join? level o <;> rintro ⟨⟩
  all_goals first
    | exact .inl ⟨_, rfl, rfl, rfl⟩
    | exact .inr ⟨_, rfl, rfl, rfl⟩

/-- A chain goes on behind an operator of its level. -/
theorem Derives.join {n : Nat} {level : Level} {o : Operator} {join : Expr → Expr → Expr}
    {left right : Expr} {ts us : List Token} (ho : level.join? o = some join)
    (hl : Derives n (.chain level left) ts) (hr : Derives n (.operand right level) us) :
    Derives n (.chain level (join left right)) (ts ++ .operator o :: us) := by
  rcases Level.join?_eq_some ho with ⟨op, rfl, rfl, rfl⟩ | ⟨op, rfl, rfl, rfl⟩
  · exact .binary op hl hr
  · exact .logical op hl hr

theorem UnaryOp.ofOperator?_operator (op : UnaryOp) : ofOperator? op.operator = some op := by
  cases op <;> rfl

theorem UnaryOp.operator_of_ofOperator? {o : Operator} {op : UnaryOp}
    (h : ofOperator? o = some op) : o = op.operator := by
  revert h
  fun_cases ofOperator? o <;> rintro ⟨⟩ <;> rfl

theorem Expr.key?_eq_some_iff {t : Token} {k : String} : key? t = some k ↔ t.Names k := by
  constructor
  · intro h
    revert h
    fun_cases key? t <;> rintro ⟨⟩ <;> constructor
  · rintro (_ | _ | _) <;> rfl

/-- A token that names an entry is no delimiter. -/
theorem Token.Names.ne_delimiter {t : Token} {k : String} (h : t.Names k) (d : Delimiter) :
    t ≠ .delimiter d := by
  cases h <;> simp

/-! ## The first token of a derivation -/

namespace Phrase

/-- Whether a phrase is an expression without an operator in front. -/
def isLinked : Phrase → Bool
  | linked _ | primary _ => true
  | _ => false

/-- Lists may have no tokens, and entries start with a name. -/
def isExpression : Phrase → Bool
  | items _ | entry _ _ | entries _ => false
  | _ => true

@[simp] theorem isExpression_operand (e : Expr) (level : Level) :
    (operand e level).isExpression = true := by
  cases level <;> rfl

end Phrase

namespace Derives

variable {n : Nat} {p : Phrase} {ts : List Token}

/-- What is derived from a primary expression with links does not start with an operator. -/
theorem exists_startsPrimary (h : Derives n p ts) (hp : p.isLinked = true) :
    ∃ t r, ts = t :: r ∧ t.startsPrimary = true := by
  induction h with
  | start _ ih => exact ih rfl
  | member _ _ ih | optionalMember _ _ ih | index _ _ ih | optionalIndex _ _ ih | call _ _ ih
    | optionalCall _ _ ih =>
    obtain ⟨t, r, rfl, ht⟩ := ih rfl
    exact ⟨t, _, rfl, ht⟩
  | number | string | yes | no | null | undefined | name | group | array | object =>
    exact ⟨_, _, rfl, rfl⟩
  | plain | conditional | single | binary | logical | bare | unary | noItems | lastItem | moreItems
    | full | shorthand | noEntries | lastEntry | moreEntries => cases hp

/-- What is derived from an expression starts with a token that can start one. -/
theorem exists_starts (h : Derives n p ts) (hp : p.isExpression = true) :
    ∃ t r, ts = t :: r ∧ t.starts = true := by
  by_cases hl : p.isLinked = true
  · obtain ⟨t, r, rfl, ht⟩ := h.exists_startsPrimary hl
    exact ⟨t, r, rfl, Token.starts_of_startsPrimary ht⟩
  induction h with
  | plain _ ih => exact ih rfl nofun
  | single h ih =>
    rename_i level _ _
    exact ih (by simp) (by cases level <;> exact nofun)
  | bare h =>
    obtain ⟨t, r, rfl, ht⟩ := h.exists_startsPrimary rfl
    exact ⟨t, r, rfl, Token.starts_of_startsPrimary ht⟩
  | conditional _ _ _ ih | binary _ _ _ ih | logical _ _ _ ih =>
    obtain ⟨t, r, rfl, ht⟩ := ih rfl nofun
    exact ⟨t, _, rfl, ht⟩
  | unary op => exact ⟨_, _, rfl, by cases op <;> rfl⟩
  | start | member | optionalMember | index | optionalIndex | call | optionalCall | number | string
    | yes | no | null | undefined | name | group | array | object => exact absurd rfl hl
  | noItems | lastItem | moreItems | full | shorthand | noEntries | lastEntry | moreEntries =>
    cases hp

/-- An expression without operators between operands is a chain of every level. -/
theorem chain {e : Expr} (h : Derives n (.prefixed e) ts) (level : Level) :
    Derives n (.chain level e) ts := by
  have multiplicative : Derives n (.chain .multiplicative e) ts := .single h
  have additive : Derives n (.chain .additive e) ts := .single multiplicative
  have relational : Derives n (.chain .relational e) ts := .single additive
  have equality : Derives n (.chain .equality e) ts := .single relational
  have and : Derives n (.chain .and e) ts := .single equality
  have or : Derives n (.chain .or e) ts := .single and
  cases level with
  | nullish => exact .single or
  | _ => assumption

theorem length_pos (h : Derives n p ts) (hp : p.isExpression = true) : 0 < ts.length := by
  obtain ⟨t, r, rfl, -⟩ := h.exists_starts hp
  exact Nat.zero_lt_succ _

end Derives

end LivePage
