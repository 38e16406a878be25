import Formulary.Proofs.Grammar

/-!
# The parser, one token at a time

What each function of the parser does with the next token, free of the proofs that its
definition carries along. A state is split into its next token and the state after it
(`Parser.before`), and what is read in a nested place is read from the state one level deeper
(`Parser.deeper`).

For every step that may break a rule there are two lemmas : what it yields where the rule is kept
(`nested_of_lt`, `closedBy_of_rest`, `chainFrom_before`), and what it yields where it is broken
(`nested_of_not_lt`, `closedBy_of_ne`, `chainFrom_before_of_not_lt`).

`reading_induction` is the recursion of the parser in these terms. It tells the cases apart by what
is ahead, and what is proved of all reading goes by it.
-/

namespace Formulary

/-! ## Operators and their symbols -/

/-- The symbol of an operator writes it on its own level. -/
theorem op?_symbol {level : Level} {op : BinaryOp} (h : op.level = level) :
    level.op? (.symbol op.symbol) = some op := by
  subst h
  cases op <;> rfl

theorem eq_symbol_of_op? {level : Level} {token : Token} {op : BinaryOp}
    (h : level.op? token = some op) : token = .symbol op.symbol ∧ op.level = level := by
  cases token with
  | symbol sign => cases level <;> cases sign <;> cases h <;> exact ⟨rfl, rfl⟩
  | _ => cases h

/-- No operator of a level stands where its chains end. -/
theorem op?_eq_none_of_ends {level : Level} {rest : List Token} {token : Token}
    (h : (Category.chain level).Ends rest) (hhead : rest.head? = some token) :
    level.op? token = none := by
  cases hop : level.op? token with
  | none => rfl
  | some op =>
    obtain ⟨rfl, hlevel⟩ := eq_symbol_of_op? hop
    exact absurd (h op hhead) (hlevel ▸ Nat.lt_irrefl _)

theorem eq_symbol_of_unaryOp? {sign : Symbol} {op : UnaryOp} (h : sign.unaryOp? = some op) :
    sign = op.symbol := by
  cases sign <;> cases h <;> rfl

namespace Parser

/-! ## States -/

/-- The state before `token` is read, where `p` is the state after it. -/
def before (p : Parser) (token : Token) : Parser :=
  { p with rest := token :: p.rest }

/-- The state one level deeper. -/
def deeper (p : Parser) (h : p.depth < maxNesting) : Parser :=
  { p with depth := p.depth + 1, depth_le := h }

theorem eq_before_of_next? {p q : Parser} {token : Token} (h : p.next? = some (token, q)) :
    p = q.before token := by
  obtain ⟨rest, depth, broken, hdepth⟩ := p
  rcases rest with _ | ⟨head, rest⟩
  · exact nomatch h
  · obtain ⟨rfl, rfl⟩ := Prod.mk.inj (Option.some.inj h)
    rfl

theorem exists_eq_before {p : Parser} {token : Token} {rest : List Token}
    (hp : p.broken = false) (h : p.rest = token :: rest) :
    ∃ q : Parser, p = q.before token ∧ q.rest = rest ∧ q.broken = false := by
  obtain ⟨_, depth, broken, hdepth⟩ := p
  subst h
  exact ⟨⟨rest, depth, broken, hdepth⟩, rfl, rfl, hp⟩

theorem before_of_next? {p q : Parser} {token : Token} (hp : ¬p.broken = true)
    (h : p.next? = some (token, q)) : p = q.before token ∧ q.broken = false := by
  obtain rfl := eq_before_of_next? h
  exact ⟨rfl, eq_false_of_ne_true hp⟩

theorem rest_eq_nil_of_next? {p : Parser} (h : p.next? = none) : p.rest = [] := by
  obtain ⟨rest, depth, broken, hdepth⟩ := p
  rcases rest with _ | ⟨head, rest⟩
  · rfl
  · exact nomatch h

theorem next?_eq_some {p : Parser} {token : Token} {rest : List Token}
    (h : p.rest = token :: rest) : p.next? = some (token, { p with rest }) := by
  simp [next?, h]

theorem eq_deeper_of_descend? {p q : Parser} (h : p.descend? = some q) :
    ∃ hdepth : p.depth < maxNesting, q = p.deeper hdepth := by
  unfold descend? at h
  split at h
  · next hdepth => exact ⟨hdepth, (Option.some.inj h).symm⟩
  · cases h

theorem not_lt_of_descend? {p : Parser} (h : p.descend? = none) : ¬p.depth < maxNesting := by
  intro hdepth
  rw [descend?, dif_pos hdepth] at h
  exact nomatch h

/-- A symbol is expected, and it is the next token. -/
theorem expect?_eq_some {p : Parser} {sign : Symbol} {rest : List Token}
    (h : p.rest = .symbol sign :: rest) : p.expect? sign = some { p with rest } := by
  simp [expect?, next?, h]

variable {p : Parser}

/-! ## Nesting and brackets -/

section Nested

variable (read : (q : Parser) → q.rest = p.rest → Parsed q)

theorem nested_of_lt (h : p.depth < maxNesting) :
    (p.nested read).tree = (read (p.deeper h) rfl).tree ∧
      (p.nested read).state = (read (p.deeper h) rfl).state.ascend := by
  unfold nested
  split
  · next hnone => exact absurd h (not_lt_of_descend? hnone)
  · next hsome =>
    obtain ⟨_, rfl⟩ := eq_deeper_of_descend? hsome
    exact ⟨rfl, rfl⟩

/-- A rule is broken where nesting ends. -/
theorem nested_of_not_lt (h : ¬p.depth < maxNesting) :
    p.nested read = ⟨.broken, p.fail, Nat.le_refl _⟩ := by
  unfold nested
  split
  · rfl
  · next hsome =>
    obtain ⟨hdepth, -⟩ := eq_deeper_of_descend? hsome
    exact absurd hdepth h

end Nested

section ClosedBy

variable {inner : Parsed p} {sign : Symbol} (wrap : Expr → Expr)

theorem closedBy_of_rest {rest : List Token} (h : inner.state.rest = .symbol sign :: rest) :
    (inner.closedBy sign wrap).tree = wrap inner.tree ∧
      (inner.closedBy sign wrap).state = { inner.state with rest } := by
  unfold Parsed.closedBy
  split
  · next hsome =>
    obtain rfl := Option.some.inj (hsome.symm.trans (expect?_eq_some h))
    exact ⟨rfl, rfl⟩
  · next hnone => cases hnone.symm.trans (expect?_eq_some h)

/-- A rule is broken where the closing symbol is not ahead. -/
theorem closedBy_of_ne (h : ∀ rest, inner.state.rest ≠ .symbol sign :: rest) :
    inner.closedBy sign wrap = ⟨.broken, inner.state.fail, inner.length_le⟩ := by
  unfold Parsed.closedBy
  split
  · next q hsome => exact absurd (rest_eq_of_expect? hsome) (h q.rest)
  · rfl

end ClosedBy

/-! ## Primaries and signs -/

theorem primary_before (token : Token) (hp : p.broken = false) :
    primary (p.before token) = match token with
      | .number value => Parsed.past rfl ⟨.literal value, p, Nat.le_refl _⟩ id
      | .var name => Parsed.past rfl ⟨.var name, p, Nat.le_refl _⟩ id
      | .function f => Parsed.past rfl (p.nested fun r _ => primary r) (.apply f)
      | .reference id => Parsed.past rfl (p.nested fun r _ => primary r) (.call id)
      | .symbol .openParen =>
        Parsed.past rfl ((p.nested fun r _ => chain .additive r).closedBy .closeParen id) id
      | .symbol .bar =>
        Parsed.past rfl ((p.nested fun r _ => chain .additive r).closedBy .bar .abs) id
      | _ => Parsed.past rfl ⟨.broken, p.fail, Nat.le_refl _⟩ id := by
  obtain ⟨rest, depth, broken, h⟩ := p
  subst hp
  rw [primary]
  cases token with
  | symbol sign => cases sign <;> rfl
  | _ => rfl

/-- No primary begins with the token. -/
theorem primary_before_of_other {token : Token} (hp : p.broken = false)
    (htoken : token.startsOperand = false) (hbar : token ≠ .symbol .bar) :
    primary (p.before token) = Parsed.past (q := p) rfl ⟨.broken, p.fail, Nat.le_refl _⟩ id := by
  rw [primary_before token hp]
  cases token with
  | symbol sign =>
    cases sign with
    | openParen => cases htoken
    | bar => exact absurd rfl hbar
    | _ => rfl
  | invalid => rfl
  | _ => cases htoken

theorem primary_of_broken (h : p.broken = true) : primary p = ⟨.broken, p, Nat.le_refl _⟩ := by
  rw [primary, if_pos h]

theorem primary_of_nil (hp : p.broken = false) (h : p.rest = []) :
    primary p = ⟨.broken, p.fail, Nat.le_refl _⟩ := by
  obtain ⟨rest, depth, broken, hdepth⟩ := p
  subst h hp
  rw [primary]
  rfl

theorem signed_before_sign (op : UnaryOp) :
    signed (p.before (.symbol op.symbol)) =
      Parsed.past rfl (p.nested fun r _ => signed r) (.unary op) := by
  rw [signed]
  cases op <;> rfl

/-- The symbol ahead is no sign. -/
theorem rest_ne_sign_of_unaryOp? {q : Parser} {sign : Symbol}
    (hnext : p.next? = some (.symbol sign, q)) (h : sign.unaryOp? = none) (op : UnaryOp)
    (more : List Token) : p.rest ≠ .symbol op.symbol :: more := by
  rw [rest_eq_of_next? hnext]
  rintro ⟨⟩
  cases op <;> cases h

/-- No symbol is ahead. -/
theorem rest_ne_sign_of_next? (h : ∀ sign q, p.next? ≠ some (.symbol sign, q)) (op : UnaryOp)
    (more : List Token) : p.rest ≠ .symbol op.symbol :: more :=
  fun hrest => h _ _ (next?_eq_some hrest)

/-- Where no sign is ahead, a primary is read. -/
theorem signed_eq_primary
    (h : ∀ (op : UnaryOp) (more : List Token), p.rest ≠ .symbol op.symbol :: more) :
    signed p = primary p := by
  obtain ⟨rest, depth, broken, hdepth⟩ := p
  rw [signed]
  cases rest with
  | nil => rfl
  | cons token rest =>
    cases token with
    | symbol sign =>
      cases sign with
      | plus => exact absurd rfl (h .pos rest)
      | minus => exact absurd rfl (h .neg rest)
      | _ => rfl
    | _ => rfl

/-! ## Chains -/

/-- What reading a phrase of the category yields. -/
def read : (c : Category) → (p : Parser) → Parsed p
  | .chain level, p => chain level p
  | .signed, p => signed p
  | .primary, p => primary p

theorem operand_eq_read (level : Level) (p : Parser) : operand level p = read level.operand p := by
  cases level <;> rw [operand] <;> rfl

theorem tree_chain (level : Level) (p : Parser) : (chain level p).tree =
    (chainFrom level (read level.operand p).tree (read level.operand p).state).tree := by
  rw [← operand_eq_read, chain]

theorem state_chain (level : Level) (p : Parser) : (chain level p).state =
    (chainFrom level (read level.operand p).tree
      (read level.operand p).state).state.atDepthOf p := by
  rw [← operand_eq_read, chain]

section ChainFrom

variable {level : Level} {op : BinaryOp} (left : Expr)

/-- Where no operator of its level is ahead, a chain ends. -/
theorem chainFrom_of_ends (hlevel : ∀ token, p.rest.head? = some token → level.op? token = none) :
    chainFrom level left p = ⟨left, p, Nat.le_refl _⟩ := by
  obtain ⟨rest, depth, broken, hdepth⟩ := p
  rw [chainFrom]
  cases broken with
  | true => rfl
  | false =>
    cases rest with
    | nil => rfl
    | cons token rest => simp [next?, hlevel token rfl]

theorem chainFrom_of_broken (h : p.broken = true) :
    chainFrom level left p = ⟨left, p, Nat.le_refl _⟩ := by
  rw [chainFrom, if_pos h]

/-- An operator of a chain is read, with its operand one level deeper. -/
theorem chainFrom_before (hp : p.broken = false) {token : Token} (hop : level.op? token = some op)
    (h : p.depth < maxNesting) :
    let right := read level.operand (p.deeper h)
    let whole := chainFrom level (.binary left op right.tree) right.state
    (chainFrom level left (p.before token)).tree = whole.tree ∧
      (chainFrom level left (p.before token)).state = whole.state := by
  rw [← operand_eq_read, chainFrom, if_neg (by simp [before, hp])]
  simp only [before]
  split
  · next hnone => cases hnone
  · next hnext =>
    obtain ⟨rfl, rfl⟩ := Prod.mk.inj (Option.some.inj hnext)
    rw [hop]
    simp only
    split
    · next hdeep => exact absurd h (not_lt_of_descend? hdeep)
    · next hdeep =>
      obtain ⟨_, rfl⟩ := eq_deeper_of_descend? hdeep
      exact ⟨rfl, rfl⟩

/-- An operator of a chain breaks a rule where nesting ends. -/
theorem chainFrom_before_of_not_lt (hp : p.broken = false) {token : Token}
    (hop : level.op? token = some op) (h : ¬p.depth < maxNesting) :
    (chainFrom level left (p.before token)).tree = left ∧
      (chainFrom level left (p.before token)).state = p.fail := by
  rw [chainFrom, if_neg (by simp [before, hp])]
  simp only [before]
  split
  · next hnone => cases hnone
  · next hnext =>
    obtain ⟨rfl, rfl⟩ := Prod.mk.inj (Option.some.inj hnext)
    rw [hop]
    simp only
    split
    · exact ⟨rfl, rfl⟩
    · next hdeep =>
      obtain ⟨hdepth, -⟩ := eq_deeper_of_descend? hdeep
      exact absurd hdepth h

end ChainFrom

/-! ## Induction over what is read -/

/-- Induction over all that is read : phrases, and what follows the first operand of a chain. What
is read in a nested place may be read from any state with the same tokens ahead. -/
theorem reading_induction (reads : Category → Parser → Prop)
    (goesOn : Level → Expr → Parser → Prop)
    (chain : ∀ level p, reads level.operand p →
      goesOn level (read level.operand p).tree (read level.operand p).state →
      reads (.chain level) p)
    (chainBroken : ∀ level left (p : Parser), p.broken = true → goesOn level left p)
    (chainEnd : ∀ level left (p : Parser), p.broken = false →
      (∀ token, p.rest.head? = some token → level.op? token = none) → goesOn level left p)
    (chainDeep : ∀ (op : BinaryOp) left (p : Parser), p.broken = false → ¬p.depth < maxNesting →
      goesOn op.level left (p.before (.symbol op.symbol)))
    (chainMore : ∀ (op : BinaryOp) left (p : Parser) (hdepth : p.depth < maxNesting),
      p.broken = false →
      let right := read op.level.operand (p.deeper hdepth)
      reads op.level.operand (p.deeper hdepth) →
      goesOn op.level (.binary left op right.tree) right.state →
      goesOn op.level left (p.before (.symbol op.symbol)))
    (sign : ∀ (op : UnaryOp) (p : Parser), (∀ q : Parser, q.rest = p.rest → reads .signed q) →
      reads .signed (p.before (.symbol op.symbol)))
    (bare : ∀ p : Parser,
      (∀ (op : UnaryOp) (more : List Token), p.rest ≠ .symbol op.symbol :: more) →
      reads .primary p → reads .signed p)
    (broken : ∀ p : Parser, p.broken = true → reads .primary p)
    (nothing : ∀ p : Parser, p.broken = false → p.rest = [] → reads .primary p)
    (number : ∀ value (p : Parser), p.broken = false → reads .primary (p.before (.number value)))
    (var : ∀ name (p : Parser), p.broken = false → reads .primary (p.before (.var name)))
    (function : ∀ f (p : Parser), p.broken = false →
      (∀ q : Parser, q.rest = p.rest → reads .primary q) →
      reads .primary (p.before (.function f)))
    (reference : ∀ id (p : Parser), p.broken = false →
      (∀ q : Parser, q.rest = p.rest → reads .primary q) →
      reads .primary (p.before (.reference id)))
    (paren : ∀ p : Parser, p.broken = false →
      (∀ q : Parser, q.rest = p.rest → reads (.chain .additive) q) →
      reads .primary (p.before (.symbol .openParen)))
    (bar : ∀ p : Parser, p.broken = false →
      (∀ q : Parser, q.rest = p.rest → reads (.chain .additive) q) →
      reads .primary (p.before (.symbol .bar)))
    (other : ∀ token (p : Parser), p.broken = false → token.startsOperand = false →
      token ≠ .symbol .bar → reads .primary (p.before token))
    (c : Category) (p : Parser) : reads c p := by
  have hall := Parser.chain.mutual_induct (fun level p => reads (.chain level) p) goesOn
    (fun level p => reads level.operand p) (reads .signed) (reads .primary)
    ?chain ?chainBroken ?chainEnd ?chainOther ?chainDeep ?chainMore ?additive ?multiplicative
    ?power ?sign ?noSign ?noSymbol ?broken ?nothing ?number ?var ?function ?reference ?paren ?bar
    ?other
  · obtain ⟨hchain, -, -, hsigned, hprimary⟩ := hall
    cases c with
    | chain level => exact hchain level p
    | signed => exact hsigned p
    | primary => exact hprimary p
  case chain =>
    intro level p first ihFirst _ ihRest
    have hread : first = read level.operand p := operand_eq_read level p
    exact chain level p ihFirst (hread ▸ ihRest)
  case chainBroken => exact chainBroken
  case chainEnd =>
    intro level left p hbroken hnext
    refine chainEnd level left p (eq_false_of_ne_true hbroken) ?_
    simp [rest_eq_nil_of_next? hnext]
  case chainOther =>
    intro level left p hbroken token q hnext hop
    refine chainEnd level left p (eq_false_of_ne_true hbroken) ?_
    simp [rest_eq_of_next? hnext, hop]
  case chainDeep =>
    intro level left p hbroken token q hnext op hop hdesc
    obtain ⟨rfl, hq⟩ := before_of_next? hbroken hnext
    obtain ⟨rfl, rfl⟩ := eq_symbol_of_op? hop
    exact chainDeep op left q hq (not_lt_of_descend? hdesc)
  case chainMore =>
    intro level left p hbroken token q hnext op hop q' hdesc right ihRight _ ihRest
    obtain ⟨rfl, hq⟩ := before_of_next? hbroken hnext
    obtain ⟨rfl, rfl⟩ := eq_symbol_of_op? hop
    obtain ⟨hdepth, rfl⟩ := eq_deeper_of_descend? hdesc
    have hread : right = read op.level.operand (q.deeper hdepth) := operand_eq_read _ _
    exact chainMore op left q hdepth hq ihRight (hread ▸ ihRest)
  case additive | multiplicative | power => exact fun _ ih => ih
  case sign =>
    intro p symbol q hnext op hop ih
    obtain rfl := eq_before_of_next? hnext
    obtain rfl := eq_symbol_of_unaryOp? hop
    exact sign op q ih
  case noSign =>
    intro p symbol q hnext hop ih
    exact bare p (rest_ne_sign_of_unaryOp? hnext hop) ih
  case noSymbol =>
    intro p hnext ih
    exact bare p (rest_ne_sign_of_next? hnext) ih
  case broken => exact broken
  case nothing =>
    intro p hbroken hnext
    exact nothing p (eq_false_of_ne_true hbroken) (rest_eq_nil_of_next? hnext)
  case number =>
    intro p hbroken q value hnext _
    obtain ⟨rfl, hq⟩ := before_of_next? hbroken hnext
    exact number value q hq
  case var =>
    intro p hbroken q name hnext _
    obtain ⟨rfl, hq⟩ := before_of_next? hbroken hnext
    exact var name q hq
  case function =>
    intro p hbroken q f hnext _ ih
    obtain ⟨rfl, hq⟩ := before_of_next? hbroken hnext
    exact function f q hq ih
  case reference =>
    intro p hbroken q id hnext _ ih
    obtain ⟨rfl, hq⟩ := before_of_next? hbroken hnext
    exact reference id q hq ih
  case paren =>
    intro p hbroken q hnext _ ih
    obtain ⟨rfl, hq⟩ := before_of_next? hbroken hnext
    exact paren q hq ih
  case bar =>
    intro p hbroken q hnext _ ih
    obtain ⟨rfl, hq⟩ := before_of_next? hbroken hnext
    exact bar q hq ih
  case other =>
    intro p hbroken token q hnext _ hnumber hvar hfunction hreference hparen hbar
    obtain ⟨rfl, hq⟩ := before_of_next? hbroken hnext
    refine other token q hq ?_ fun heq => hbar (heq ▸ rfl) heq (heq ▸ HEq.rfl)
    cases token with
    | number value => exact (hnumber value rfl rfl HEq.rfl).elim
    | var name => exact (hvar name rfl rfl HEq.rfl).elim
    | function f => exact (hfunction f rfl rfl HEq.rfl).elim
    | reference id => exact (hreference id rfl rfl HEq.rfl).elim
    | invalid => rfl
    | symbol sign =>
      cases sign with
      | openParen => exact (hparen rfl rfl HEq.rfl).elim
      | _ => rfl

end Parser

end Formulary
