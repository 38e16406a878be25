import Formulary.Parser

/-!
# The grammar of formulas

A `Phrase` is a derivation of the grammar, written out as a tree that keeps every bracket and
every sign. Its `Category` is what it derives : a chain of one of the three levels of operators,
a primary with signs before it, or a primary. A chain is a first operand and a `Tail`, which is
the operators that follow with an operand each.

`Phrase.tokens` is what a phrase reads as, `Phrase.tree` is the expression that it stands for,
where chains group to the left, and `Phrase.cost` is the depth of nesting that it takes to read.
Nothing here mentions the parser.

The grammar is unambiguous : `Phrase.eq_of_tokens_append` says that two phrases of one category
that begin the same list of tokens are the same, where neither is followed by an operator that
would carry it on (`Category.Ends`).
-/

namespace Formulary

/-! ## Phrases -/

/-- The symbol that the operator is written with. -/
def BinaryOp.symbol : BinaryOp → Symbol
  | add => .plus
  | sub => .minus
  | mul => .times
  | div => .divide
  | pow => .power

/-- The symbol that the sign is written with. -/
def UnaryOp.symbol : UnaryOp → Symbol
  | pos => .plus
  | neg => .minus

theorem BinaryOp.symbol_injective {op other : BinaryOp} (h : op.symbol = other.symbol) :
    op = other := by
  cases op <;> cases other <;> first | rfl | cases h

theorem UnaryOp.symbol_injective {op other : UnaryOp} (h : op.symbol = other.symbol) :
    op = other := by
  cases op <;> cases other <;> first | rfl | cases h

/-- What a phrase derives. -/
inductive Category where
  | chain (level : Level)
  | signed
  | primary
  deriving DecidableEq, Repr

/-- What the operands of a chain of this level are. -/
def Level.operand : Level → Category
  | additive => .chain .multiplicative
  | multiplicative => .chain .power
  | power => .signed

mutual

/-- A derivation of the grammar. -/
inductive Phrase : Category → Type where
  | number (value : Float) : Phrase .primary
  | var (name : Variable) : Phrase .primary
  /-- A function with its argument, a single primary. -/
  | apply (f : MathFunction) (argument : Phrase .primary) : Phrase .primary
  /-- A reference with its argument, a single primary. -/
  | call (id : FunctionId) (argument : Phrase .primary) : Phrase .primary
  | paren (inner : Phrase (.chain .additive)) : Phrase .primary
  | abs (inner : Phrase (.chain .additive)) : Phrase .primary
  /-- A primary without a sign. -/
  | bare (operand : Phrase .primary) : Phrase .signed
  | sign (op : UnaryOp) (operand : Phrase .signed) : Phrase .signed
  | chain {level : Level} (first : Phrase level.operand) (rest : Tail level) :
    Phrase (.chain level)

/-- The operators of a chain with the operands after them. -/
inductive Tail : Level → Type where
  | done {level : Level} : Tail level
  | more {level : Level} (op : BinaryOp) (hop : op.level = level)
    (operand : Phrase level.operand) (rest : Tail level) : Tail level

end

/-- A derivation of a whole formula. -/
abbrev Derivation := Phrase (.chain .additive)

mutual

/-- The tokens of the phrase. -/
def Phrase.tokens {c : Category} : Phrase c → List Token
  | .number value => [.number value]
  | .var name => [.var name]
  | .apply f argument => .function f :: argument.tokens
  | .call id argument => .reference id :: argument.tokens
  | .paren inner => .symbol .openParen :: (inner.tokens ++ [.symbol .closeParen])
  | .abs inner => .symbol .bar :: (inner.tokens ++ [.symbol .bar])
  | .bare operand => operand.tokens
  | .sign op operand => .symbol op.symbol :: operand.tokens
  | .chain first rest => first.tokens ++ rest.tokens

/-- The tokens of the operators and the operands. -/
def Tail.tokens {level : Level} : Tail level → List Token
  | .done => []
  | .more op _ operand rest => .symbol op.symbol :: (operand.tokens ++ rest.tokens)

end

mutual

/-- The expression that the phrase stands for. -/
def Phrase.tree {c : Category} : Phrase c → Expr
  | .number value => .literal value
  | .var name => .var name
  | .apply f argument => .apply f argument.tree
  | .call id argument => .call id argument.tree
  | .paren inner => inner.tree
  | .abs inner => .abs inner.tree
  | .bare operand => operand.tree
  | .sign op operand => .unary op operand.tree
  | .chain first rest => rest.treeFrom first.tree

/-- The expression of a chain of which `left` is read and the tail is ahead. -/
def Tail.treeFrom {level : Level} (left : Expr) : Tail level → Expr
  | .done => left
  | .more op _ operand rest => rest.treeFrom (.binary left op operand.tree)

end

mutual

/-- The depth of nesting that it takes to read the phrase. -/
def Phrase.cost {c : Category} : Phrase c → Nat
  | .number _ | .var _ => 0
  | .apply _ argument | .call _ argument => 1 + argument.cost
  | .paren inner | .abs inner => 1 + inner.cost
  | .bare operand => operand.cost
  | .sign _ operand => 1 + operand.cost
  | .chain first rest => max first.cost (rest.costFrom 1)

/-- The same for the operands, the first of which is the `k`-th of its chain : the `k`-th operand
is read `k` levels deeper than the chain. -/
def Tail.costFrom {level : Level} (k : Nat) : Tail level → Nat
  | .done => 0
  | .more _ _ operand rest => max (k + operand.cost) (rest.costFrom (k + 1))

end

/-- Operands that stand one place later in a chain cost one level more. -/
theorem Tail.max_costFrom_succ {level : Level} (k : Nat) : ∀ t : Tail level,
    max 1 (t.costFrom (k + 1)) = t.costFrom k + 1
  | .done => rfl
  | .more _ _ operand rest => by
    have := rest.max_costFrom_succ (k + 1)
    simp only [costFrom]
    omega

/-! ## Ends of phrases -/

/-- A phrase of this category ends before `rest` : what is ahead is no operator that a chain in
the phrase would go on with. -/
def Category.Ends : Category → List Token → Prop
  | .chain level, rest =>
    ∀ op : BinaryOp, rest.head? = some (.symbol op.symbol) → level.rank < op.level.rank
  | .signed, _ | .primary, _ => True

namespace Category

theorem ends_nil (c : Category) : c.Ends [] := by
  cases c <;> simp [Ends]

/-- An operand ends before the operators of its own chain, and of chains further out. -/
theorem ends_operand_iff {level : Level} {rest : List Token} : level.operand.Ends rest ↔
    ∀ op : BinaryOp, rest.head? = some (.symbol op.symbol) → level.rank ≤ op.level.rank := by
  cases level with
  | additive => rfl
  | multiplicative => rfl
  | power => simp [Level.operand, Ends, Level.rank]

/-- What ends a chain ends its operands. -/
theorem Ends.operand {level : Level} {rest : List Token} (h : (chain level).Ends rest) :
    level.operand.Ends rest :=
  ends_operand_iff.mpr fun op hop => Nat.le_of_lt (h op hop)

theorem ends_operand_symbol (op : BinaryOp) (rest : List Token) :
    op.level.operand.Ends (.symbol op.symbol :: rest) := by
  refine ends_operand_iff.mpr fun other h => ?_
  have hsymbol : op.symbol = other.symbol := by simpa using h
  exact Nat.le_of_eq (by rw [BinaryOp.symbol_injective hsymbol])

theorem ends_closeParen (c : Category) (rest : List Token) :
    c.Ends (.symbol .closeParen :: rest) := by
  cases c with
  | chain level => intro op h; cases op <;> simp [BinaryOp.symbol] at h
  | signed => trivial
  | primary => trivial

theorem ends_bar (c : Category) (rest : List Token) : c.Ends (.symbol .bar :: rest) := by
  cases c with
  | chain level => intro op h; cases op <;> simp [BinaryOp.symbol] at h
  | signed => trivial
  | primary => trivial

end Category

/-- The operands of a chain end before its tail and what ends the chain. -/
theorem Tail.ends_operand {level : Level} (t : Tail level) {rest : List Token}
    (h : (Category.chain level).Ends rest) : level.operand.Ends (t.tokens ++ rest) := by
  cases t with
  | done => exact h.operand
  | more op hop operand tail => subst hop; exact Category.ends_operand_symbol op _

/-! ## Unambiguity -/

/-- No primary begins with a sign. -/
theorem Phrase.tokens_append_ne_sign (p : Phrase .primary) (op : UnaryOp) (rest more : List Token) :
    p.tokens ++ rest ≠ .symbol op.symbol :: more := by
  cases p <;> cases op <;> simp [Phrase.tokens, UnaryOp.symbol]

mutual

/-- Two phrases that begin the same tokens are the same, and so is what follows them. -/
theorem Phrase.eq_of_tokens_append {c : Category} (d d' : Phrase c) {rest rest' : List Token}
    (hrest : c.Ends rest) (hrest' : c.Ends rest') (h : d.tokens ++ rest = d'.tokens ++ rest') :
    d = d' ∧ rest = rest' := by
  cases d with
  | number value => cases d' <;> simp_all [Phrase.tokens]
  | var name => cases d' <;> simp_all [Phrase.tokens]
  | apply f argument =>
    cases d' with
    | apply g argument' =>
      obtain ⟨hhead, htail⟩ := List.cons.inj h
      obtain ⟨rfl, rfl⟩ := argument.eq_of_tokens_append argument' trivial trivial htail
      exact ⟨by rw [Token.function.inj hhead], rfl⟩
    | _ => simp [Phrase.tokens] at h
  | call id argument =>
    cases d' with
    | call id' argument' =>
      obtain ⟨hhead, htail⟩ := List.cons.inj h
      obtain ⟨rfl, rfl⟩ := argument.eq_of_tokens_append argument' trivial trivial htail
      exact ⟨by rw [Token.reference.inj hhead], rfl⟩
    | _ => simp [Phrase.tokens] at h
  | paren inner =>
    cases d' with
    | paren inner' =>
      obtain ⟨rfl, hrest⟩ := inner.eq_of_tokens_append inner' (Category.ends_closeParen _ rest)
        (Category.ends_closeParen _ rest') (by simpa [Phrase.tokens] using h)
      exact ⟨rfl, List.tail_eq_of_cons_eq hrest⟩
    | _ => simp [Phrase.tokens] at h
  | abs inner =>
    cases d' with
    | abs inner' =>
      obtain ⟨rfl, hrest⟩ := inner.eq_of_tokens_append inner' (Category.ends_bar _ rest)
        (Category.ends_bar _ rest') (by simpa [Phrase.tokens] using h)
      exact ⟨rfl, List.tail_eq_of_cons_eq hrest⟩
    | _ => simp [Phrase.tokens] at h
  | bare operand =>
    cases d' with
    | bare operand' =>
      obtain ⟨rfl, rfl⟩ := operand.eq_of_tokens_append operand' trivial trivial h
      exact ⟨rfl, rfl⟩
    | sign op operand' => exact absurd h (operand.tokens_append_ne_sign op rest _)
  | sign op operand =>
    cases d' with
    | bare operand' => exact absurd h.symm (operand'.tokens_append_ne_sign op rest' _)
    | sign op' operand' =>
      obtain ⟨hhead, htail⟩ := List.cons.inj h
      obtain ⟨rfl, rfl⟩ := operand.eq_of_tokens_append operand' trivial trivial htail
      exact ⟨by rw [UnaryOp.symbol_injective (Token.symbol.inj hhead)], rfl⟩
  | chain first tail =>
    cases d' with
    | chain first' tail' =>
      simp only [Phrase.tokens, List.append_assoc] at h
      obtain ⟨rfl, htail⟩ := first.eq_of_tokens_append first' (tail.ends_operand hrest)
        (tail'.ends_operand hrest') h
      obtain ⟨rfl, rfl⟩ := tail.eq_of_tokens_append tail' hrest hrest' htail
      exact ⟨rfl, rfl⟩

/-- The same for the tails of two chains. -/
theorem Tail.eq_of_tokens_append {level : Level} (t t' : Tail level) {rest rest' : List Token}
    (hrest : (Category.chain level).Ends rest) (hrest' : (Category.chain level).Ends rest')
    (h : t.tokens ++ rest = t'.tokens ++ rest') : t = t' ∧ rest = rest' := by
  match t, t' with
  | .done, .done => exact ⟨rfl, h⟩
  | .done, .more op hop _ _ =>
    -- the operator of the longer tail would carry the shorter one on
    have hlt := hrest op (congrArg List.head? h)
    exact absurd (hop ▸ hlt) (Nat.lt_irrefl _)
  | .more op hop _ _, .done =>
    have hlt := hrest' op (congrArg List.head? h.symm)
    exact absurd (hop ▸ hlt) (Nat.lt_irrefl _)
  | .more op hop operand tail, .more op' hop' operand' tail' =>
    simp only [Tail.tokens, List.cons_append, List.append_assoc, List.cons.injEq,
      Token.symbol.injEq] at h
    have hsame := BinaryOp.symbol_injective h.1
    obtain ⟨rfl, htail⟩ := operand.eq_of_tokens_append operand' (tail.ends_operand hrest)
      (tail'.ends_operand hrest') h.2
    obtain ⟨rfl, rfl⟩ := tail.eq_of_tokens_append tail' hrest hrest' htail
    subst hsame
    exact ⟨rfl, rfl⟩

end

/-- A list of tokens has one derivation at most. -/
theorem Phrase.tokens_injective {c : Category} {d d' : Phrase c} (h : d.tokens = d'.tokens) :
    d = d' :=
  (d.eq_of_tokens_append d' c.ends_nil c.ends_nil (by rw [h])).1

end Formulary
