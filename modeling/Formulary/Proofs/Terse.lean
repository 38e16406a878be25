import Formulary.Proofs.Products

/-!
# Products without a sign

The terse grammar is the grammar of formulas where a product may go without its sign. A
`TersePhrase` is a derivation of it, with tokens and a tree of its own, and
`TersePhrase.explicit` is the phrase that has every sign.

The terse grammar is ambiguous, by its bars : `|x|y|z|` is `|x|` times `y` times `|z|`, and it is
the absolute value of `x` times `|y|` times `z`. The pass that writes products out takes the first
of the two, as a bar closes an absolute value whenever it can. `TersePhrase.BarsApart` is the
condition that says which derivations are left : no absolute value that opens directly after an
operand lies inside another one. Under it
* `TersePhrase.writeProducts_tokens` : the pass turns the tokens of a terse phrase into those of
  the phrase with every sign,
* `Phrase.exists_terse` : nothing else is turned into them,
* `TersePhrase.eq_of_explicit` : and no two terse phrases with the same tokens are.
What carries each induction is again the place between two tokens (`Juncture`), where the
absolute values that the pass counts as open are those that the phrase lies in. Hence the pass
accepts the tokens of the derivations with bars apart and no others, and means by every bar what
the derivation does (`writeProducts_derives_iff`).
-/

namespace Formulary

/-! ## The terse grammar -/

mutual

/-- A derivation of the grammar where products may go without a sign. -/
inductive TersePhrase : Category → Type where
  | number (value : Float) : TersePhrase .primary
  | var (name : Variable) : TersePhrase .primary
  | apply (f : MathFunction) (argument : TersePhrase .primary) : TersePhrase .primary
  | call (id : FunctionId) (argument : TersePhrase .primary) : TersePhrase .primary
  | paren (inner : TersePhrase (.chain .additive)) : TersePhrase .primary
  | abs (inner : TersePhrase (.chain .additive)) : TersePhrase .primary
  | bare (operand : TersePhrase .primary) : TersePhrase .signed
  | sign (op : UnaryOp) (operand : TersePhrase .signed) : TersePhrase .signed
  | chain {level : Level} (first : TersePhrase level.operand) (rest : TerseTail level) :
    TersePhrase (.chain level)

/-- The operators of a chain with the operands after them. -/
inductive TerseTail : Level → Type where
  | done {level : Level} : TerseTail level
  | more {level : Level} (op : BinaryOp) (hop : op.level = level)
    (operand : TersePhrase level.operand) (rest : TerseTail level) : TerseTail level
  /-- A product without a sign. Its right operand, a chain of powers, begins with a primary and
  not with a sign, which would be an operator here. -/
  | beside (first : TersePhrase .primary) (powers : TerseTail .power)
    (rest : TerseTail .multiplicative) : TerseTail .multiplicative

end

/-- A terse derivation of a whole formula. -/
abbrev TerseDerivation := TersePhrase (.chain .additive)

mutual

/-- The tokens of the phrase. -/
def TersePhrase.tokens {c : Category} : TersePhrase c → List Token
  | .number value => [.number value]
  | .var name => [.var name]
  | .apply f argument => .function f :: argument.tokens
  | .call id argument => .reference id :: argument.tokens
  | .paren inner => .symbol .openParen :: (inner.tokens ++ [.symbol .closeParen])
  | .abs inner => .symbol .bar :: (inner.tokens ++ [.symbol .bar])
  | .bare operand => operand.tokens
  | .sign op operand => .symbol op.symbol :: operand.tokens
  | .chain first rest => first.tokens ++ rest.tokens

/-- The tokens of the operators and the operands. -/
def TerseTail.tokens {level : Level} : TerseTail level → List Token
  | .done => []
  | .more op _ operand rest => .symbol op.symbol :: (operand.tokens ++ rest.tokens)
  | .beside first powers rest => first.tokens ++ (powers.tokens ++ rest.tokens)

end

mutual

/-- The expression that the phrase stands for. -/
def TersePhrase.tree {c : Category} : TersePhrase c → Expr
  | .number value => .literal value
  | .var name => .var name
  | .apply f argument => .apply f argument.tree
  | .call id argument => .call id argument.tree
  | .paren inner => inner.tree
  | .abs inner => .abs inner.tree
  | .bare operand => operand.tree
  | .sign op operand => .unary op operand.tree
  | .chain first rest => rest.treeFrom first.tree

/-- The expression of a chain of which `left` is read and the tail is ahead. -/
def TerseTail.treeFrom {level : Level} (left : Expr) : TerseTail level → Expr
  | .done => left
  | .more op _ operand rest => rest.treeFrom (.binary left op operand.tree)
  | .beside first powers rest => rest.treeFrom (.binary left .mul (powers.treeFrom first.tree))

end

/-- The terse grammar is ambiguous : `|x|x|x|` is a product of three factors, and it is the
absolute value of one. -/
example : ∃ d d' : TerseDerivation, d.tokens = d'.tokens ∧ d.tree ≠ d'.tree :=
  let x : TersePhrase .primary := .var .bound
  let alone (p : TersePhrase .primary) : TerseDerivation :=
    .chain (.chain (.chain (.bare p) .done) .done) .done
  let product (p q r : TersePhrase .primary) : TerseDerivation :=
    .chain (.chain (.chain (.bare p) .done) (.beside q .done (.beside r .done .done))) .done
  ⟨product (.abs (alone x)) x (.abs (alone x)), alone (.abs (product x (.abs (alone x)) x)),
    rfl, nofun⟩

/-- The primary is an absolute value. -/
def TersePhrase.isAbs : TersePhrase .primary → Bool
  | .abs _ => true
  | _ => false

mutual

/-- In the phrase, which `bars` absolute values lie around, no absolute value that opens directly
after an operand lies inside another one. -/
def TersePhrase.BarsApart {c : Category} (bars : Nat) : TersePhrase c → Prop
  | .number _ | .var _ => True
  | .apply _ argument | .call _ argument => argument.BarsApart bars
  | .paren inner => inner.BarsApart bars
  | .abs inner => inner.BarsApart (bars + 1)
  | .bare operand => operand.BarsApart bars
  | .sign _ operand => operand.BarsApart bars
  | .chain first rest => first.BarsApart bars ∧ rest.BarsApart bars

/-- The same for a tail. Only a product without a sign has an operand directly before it. -/
def TerseTail.BarsApart {level : Level} (bars : Nat) : TerseTail level → Prop
  | .done => True
  | .more _ _ operand rest => operand.BarsApart bars ∧ rest.BarsApart bars
  | .beside first powers rest =>
    (first.isAbs → bars = 0) ∧ first.BarsApart bars ∧ powers.BarsApart bars ∧ rest.BarsApart bars

end

mutual

/-- Without bars there is nothing to keep apart. -/
theorem TersePhrase.barsApart_of_not_mem {c : Category} (d : TersePhrase c) (bars : Nat)
    (h : .symbol .bar ∉ d.tokens) : d.BarsApart bars := by
  match d with
  | .number _ | .var _ => trivial
  | .apply _ argument | .call _ argument =>
    exact argument.barsApart_of_not_mem bars fun hmem => h (List.mem_cons_of_mem _ hmem)
  | .paren inner =>
    exact inner.barsApart_of_not_mem bars fun hmem => h (by simp [TersePhrase.tokens, hmem])
  | .abs inner => exact absurd (by simp [TersePhrase.tokens]) h
  | .bare operand => exact operand.barsApart_of_not_mem bars h
  | .sign _ operand =>
    exact operand.barsApart_of_not_mem bars fun hmem => h (List.mem_cons_of_mem _ hmem)
  | .chain first rest =>
    simp only [TersePhrase.tokens, List.mem_append, not_or] at h
    exact ⟨first.barsApart_of_not_mem bars h.1, rest.barsApart_of_not_mem bars h.2⟩

/-- The same for a tail. -/
theorem TerseTail.barsApart_of_not_mem {level : Level} (t : TerseTail level) (bars : Nat)
    (h : .symbol .bar ∉ t.tokens) : t.BarsApart bars := by
  match t with
  | .done => trivial
  | .more _ _ operand rest =>
    simp only [TerseTail.tokens, List.mem_cons, List.mem_append, not_or] at h
    exact ⟨operand.barsApart_of_not_mem bars h.2.1, rest.barsApart_of_not_mem bars h.2.2⟩
  | .beside first powers rest =>
    simp only [TerseTail.tokens, List.mem_append, not_or] at h
    have habs : first.isAbs → bars = 0 := fun hbar => by
      cases first with
      | abs inner => exact absurd (by simp [TersePhrase.tokens]) h.1
      | _ => cases hbar
    exact ⟨habs, first.barsApart_of_not_mem bars h.1, powers.barsApart_of_not_mem bars h.2.1,
      rest.barsApart_of_not_mem bars h.2.2⟩

end

/-! ## Signs for the products -/

mutual

/-- The phrase with a sign for each of its products. -/
def TersePhrase.explicit {c : Category} : TersePhrase c → Phrase c
  | .number value => .number value
  | .var name => .var name
  | .apply f argument => .apply f argument.explicit
  | .call id argument => .call id argument.explicit
  | .paren inner => .paren inner.explicit
  | .abs inner => .abs inner.explicit
  | .bare operand => .bare operand.explicit
  | .sign op operand => .sign op operand.explicit
  | .chain first rest => .chain first.explicit rest.explicit

/-- The same for a tail. -/
def TerseTail.explicit {level : Level} : TerseTail level → Tail level
  | .done => .done
  | .more op hop operand rest => .more op hop operand.explicit rest.explicit
  | .beside first powers rest =>
    .more .mul rfl (.chain (.bare first.explicit) powers.explicit) rest.explicit

end

mutual

/-- The signs do not change what the phrase stands for. -/
@[simp] theorem TersePhrase.tree_explicit {c : Category} (d : TersePhrase c) :
    d.explicit.tree = d.tree := by
  match d with
  | .number _ | .var _ => rfl
  | .apply _ argument | .call _ argument =>
    simp only [TersePhrase.explicit, Phrase.tree, TersePhrase.tree, argument.tree_explicit]
  | .paren inner | .abs inner =>
    simp only [TersePhrase.explicit, Phrase.tree, TersePhrase.tree, inner.tree_explicit]
  | .bare operand | .sign _ operand =>
    simp only [TersePhrase.explicit, Phrase.tree, TersePhrase.tree, operand.tree_explicit]
  | .chain first rest =>
    simp only [TersePhrase.explicit, Phrase.tree, TersePhrase.tree, first.tree_explicit,
      rest.treeFrom_explicit]

/-- The same for a tail. -/
theorem TerseTail.treeFrom_explicit {level : Level} (t : TerseTail level) (left : Expr) :
    t.explicit.treeFrom left = t.treeFrom left := by
  match t with
  | .done => rfl
  | .more _ _ operand rest =>
    simp only [TerseTail.explicit, Tail.treeFrom, TerseTail.treeFrom, operand.tree_explicit,
      rest.treeFrom_explicit]
  | .beside first powers rest =>
    simp only [TerseTail.explicit, Tail.treeFrom, Phrase.tree, TerseTail.treeFrom,
      first.tree_explicit, powers.treeFrom_explicit, rest.treeFrom_explicit]

end

/-! ## What the pass writes -/

namespace Juncture

/-- No bar closes an absolute value where an operand is due. -/
theorem closesBar_of_operand_due (bars : Nat) : closesBar ⟨bars, false⟩ = false :=
  Bool.and_false _

/-- A bar that a product is written before opens an absolute value. -/
theorem closesBar_of_needsProduct {j : Juncture} (h : j.needsProduct (.symbol .bar)) :
    j.closesBar = false := by
  simp only [needsProduct, startsOperand, Bool.and_eq_true, Bool.not_eq_true'] at h
  exact h.2

/-- A token that a product is written before does the same after the sign of the product. -/
theorem next_of_needsProduct {j : Juncture} {token : Token} (h : j.needsProduct token) :
    next ⟨j.openBars, false⟩ token = j.next token := by
  unfold next
  split
  · rw [closesBar_of_operand_due, closesBar_of_needsProduct h]
  · rfl

/-- After the sign that it has written, the pass goes on as if no operand had ended. -/
theorem writeProducts_of_needsProduct {j : Juncture} {token : Token} (h : j.needsProduct token)
    (rest : List Token) : j.writeProducts (token :: rest) =
      .symbol .times :: writeProducts ⟨j.openBars, false⟩ (token :: rest) := by
  rw [writeProducts_cons, writeProducts_cons_of_not rfl, if_pos h, next_of_needsProduct h]
  rfl

theorem writeProducts_eq_nil_iff {j : Juncture} {tokens : List Token} :
    j.writeProducts tokens = [] ↔ tokens = [] := by
  cases tokens <;> simp [writeProducts_cons]

/-- The first token of what the pass writes is one that it has passed, or the sign of a product
that had none. -/
theorem eq_cons_or_needsProduct_of_writeProducts {j : Juncture} {tokens rest : List Token}
    {token : Token} (h : j.writeProducts tokens = token :: rest) :
    (∃ more, tokens = token :: more ∧ (j.next token).writeProducts more = rest) ∨
      token = .symbol .times ∧ writeProducts ⟨j.openBars, false⟩ tokens = rest ∧
        ∃ head ∈ tokens.head?, j.needsProduct head := by
  match tokens with
  | [] => cases h
  | head :: more =>
    by_cases hneeds : j.needsProduct head
    · rw [writeProducts_of_needsProduct hneeds] at h
      obtain ⟨hhead, hrest⟩ := List.cons.inj h
      exact .inr ⟨hhead.symm, hrest, head, rfl, hneeds⟩
    · rw [writeProducts_cons_of_not (by simpa using hneeds)] at h
      obtain ⟨rfl, hrest⟩ := List.cons.inj h
      exact .inl ⟨more, rfl, hrest⟩

/-- Any token but the sign of a product is one that the pass has passed. -/
theorem eq_cons_of_writeProducts {j : Juncture} {tokens rest : List Token} {token : Token}
    (h : j.writeProducts tokens = token :: rest) (htimes : token ≠ .symbol .times) :
    ∃ more, tokens = token :: more ∧ (j.next token).writeProducts more = rest := by
  obtain hpassed | ⟨hsign, -⟩ := eq_cons_or_needsProduct_of_writeProducts h
  · exact hpassed
  · exact absurd hsign htimes

end Juncture

/-- Where a primary stands directly after an operand, the pass writes a sign before it, unless
the primary begins with a bar that closes an absolute value. -/
theorem TersePhrase.writeProducts_tokens_beside (p : TersePhrase .primary) {bars : Nat}
    (h : p.isAbs → bars = 0) (rest : List Token) :
    Juncture.writeProducts ⟨bars, true⟩ (p.tokens ++ rest) =
      .symbol .times :: Juncture.writeProducts ⟨bars, false⟩ (p.tokens ++ rest) := by
  cases p with
  | abs inner =>
    obtain rfl := h rfl
    exact Juncture.writeProducts_of_needsProduct rfl _
  | _ => exact Juncture.writeProducts_of_needsProduct rfl _

mutual

/-- The pass turns the tokens of a terse phrase into those of the phrase with every sign. -/
theorem TersePhrase.writeProducts_tokens {c : Category} (d : TersePhrase c) {bars : Nat}
    (h : d.BarsApart bars) (rest : List Token) :
    Juncture.writeProducts ⟨bars, false⟩ (d.tokens ++ rest) =
      d.explicit.tokens ++ Juncture.writeProducts ⟨bars, true⟩ rest := by
  match d with
  | .number _ | .var _ => exact Juncture.writeProducts_cons_of_operand_due bars _ rest
  | .apply _ argument | .call _ argument =>
    simp only [TersePhrase.explicit, TersePhrase.tokens, Phrase.tokens, List.cons_append]
    rw [Juncture.writeProducts_cons_of_operand_due]
    exact congrArg _ (argument.writeProducts_tokens h rest)
  | .paren inner =>
    simp only [TersePhrase.explicit, TersePhrase.tokens, Phrase.tokens, List.cons_append,
      List.append_assoc, List.nil_append]
    rw [Juncture.writeProducts_cons_of_operand_due, ← Juncture.writeProducts_closeParen]
    exact congrArg _ (inner.writeProducts_tokens h _)
  | .abs inner =>
    simp only [TersePhrase.explicit, TersePhrase.tokens, Phrase.tokens, List.cons_append,
      List.append_assoc, List.nil_append]
    rw [Juncture.writeProducts_cons_of_operand_due, Juncture.next_bar_open,
      inner.writeProducts_tokens h, Juncture.writeProducts_bar_close]
  | .bare operand => exact operand.writeProducts_tokens h rest
  | .sign op operand =>
    simp only [TersePhrase.explicit, TersePhrase.tokens, Phrase.tokens, List.cons_append]
    rw [Juncture.writeProducts_cons_of_operand_due, Juncture.next_sign,
      operand.writeProducts_tokens h]
  | .chain first tail =>
    simp only [TersePhrase.explicit, TersePhrase.tokens, Phrase.tokens, List.append_assoc]
    rw [first.writeProducts_tokens h.1, tail.writeProducts_tokens h.2]

/-- The same for a tail, which begins where an operand ends. -/
theorem TerseTail.writeProducts_tokens {level : Level} (t : TerseTail level) {bars : Nat}
    (h : t.BarsApart bars) (rest : List Token) :
    Juncture.writeProducts ⟨bars, true⟩ (t.tokens ++ rest) =
      t.explicit.tokens ++ Juncture.writeProducts ⟨bars, true⟩ rest := by
  match t with
  | .done => rfl
  | .more op hop operand tail =>
    simp only [TerseTail.explicit, TerseTail.tokens, Tail.tokens, List.cons_append,
      List.append_assoc]
    rw [Juncture.writeProducts_operator, operand.writeProducts_tokens h.1,
      tail.writeProducts_tokens h.2]
  | .beside first powers tail =>
    obtain ⟨habs, hfirst, hpowers, htail⟩ := h
    simp only [TerseTail.explicit, TerseTail.tokens, Tail.tokens, Phrase.tokens,
      List.cons_append, List.append_assoc]
    rw [first.writeProducts_tokens_beside habs, first.writeProducts_tokens hfirst,
      powers.writeProducts_tokens hpowers, tail.writeProducts_tokens htail]
    rfl

end

/-! ## What the pass reads -/

/-- The right operand of a product without a sign is a chain of powers. -/
theorem TerseTail.tokens_beside_append (first : TersePhrase .primary) (powers : TerseTail .power)
    (tail : TerseTail .multiplicative) (rest : List Token) :
    (TerseTail.beside first powers tail).tokens ++ rest =
      (.chain (.bare first) powers : TersePhrase (.chain .power)).tokens ++
        (tail.tokens ++ rest) := by
  simp [TerseTail.tokens, TersePhrase.tokens]

/-- No primary begins with the sign of an operation. -/
theorem TersePhrase.tokens_append_ne_symbol (p : TersePhrase .primary) (op : BinaryOp)
    (rest more : List Token) : p.tokens ++ rest ≠ .symbol op.symbol :: more := by
  cases p <;> cases op <;> simp [TersePhrase.tokens, BinaryOp.symbol]

/-- A chain of powers that the pass writes a product before begins with a primary. If that is an
absolute value, it lies in no other one. -/
theorem TersePhrase.exists_bare_of_needsProduct (operand : TersePhrase (.chain .power))
    {bars : Nat} {head : Token} {rest : List Token}
    (hhead : head ∈ (operand.tokens ++ rest).head?)
    (hneeds : (⟨bars, true⟩ : Juncture).needsProduct head) :
    ∃ first powers, operand = .chain (.bare first) powers ∧ (first.isAbs → bars = 0) := by
  match operand with
  | .chain (.bare (.abs inner)) powers =>
    obtain rfl : Token.symbol .bar = head := by simpa [TersePhrase.tokens] using hhead
    have hzero : bars = 0 := by
      simpa [Juncture.needsProduct, Juncture.startsOperand, Juncture.closesBar] using hneeds
    exact ⟨.abs inner, powers, rfl, fun _ => hzero⟩
  | .chain (.bare (.number _)) powers | .chain (.bare (.var _)) powers
  | .chain (.bare (.apply _ _)) powers | .chain (.bare (.call _ _)) powers
  | .chain (.bare (.paren _)) powers =>
    exact ⟨_, powers, rfl, fun habs => absurd habs Bool.noConfusion⟩
  | .chain (.sign op _) _ =>
    obtain rfl : Token.symbol op.symbol = head := by simpa [TersePhrase.tokens] using hhead
    cases op <;> cases hneeds

mutual

/-- If what the pass writes begins with a phrase, what it has passed begins with a terse phrase
that the signs make into it. -/
theorem Phrase.exists_terse {c : Category} (d : Phrase c) {bars : Nat} {tokens rest : List Token}
    (h : Juncture.writeProducts ⟨bars, false⟩ tokens = d.tokens ++ rest) :
    ∃ d' : TersePhrase c, ∃ more, d'.explicit = d ∧ d'.BarsApart bars ∧
      tokens = d'.tokens ++ more ∧ Juncture.writeProducts ⟨bars, true⟩ more = rest := by
  match d with
  | .number value =>
    obtain ⟨more, rfl, hmore⟩ := Juncture.eq_cons_of_writeProducts h nofun
    exact ⟨.number value, more, rfl, trivial, rfl, hmore⟩
  | .var name =>
    obtain ⟨more, rfl, hmore⟩ := Juncture.eq_cons_of_writeProducts h nofun
    exact ⟨.var name, more, rfl, trivial, rfl, hmore⟩
  | .apply f argument =>
    obtain ⟨more, rfl, hmore⟩ := Juncture.eq_cons_of_writeProducts h nofun
    obtain ⟨argument', more', rfl, hbars, rfl, hrest⟩ := argument.exists_terse hmore
    exact ⟨.apply f argument', more', rfl, hbars, rfl, hrest⟩
  | .call id argument =>
    obtain ⟨more, rfl, hmore⟩ := Juncture.eq_cons_of_writeProducts h nofun
    obtain ⟨argument', more', rfl, hbars, rfl, hrest⟩ := argument.exists_terse hmore
    exact ⟨.call id argument', more', rfl, hbars, rfl, hrest⟩
  | .paren inner =>
    simp only [Phrase.tokens, List.cons_append, List.append_assoc, List.nil_append] at h
    obtain ⟨more, rfl, hmore⟩ := Juncture.eq_cons_of_writeProducts h nofun
    obtain ⟨inner', more', rfl, hbars, rfl, hclose⟩ := inner.exists_terse hmore
    obtain ⟨more'', rfl, hrest⟩ := Juncture.eq_cons_of_writeProducts hclose nofun
    exact ⟨.paren inner', more'', rfl, hbars, by simp [TersePhrase.tokens], hrest⟩
  | .abs inner =>
    simp only [Phrase.tokens, List.cons_append, List.append_assoc, List.nil_append] at h
    obtain ⟨more, rfl, hmore⟩ := Juncture.eq_cons_of_writeProducts h nofun
    rw [Juncture.next_bar_open] at hmore
    obtain ⟨inner', more', rfl, hbars, rfl, hclose⟩ := inner.exists_terse hmore
    obtain ⟨more'', rfl, hrest⟩ := Juncture.eq_cons_of_writeProducts hclose nofun
    rw [Juncture.next_bar_close] at hrest
    exact ⟨.abs inner', more'', rfl, hbars, by simp [TersePhrase.tokens], hrest⟩
  | .bare operand =>
    obtain ⟨operand', more, rfl, hbars, rfl, hrest⟩ := operand.exists_terse h
    exact ⟨.bare operand', more, rfl, hbars, rfl, hrest⟩
  | .sign op operand =>
    have htimes : Token.symbol op.symbol ≠ .symbol .times := by cases op <;> nofun
    obtain ⟨more, rfl, hmore⟩ := Juncture.eq_cons_of_writeProducts h htimes
    rw [Juncture.next_sign] at hmore
    obtain ⟨operand', more', rfl, hbars, rfl, hrest⟩ := operand.exists_terse hmore
    exact ⟨.sign op operand', more', rfl, hbars, rfl, hrest⟩
  | .chain first tail =>
    simp only [Phrase.tokens, List.append_assoc] at h
    obtain ⟨first', more, rfl, hfirst, rfl, hmore⟩ := first.exists_terse h
    obtain ⟨tail', more', rfl, htail, rfl, hrest⟩ := tail.exists_terse hmore
    exact ⟨.chain first' tail', more', rfl, ⟨hfirst, htail⟩, by simp [TersePhrase.tokens], hrest⟩

/-- The same for a tail. The sign of a product is one that the pass has passed, or one that it has
written before a primary. -/
theorem Tail.exists_terse {level : Level} (t : Tail level) {bars : Nat} {tokens rest : List Token}
    (h : Juncture.writeProducts ⟨bars, true⟩ tokens = t.tokens ++ rest) :
    ∃ t' : TerseTail level, ∃ more, t'.explicit = t ∧ t'.BarsApart bars ∧
      tokens = t'.tokens ++ more ∧ Juncture.writeProducts ⟨bars, true⟩ more = rest := by
  match t with
  | .done => exact ⟨.done, tokens, rfl, trivial, rfl, h⟩
  | .more op hop operand tail =>
    simp only [Tail.tokens, List.cons_append, List.append_assoc] at h
    obtain ⟨more, rfl, hmore⟩ | ⟨hsign, hmore, head, hhead, hneeds⟩ :=
      Juncture.eq_cons_or_needsProduct_of_writeProducts h
    · rw [Juncture.next_operator] at hmore
      obtain ⟨operand', more', rfl, hoperand, rfl, hmore'⟩ := operand.exists_terse hmore
      obtain ⟨tail', more'', rfl, htail, rfl, hrest⟩ := tail.exists_terse hmore'
      exact ⟨.more op hop operand' tail', more'', rfl, ⟨hoperand, htail⟩,
        by simp [TerseTail.tokens], hrest⟩
    · obtain ⟨operand', more', rfl, hoperand, rfl, hmore'⟩ := operand.exists_terse hmore
      obtain ⟨tail', more'', rfl, htail, rfl, hrest⟩ := tail.exists_terse hmore'
      obtain rfl : op = .mul := BinaryOp.symbol_injective (Token.symbol.inj hsign)
      subst hop
      obtain ⟨first, powers, rfl, habs⟩ := operand'.exists_bare_of_needsProduct hhead hneeds
      exact ⟨.beside first powers tail', more'', rfl, ⟨habs, hoperand.1, hoperand.2, htail⟩,
        (TerseTail.tokens_beside_append first powers tail' more'').symm, hrest⟩

end

mutual

/-- Terse phrases that begin the same tokens, and that the signs make the same, are the same. -/
theorem TersePhrase.eq_of_explicit {c : Category} (d d' : TersePhrase c) {rest rest' : List Token}
    (hexplicit : d.explicit = d'.explicit) (h : d.tokens ++ rest = d'.tokens ++ rest') :
    d = d' ∧ rest = rest' := by
  match d, d' with
  | .number _, .number _ | .var _, .var _ =>
    obtain ⟨hhead, hrest⟩ := List.cons.inj h
    cases hhead
    exact ⟨rfl, hrest⟩
  | .apply f argument, .apply f' argument' | .call f argument, .call f' argument' =>
    injection hexplicit with hf hargument
    obtain ⟨rfl, hrest⟩ := argument.eq_of_explicit argument' hargument (List.cons.inj h).2
    exact ⟨by rw [hf], hrest⟩
  | .paren inner, .paren inner' | .abs inner, .abs inner' =>
    injection hexplicit with hinner
    obtain ⟨rfl, hrest⟩ := inner.eq_of_explicit inner' hinner
      (by simpa [TersePhrase.tokens] using h)
    exact ⟨rfl, List.tail_eq_of_cons_eq hrest⟩
  | .bare operand, .bare operand' =>
    injection hexplicit with hoperand
    obtain ⟨rfl, hrest⟩ := operand.eq_of_explicit operand' hoperand h
    exact ⟨rfl, hrest⟩
  | .sign op operand, .sign op' operand' =>
    injection hexplicit with hop hoperand
    obtain ⟨rfl, hrest⟩ := operand.eq_of_explicit operand' hoperand (List.cons.inj h).2
    exact ⟨by rw [hop], hrest⟩
  | .chain first tail, .chain first' tail' =>
    simp only [TersePhrase.explicit, Phrase.chain.injEq] at hexplicit
    simp only [TersePhrase.tokens, List.append_assoc] at h
    obtain ⟨rfl, htokens⟩ := first.eq_of_explicit first' hexplicit.1 h
    obtain ⟨rfl, hrest⟩ := tail.eq_of_explicit tail' hexplicit.2 htokens
    exact ⟨rfl, hrest⟩

/-- The same for two tails. -/
theorem TerseTail.eq_of_explicit {level : Level} (t t' : TerseTail level)
    {rest rest' : List Token} (hexplicit : t.explicit = t'.explicit)
    (h : t.tokens ++ rest = t'.tokens ++ rest') : t = t' ∧ rest = rest' := by
  match t, t' with
  | .done, .done => exact ⟨rfl, h⟩
  | .more op hop operand tail, .more op' hop' operand' tail' =>
    simp only [TerseTail.explicit, Tail.more.injEq] at hexplicit
    simp only [TerseTail.tokens, List.cons_append, List.append_assoc] at h
    obtain ⟨rfl, htokens⟩ :=
      operand.eq_of_explicit operand' hexplicit.2.1 (List.cons.inj h).2
    obtain ⟨rfl, hrest⟩ := tail.eq_of_explicit tail' hexplicit.2.2 htokens
    exact ⟨by simp only [hexplicit.1], hrest⟩
  | .beside first powers tail, .beside first' powers' tail' =>
    simp only [TerseTail.tokens, List.append_assoc] at h
    obtain ⟨-, hoperand, htail⟩ := Tail.more.inj hexplicit
    obtain ⟨hbare, hpowers⟩ := Phrase.chain.inj hoperand
    obtain ⟨rfl, htokens⟩ := first.eq_of_explicit first' (Phrase.bare.inj hbare) h
    obtain ⟨rfl, htokens'⟩ := powers.eq_of_explicit powers' hpowers htokens
    obtain ⟨rfl, hrest⟩ := tail.eq_of_explicit tail' htail htokens'
    exact ⟨rfl, hrest⟩
  -- the one tail has the sign that the other goes without
  | .more op _ _ _, .beside first _ _ =>
    simp only [TerseTail.tokens, List.append_assoc] at h
    exact absurd h.symm (first.tokens_append_ne_symbol op _ _)
  | .beside first _ _, .more op _ _ _ =>
    simp only [TerseTail.tokens, List.append_assoc] at h
    exact absurd h (first.tokens_append_ne_symbol op _ _)

end

/-- A derivation is of the tokens that the pass writes if and only if the signs make it of a terse
derivation of the tokens before, with bars apart. -/
theorem tokens_eq_writeProducts_iff {d : Derivation} {tokens : List Token} :
    d.tokens = writeProducts tokens ↔
      ∃ d' : TerseDerivation, d'.explicit = d ∧ d'.tokens = tokens ∧ d'.BarsApart 0 := by
  constructor
  · intro h
    have hwritten : Juncture.writeProducts ⟨0, false⟩ tokens = d.tokens ++ [] := by
      rw [List.append_nil, h]
      rfl
    obtain ⟨d', more, rfl, hbars, htokens, hmore⟩ := d.exists_terse hwritten
    obtain rfl := Juncture.writeProducts_eq_nil_iff.mp hmore
    exact ⟨d', rfl, by rw [htokens, List.append_nil], hbars⟩
  · rintro ⟨d', rfl, rfl, hbars⟩
    simpa [writeProducts] using (d'.writeProducts_tokens hbars []).symm

/-- A list of tokens has one terse derivation with bars apart at most. -/
theorem TersePhrase.eq_of_barsApart {d d' : TerseDerivation} (htokens : d.tokens = d'.tokens)
    (hbars : d.BarsApart 0) (hbars' : d'.BarsApart 0) : d = d' := by
  have hsigns : d.explicit.tokens = d'.explicit.tokens :=
    (tokens_eq_writeProducts_iff.mpr ⟨d, rfl, rfl, hbars⟩).trans
      (tokens_eq_writeProducts_iff.mpr ⟨d', rfl, htokens.symm, hbars'⟩).symm
  have happend : d.tokens ++ [] = d'.tokens ++ [] := by rw [htokens]
  exact (d.eq_of_explicit d' (Phrase.tokens_injective hsigns) happend).1

/-! ## What the bars do -/

/-- What a bar does. -/
inductive BarRole where
  | opens
  | closes
  deriving DecidableEq, Repr

namespace Juncture

/-- What the token at this place does, if it is a bar. -/
def barRole? (j : Juncture) : Token → Option BarRole
  | .symbol .bar => some (if j.closesBar then .closes else .opens)
  | _ => none

/-- What the bars of the tokens do, from first to last, where the pass counts them. -/
def barRoles (j : Juncture) : List Token → List BarRole
  | [] => []
  | token :: rest => (j.barRole? token).toList ++ (j.next token).barRoles rest

/-- A bar does the same after the sign of a product that the pass writes before it. -/
theorem barRole?_of_needsProduct {j : Juncture} {token : Token} (h : j.needsProduct token) :
    barRole? ⟨j.openBars, false⟩ token = j.barRole? token := by
  unfold barRole?
  split
  · rw [closesBar_of_operand_due, closesBar_of_needsProduct h]
  · rfl

/-- The signs that the pass writes do not change what the bars do. -/
theorem barRoles_writeProducts (j : Juncture) (tokens : List Token) :
    j.barRoles (j.writeProducts tokens) = j.barRoles tokens := by
  induction tokens generalizing j with
  | nil => rfl
  | cons token rest ih =>
    by_cases hneeds : j.needsProduct token
    · have hsign (more : List Token) :
          j.barRoles (.symbol .times :: more) = barRoles ⟨j.openBars, false⟩ more := rfl
      rw [writeProducts_cons, if_pos hneeds, List.singleton_append, hsign, barRoles, barRoles,
        barRole?_of_needsProduct hneeds, next_of_needsProduct hneeds, ih]
    · rw [writeProducts_cons_of_not (by simpa using hneeds), barRoles, barRoles, ih]

end Juncture

mutual

/-- What the bars of the phrase do, from first to last. -/
def Phrase.barRoles {c : Category} : Phrase c → List BarRole
  | .number _ | .var _ => []
  | .apply _ argument | .call _ argument => argument.barRoles
  | .paren inner => inner.barRoles
  | .abs inner => .opens :: (inner.barRoles ++ [.closes])
  | .bare operand | .sign _ operand => operand.barRoles
  | .chain first rest => first.barRoles ++ rest.barRoles

/-- The same for a tail. -/
def Tail.barRoles {level : Level} : Tail level → List BarRole
  | .done => []
  | .more _ _ operand rest => operand.barRoles ++ rest.barRoles

end

mutual

/-- Within a phrase the pass takes every bar for what it is. -/
theorem Phrase.barRoles_tokens {c : Category} (d : Phrase c) (bars : Nat) (rest : List Token) :
    Juncture.barRoles ⟨bars, false⟩ (d.tokens ++ rest) =
      d.barRoles ++ Juncture.barRoles ⟨bars, true⟩ rest := by
  match d with
  | .number _ | .var _ => rfl
  | .apply _ argument | .call _ argument => exact argument.barRoles_tokens bars rest
  | .paren inner =>
    simp only [Phrase.tokens, Phrase.barRoles, List.cons_append, List.append_assoc,
      List.nil_append]
    exact inner.barRoles_tokens bars _
  | .abs inner =>
    have hopens : (⟨bars, false⟩ : Juncture).barRole? (.symbol .bar) = some .opens := by
      simp [Juncture.barRole?, Juncture.closesBar]
    have hcloses : (⟨bars + 1, true⟩ : Juncture).barRole? (.symbol .bar) = some .closes := by
      simp [Juncture.barRole?, Juncture.closesBar]
    simp only [Phrase.tokens, Phrase.barRoles, List.cons_append, List.append_assoc,
      List.nil_append]
    rw [Juncture.barRoles, hopens, Juncture.next_bar_open, inner.barRoles_tokens,
      Juncture.barRoles, hcloses, Juncture.next_bar_close]
    rfl
  | .bare operand => exact operand.barRoles_tokens bars rest
  | .sign op operand =>
    cases op <;> exact operand.barRoles_tokens bars rest
  | .chain first tail =>
    simp only [Phrase.tokens, Phrase.barRoles, List.append_assoc]
    rw [first.barRoles_tokens, tail.barRoles_tokens]

/-- The same for a tail. -/
theorem Tail.barRoles_tokens {level : Level} (t : Tail level) (bars : Nat) (rest : List Token) :
    Juncture.barRoles ⟨bars, true⟩ (t.tokens ++ rest) =
      t.barRoles ++ Juncture.barRoles ⟨bars, true⟩ rest := by
  match t with
  | .done => rfl
  | .more op hop operand tail =>
    have hsign : Juncture.barRoles ⟨bars, true⟩ (.symbol op.symbol :: (operand.tokens ++
        (tail.tokens ++ rest))) = Juncture.barRoles ⟨bars, false⟩ (operand.tokens ++
        (tail.tokens ++ rest)) := by
      cases op <;> rfl
    simp only [Tail.tokens, Tail.barRoles, List.cons_append, List.append_assoc]
    rw [hsign, operand.barRoles_tokens, tail.barRoles_tokens]

end

/-! ## What the pass accepts -/

/-- The pass makes the tokens of a formula of exactly those lists that have a terse derivation
with bars apart, and the formula is what that derivation stands for. No list has two of them, a
list without bars needs no condition, and where a list is accepted each bar that the pass counts
as opening opens an absolute value of the formula, and each that it counts as closing closes one. -/
theorem writeProducts_derives_iff (tokens : List Token) :
    (∀ tree : Expr, (∃ d : Derivation, d.tokens = writeProducts tokens ∧ d.tree = tree) ↔
      ∃ d : TerseDerivation, d.tokens = tokens ∧ d.BarsApart 0 ∧ d.tree = tree) ∧
    (∀ d d' : TerseDerivation, d.tokens = tokens → d'.tokens = tokens → d.BarsApart 0 →
      d'.BarsApart 0 → d = d') ∧
    (.symbol .bar ∉ tokens → ∀ tree : Expr,
      (∃ d : Derivation, d.tokens = writeProducts tokens ∧ d.tree = tree) ↔
        ∃ d : TerseDerivation, d.tokens = tokens ∧ d.tree = tree) ∧
    ∀ d : Derivation, d.tokens = writeProducts tokens →
      d.barRoles = Juncture.barRoles {} tokens := by
  have haccepts (tree : Expr) : (∃ d : Derivation, d.tokens = writeProducts tokens ∧
      d.tree = tree) ↔ ∃ d : TerseDerivation, d.tokens = tokens ∧ d.BarsApart 0 ∧
        d.tree = tree := by
    constructor
    · rintro ⟨d, htokens, rfl⟩
      obtain ⟨d', rfl, htokens', hbars⟩ := tokens_eq_writeProducts_iff.mp htokens
      exact ⟨d', htokens', hbars, d'.tree_explicit.symm⟩
    · rintro ⟨d, htokens, hbars, rfl⟩
      exact ⟨d.explicit, tokens_eq_writeProducts_iff.mpr ⟨d, rfl, htokens, hbars⟩,
        d.tree_explicit⟩
  refine ⟨haccepts, fun d d' htokens htokens' hbars hbars' => ?_, fun hnobar tree => ?_,
    fun d htokens => ?_⟩
  · exact TersePhrase.eq_of_barsApart (htokens.trans htokens'.symm) hbars hbars'
  · refine (haccepts tree).trans (exists_congr fun d => and_congr_right fun htokens => ?_)
    exact and_iff_right (d.barsApart_of_not_mem 0 (htokens ▸ hnobar))
  · calc d.barRoles = Juncture.barRoles {} (d.tokens ++ []) := by
          rw [d.barRoles_tokens 0 [], Juncture.barRoles, List.append_nil]
      _ = Juncture.barRoles {} (writeProducts tokens) := by rw [List.append_nil, htokens]
      _ = Juncture.barRoles {} tokens := Juncture.barRoles_writeProducts {} tokens

end Formulary
