import Formulary.Proofs.Reading

/-!
# Phrases need no products

A phrase has a sign for each of its products, so the pass that writes products out leaves its
tokens as they are (`Phrase.writeProducts_tokens`). What carries the induction is the place
between two tokens : no operand ends before a phrase, one ends after it, and the absolute values
that are open are the same. Hence every derivation that nesting leaves room for is accepted from
its own tokens (`derives_tokens`).
-/

namespace Formulary

/-! ## Signs and brackets -/

namespace Juncture

theorem writeProducts_cons_of_not {j : Juncture} {token : Token}
    (h : j.needsProduct token = false) (rest : List Token) :
    j.writeProducts (token :: rest) = token :: (j.next token).writeProducts rest := by
  rw [writeProducts_cons, h]
  rfl

/-- Where an operand is due there is no product to write. -/
theorem writeProducts_cons_of_operand_due (bars : Nat) (token : Token) (rest : List Token) :
    writeProducts ⟨bars, false⟩ (token :: rest) =
      token :: (next ⟨bars, false⟩ token).writeProducts rest :=
  writeProducts_cons_of_not rfl rest

/-- A bar opens an absolute value where an operand is due. -/
theorem next_bar_open (bars : Nat) :
    (⟨bars, false⟩ : Juncture).next (.symbol .bar) = ⟨bars + 1, false⟩ := by
  simp [next, closesBar]

/-- It closes one where an operand ends and one is open. -/
theorem next_bar_close (bars : Nat) :
    (⟨bars + 1, true⟩ : Juncture).next (.symbol .bar) = ⟨bars, true⟩ := by
  simp [next, closesBar]

theorem next_sign (bars : Nat) (op : UnaryOp) :
    (⟨bars, false⟩ : Juncture).next (.symbol op.symbol) = ⟨bars, false⟩ := by
  cases op <;> rfl

theorem next_operator (bars : Nat) (op : BinaryOp) :
    (⟨bars, true⟩ : Juncture).next (.symbol op.symbol) = ⟨bars, false⟩ := by
  cases op <;> rfl

theorem writeProducts_operator (bars : Nat) (op : BinaryOp) (rest : List Token) :
    writeProducts ⟨bars, true⟩ (.symbol op.symbol :: rest) =
      .symbol op.symbol :: writeProducts ⟨bars, false⟩ rest := by
  cases op <;> rfl

theorem writeProducts_closeParen (bars : Nat) (rest : List Token) :
    writeProducts ⟨bars, true⟩ (.symbol .closeParen :: rest) =
      .symbol .closeParen :: writeProducts ⟨bars, true⟩ rest := rfl

theorem writeProducts_bar_close (bars : Nat) (rest : List Token) :
    writeProducts ⟨bars + 1, true⟩ (.symbol .bar :: rest) =
      .symbol .bar :: writeProducts ⟨bars, true⟩ rest := by
  have hcloses : (⟨bars + 1, true⟩ : Juncture).needsProduct (.symbol .bar) = false := by
    simp [needsProduct, startsOperand, closesBar]
  rw [writeProducts_cons_of_not hcloses, next_bar_close]

end Juncture

/-! ## Phrases -/

mutual

/-- Every product of a phrase has a sign, so that none is to be written out. -/
theorem Phrase.writeProducts_tokens {c : Category} (d : Phrase c) (bars : Nat)
    (rest : List Token) : Juncture.writeProducts ⟨bars, false⟩ (d.tokens ++ rest) =
      d.tokens ++ Juncture.writeProducts ⟨bars, true⟩ rest := by
  match d with
  | .number value | .var name => exact Juncture.writeProducts_cons_of_operand_due bars _ rest
  | .apply _ argument | .call _ argument =>
    simp only [Phrase.tokens, List.cons_append]
    rw [Juncture.writeProducts_cons_of_operand_due]
    exact congrArg _ (argument.writeProducts_tokens bars rest)
  | .paren inner =>
    simp only [Phrase.tokens, List.cons_append, List.append_assoc, List.nil_append]
    rw [Juncture.writeProducts_cons_of_operand_due, ← Juncture.writeProducts_closeParen]
    exact congrArg _ (inner.writeProducts_tokens bars _)
  | .abs inner =>
    simp only [Phrase.tokens, List.cons_append, List.append_assoc, List.nil_append]
    rw [Juncture.writeProducts_cons_of_operand_due, Juncture.next_bar_open,
      inner.writeProducts_tokens, Juncture.writeProducts_bar_close]
  | .bare operand => exact operand.writeProducts_tokens bars rest
  | .sign op operand =>
    simp only [Phrase.tokens, List.cons_append]
    rw [Juncture.writeProducts_cons_of_operand_due, Juncture.next_sign,
      operand.writeProducts_tokens]
  | .chain first tail =>
    simp only [Phrase.tokens, List.append_assoc]
    rw [first.writeProducts_tokens, tail.writeProducts_tokens]

/-- The same for a tail, which begins with an operator. -/
theorem Tail.writeProducts_tokens {level : Level} (t : Tail level) (bars : Nat)
    (rest : List Token) : Juncture.writeProducts ⟨bars, true⟩ (t.tokens ++ rest) =
      t.tokens ++ Juncture.writeProducts ⟨bars, true⟩ rest := by
  match t with
  | .done => rfl
  | .more op hop operand tail =>
    simp only [Tail.tokens, List.cons_append, List.append_assoc]
    rw [Juncture.writeProducts_operator, operand.writeProducts_tokens, tail.writeProducts_tokens]

end

mutual

theorem Phrase.invalid_not_mem_tokens {c : Category} (d : Phrase c) : .invalid ∉ d.tokens := by
  match d with
  | .number _ | .var _ => simp [Phrase.tokens]
  | .apply _ argument | .call _ argument =>
    simp [Phrase.tokens, argument.invalid_not_mem_tokens]
  | .paren inner | .abs inner => simp [Phrase.tokens, inner.invalid_not_mem_tokens]
  | .bare operand => exact operand.invalid_not_mem_tokens
  | .sign _ operand => simp [Phrase.tokens, operand.invalid_not_mem_tokens]
  | .chain first tail =>
    simp [Phrase.tokens, first.invalid_not_mem_tokens, tail.invalid_not_mem_tokens]

theorem Tail.invalid_not_mem_tokens {level : Level} (t : Tail level) : .invalid ∉ t.tokens := by
  match t with
  | .done => simp [Tail.tokens]
  | .more _ _ operand tail =>
    simp [Tail.tokens, operand.invalid_not_mem_tokens, tail.invalid_not_mem_tokens]

end

/-- A derivation that nesting leaves room for derives its own tokens. -/
theorem derives_tokens {d : Derivation} (h : d.cost ≤ maxNesting) : Derives d.tokens d where
  valid := d.invalid_not_mem_tokens
  tokens_eq := by simpa [writeProducts] using (d.writeProducts_tokens 0 []).symm
  cost_le := h

end Formulary
