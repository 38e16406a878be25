import Formulary.Proofs.Products

/-!
# The height of accepted trees

The parser gives back the depth of a chain's operands before the chain's operators take theirs, so
the nesting that it counts, `Phrase.cost`, is not the height of the tree that it builds. The height
is `Phrase.spine`, which counts each operator of a chain above all the operands before it.

* `Phrase.height_tree` : the height of a derivation's tree is its spine.
* `Phrase.spine_le` : the spine is at most quadratic in the cost, and `maxHeight` is the bound that
  comes of it.
* `exists_parse_maxHeight` : a tower of absolute values is as high as that.
* `height_of_parse` : the height of accepted trees.
* `height_of_signed_sum` : an accepted tree that is higher than `maxNesting`.
-/

namespace Formulary

/-- The edges on the longest path from the root to a leaf. -/
def Expr.height : Expr → Nat
  | .literal _ | .var _ | .broken => 0
  | .unary _ operand | .abs operand => operand.height + 1
  | .binary left _ right => max left.height right.height + 1
  | .apply _ argument | .call _ argument => argument.height + 1

/-- The operators of the tail. -/
def Tail.length {level : Level} : Tail level → Nat
  | .done => 0
  | .more _ _ _ rest => rest.length + 1

mutual

/-- The nodes of the tree that lie above the deepest leaf of the phrase. An operator lies above all
that stands before it in its chain, and above its own operand. -/
def Phrase.spine {c : Category} : Phrase c → Nat
  | .number _ | .var _ => 0
  | .apply _ argument | .call _ argument => 1 + argument.spine
  | .paren inner => inner.spine
  | .abs inner => 1 + inner.spine
  | .bare operand => operand.spine
  | .sign _ operand => 1 + operand.spine
  | .chain first rest => max (rest.length + first.spine) rest.spine

/-- The same for the operands of a tail. -/
def Tail.spine {level : Level} : Tail level → Nat
  | .done => 0
  | .more _ _ operand rest => max (1 + rest.length + operand.spine) rest.spine

end

mutual

theorem Phrase.height_tree {c : Category} (d : Phrase c) : d.tree.height = d.spine := by
  match d with
  | .number _ | .var _ => rfl
  | .apply _ argument | .call _ argument =>
    simp only [Phrase.tree, Expr.height, Phrase.spine, argument.height_tree]
    omega
  | .paren inner => exact inner.height_tree
  | .abs inner =>
    simp only [Phrase.tree, Expr.height, Phrase.spine, inner.height_tree]
    omega
  | .bare operand => exact operand.height_tree
  | .sign _ operand =>
    simp only [Phrase.tree, Expr.height, Phrase.spine, operand.height_tree]
    omega
  | .chain first tail =>
    simp only [Phrase.tree, Phrase.spine, tail.height_treeFrom, first.height_tree]

theorem Tail.height_treeFrom {level : Level} (t : Tail level) (left : Expr) :
    (t.treeFrom left).height = max (t.length + left.height) t.spine := by
  match t with
  | .done => simp [Tail.treeFrom, Tail.length, Tail.spine]
  | .more op _ operand tail =>
    simp only [Tail.treeFrom, tail.height_treeFrom, Expr.height, operand.height_tree, Tail.length,
      Tail.spine]
    omega

end

/-! ## The bound -/

/-- The levels of operators in a phrase of the category that is in no bracket. -/
def Category.levels : Category → Nat
  | .chain level => level.rank + 1
  | .signed | .primary => 0

theorem Category.levels_operand (level : Level) : level.operand.levels = level.rank := by
  cases level <;> rfl

theorem Tail.length_add_le {level : Level} (k : Nat) : ∀ t : Tail level,
    t.length + k ≤ max k (t.costFrom k + 1)
  | .done => by simp only [Tail.length]; omega
  | .more _ _ operand rest => by
    have := rest.length_add_le (k + 1)
    simp only [Tail.length, Tail.costFrom]
    omega

theorem Tail.length_le {level : Level} (t : Tail level) : t.length ≤ t.costFrom 1 := by
  have := t.length_add_le 1
  omega

mutual

theorem Phrase.spine_le {c : Category} (d : Phrase c) {b : Nat} (hb : d.cost ≤ b) :
    2 * d.spine + b ≤ 3 * (b * b) + 2 * (c.levels * b) := by
  match d with
  | .number _ | .var _ =>
    have := Nat.le_mul_self b
    simp only [Phrase.spine]
    omega
  | .apply _ argument | .call _ argument =>
    simp only [Phrase.cost] at hb
    obtain ⟨b, rfl⟩ : ∃ a, b = a + 1 := ⟨b - 1, by omega⟩
    have hsquare := Nat.add_one_mul_add_one b b
    have := argument.spine_le (b := b) (by omega)
    simp only [Phrase.spine, Category.levels] at this ⊢
    omega
  | .paren inner | .abs inner =>
    simp only [Phrase.cost] at hb
    obtain ⟨b, rfl⟩ : ∃ a, b = a + 1 := ⟨b - 1, by omega⟩
    have hsquare := Nat.add_one_mul_add_one b b
    have := inner.spine_le (b := b) (by omega)
    simp only [Phrase.spine, Category.levels, Level.rank] at this ⊢
    omega
  | .bare operand => exact operand.spine_le hb
  | .sign _ operand =>
    simp only [Phrase.cost] at hb
    obtain ⟨b, rfl⟩ : ∃ a, b = a + 1 := ⟨b - 1, by omega⟩
    have hsquare := Nat.add_one_mul_add_one b b
    have := operand.spine_le (b := b) (by omega)
    simp only [Phrase.spine, Category.levels] at this ⊢
    omega
  | .chain first tail =>
    simp only [Phrase.cost] at hb
    have hfirst := first.spine_le (b := b) (by omega)
    have htail := tail.spine_le (k := 1) (b := b) (by omega)
    have := tail.length_le
    rw [Category.levels_operand] at hfirst htail
    simp only [Phrase.spine, Category.levels, Nat.succ_mul]
    omega

theorem Tail.spine_le {level : Level} (t : Tail level) {k b : Nat} (hb : t.costFrom k ≤ b) :
    2 * t.spine + b ≤ 3 * (b * b) + 2 * (level.operand.levels * b) + 2 * t.length := by
  match t with
  | .done =>
    have := Nat.le_mul_self b
    simp only [Tail.spine]
    omega
  | .more _ _ operand tail =>
    simp only [Tail.costFrom] at hb
    have := operand.spine_le (b := b) (by omega)
    have := tail.spine_le (k := k + 1) (b := b) (by omega)
    simp only [Tail.spine, Tail.length]
    omega

end

/-- The height that accepted trees may have. -/
def maxHeight : Nat :=
  maxNesting * (3 * maxNesting + 5) / 2

example : maxHeight = 98944 := by decide

theorem height_le_of_derives {tokens : List Token} {d : Derivation} (h : Derives tokens d) :
    d.tree.height ≤ maxHeight := by
  have hspine := d.spine_le h.cost_le
  rw [d.height_tree]
  simp only [Category.levels, Level.rank, maxNesting, maxHeight] at hspine ⊢
  omega

/-! ## Trees as high as that -/

/-- A primary as a phrase of any category. -/
def Phrase.ofPrimary (operand : Phrase .primary) : (c : Category) → Phrase c
  | .primary => operand
  | .signed => .bare operand
  | .chain .power => .chain (.bare operand) .done
  | .chain .multiplicative => .chain (.chain (.bare operand) .done) .done
  | .chain .additive => .chain (.chain (.chain (.bare operand) .done) .done) .done

theorem Phrase.cost_ofPrimary (operand : Phrase .primary) (c : Category) :
    (operand.ofPrimary c).cost = operand.cost := by
  cases c with
  | chain level => cases level <;> simp [ofPrimary, Phrase.cost, Tail.costFrom]
  | _ => rfl

theorem Phrase.spine_ofPrimary (operand : Phrase .primary) (c : Category) :
    (operand.ofPrimary c).spine = operand.spine := by
  cases c with
  | chain level => cases level <;> simp [ofPrimary, Phrase.spine, Tail.spine, Tail.length]
  | _ => rfl

/-- The operator `n` times, with the operand `x` each time. -/
def Tail.repeated (level : Level) (op : BinaryOp) (hop : op.level = level) : Nat → Tail level
  | 0 => .done
  | n + 1 => .more op hop (Phrase.ofPrimary (.var .bound) _) (repeated level op hop n)

section Repeated

variable (level : Level) (op : BinaryOp) (hop : op.level = level) (n : Nat)

theorem Tail.max_costFrom_repeated (k : Nat) :
    max k ((repeated level op hop n).costFrom (k + 1)) = k + n := by
  induction n generalizing k with
  | zero =>
    simp only [repeated, costFrom]
    omega
  | succ n ih =>
    have := ih (k + 1)
    simp only [repeated, costFrom, Phrase.cost_ofPrimary, Phrase.cost]
    omega

theorem Tail.costFrom_repeated : (repeated level op hop n).costFrom 1 = n := by
  have := max_costFrom_repeated level op hop n 0
  simp only [Nat.zero_add] at this
  omega

theorem Tail.length_repeated : (repeated level op hop n).length = n := by
  induction n with
  | zero => rfl
  | succ n ih => rw [repeated, length, ih]

theorem Tail.spine_repeated_le : (repeated level op hop n).spine ≤ n := by
  induction n with
  | zero => exact Nat.le_refl _
  | succ n ih =>
    simp only [repeated, spine, length_repeated, Phrase.spine_ofPrimary, Phrase.spine]
    omega

end Repeated

/-- Chains of all three levels that begin with `first`, with `n` operators each. -/
def chains (first : Phrase .primary) (n : Nat) : Derivation :=
  .chain (.chain (.chain (.bare first) (.repeated .power .pow (.refl Level.power) n))
    (.repeated .multiplicative .mul (.refl Level.multiplicative) n))
    (.repeated .additive .add (.refl Level.additive) n)

theorem cost_chains (first : Phrase .primary) (n : Nat) :
    (chains first n).cost = max first.cost n := by
  have hpow := Tail.costFrom_repeated .power .pow rfl n
  have hmul := Tail.costFrom_repeated .multiplicative .mul rfl n
  have hadd := Tail.costFrom_repeated .additive .add rfl n
  simp only [chains, Phrase.cost]
  omega

theorem spine_chains (first : Phrase .primary) (n : Nat) :
    (chains first n).spine = first.spine + 3 * n := by
  have hpow := Tail.length_repeated .power .pow rfl n
  have hmul := Tail.length_repeated .multiplicative .mul rfl n
  have hadd := Tail.length_repeated .additive .add rfl n
  have := Tail.spine_repeated_le .power .pow rfl n
  have := Tail.spine_repeated_le .multiplicative .mul rfl n
  have := Tail.spine_repeated_le .additive .add rfl n
  simp only [chains, Phrase.spine]
  omega

/-- `n` absolute values in each other. Each begins with the next one, and goes on with all the
operators that nesting leaves room for. -/
def tower : Nat → Phrase .primary
  | 0 => .var .bound
  | n + 1 => .abs (chains (tower n) n)

theorem cost_tower (n : Nat) : (tower n).cost = n := by
  induction n with
  | zero => rfl
  | succ n ih =>
    simp only [tower, Phrase.cost, cost_chains, ih]
    omega

theorem spine_tower (n : Nat) : 2 * (tower n).spine + n = 3 * (n * n) := by
  induction n with
  | zero => rfl
  | succ n ih =>
    have := Nat.add_one_mul_add_one n n
    simp only [tower, Phrase.spine, spine_chains]
    omega

/-- Some accepted tree is as high as the bound. -/
theorem exists_parse_maxHeight :
    ∃ tokens tree, parse tokens = (tree, false) ∧ tree.height = maxHeight := by
  have hcost := cost_chains (tower maxNesting) maxNesting
  have hspine := spine_chains (tower maxNesting) maxNesting
  have htower := spine_tower maxNesting
  rw [cost_tower, Nat.max_self] at hcost
  generalize tower maxNesting = first at hcost hspine htower
  refine ⟨_, (chains first maxNesting).tree,
    parse_of_derives (derives_tokens (Nat.le_of_eq hcost)), ?_⟩
  rw [Phrase.height_tree, hspine]
  simp only [maxNesting, maxHeight] at htower ⊢
  omega

/-! ## Signs in the first operand of a sum -/

/-- The operand `x` with `n` signs. -/
def signs : Nat → Phrase .signed
  | 0 => .bare (.var .bound)
  | n + 1 => .sign .neg (signs n)

/-- The sum of `x` with `n` signs, and `x`. -/
def signedSum (n : Nat) : Derivation :=
  .chain (.chain (.chain (signs n) .done) .done) (.repeated .additive .add rfl 1)

theorem tokens_signs (n : Nat) :
    (signs n).tokens = List.replicate n (.symbol .minus) ++ [.var .bound] := by
  induction n with
  | zero => rfl
  | succ n ih => simp [signs, Phrase.tokens, ih, List.replicate_succ, UnaryOp.symbol]

theorem cost_signs (n : Nat) : (signs n).cost = n := by
  induction n with
  | zero => rfl
  | succ n ih => rw [signs, Phrase.cost, ih, Nat.add_comm]

theorem spine_signs (n : Nat) : (signs n).spine = n := by
  induction n with
  | zero => rfl
  | succ n ih => rw [signs, Phrase.spine, ih, Nat.add_comm]

theorem tokens_signedSum (n : Nat) : (signedSum n).tokens =
    List.replicate n (.symbol .minus) ++ [.var .bound, .symbol .plus, .var .bound] := by
  have hlast : (Tail.repeated .additive .add rfl 1).tokens = [.symbol .plus, .var .bound] := rfl
  have hsum : (signedSum n).tokens =
    (((signs n).tokens ++ []) ++ []) ++ (Tail.repeated .additive .add rfl 1).tokens := rfl
  rw [hsum, tokens_signs, hlast, List.append_nil, List.append_nil, List.append_assoc]
  rfl

theorem cost_signedSum (n : Nat) : (signedSum n).cost = max n 1 := by
  have hsum : (signedSum n).cost = max (max (max (signs n).cost 0) 0)
    ((Tail.repeated .additive .add rfl 1).costFrom 1) := rfl
  rw [hsum, cost_signs, Nat.max_zero, Nat.max_zero]
  exact congrArg (max n) (Tail.costFrom_repeated _ _ _ 1)

theorem spine_signedSum (n : Nat) : (signedSum n).spine = n + 1 := by
  have hsum : (signedSum n).spine = max (1 + max (0 + max (0 + (signs n).spine) 0) 0) 1 := rfl
  rw [hsum, spine_signs]
  omega

/-! ## Accepted trees -/

/-- The tree of an accepted formula is no higher than `maxNesting` just if the spine of its
derivation is not, and it is never higher than `maxHeight`. -/
theorem height_of_parse (tokens : List Token) :
    ((∀ tree, parse tokens = (tree, false) → tree.height ≤ maxNesting) ↔
      ∀ d, Derives tokens d → d.spine ≤ maxNesting) ∧
    ∀ tree, parse tokens = (tree, false) → tree.height ≤ maxHeight := by
  refine ⟨⟨fun h d hd => ?_, fun h tree htree => ?_⟩, fun tree htree => ?_⟩
  · rw [← d.height_tree]
    exact h d.tree (parse_of_derives hd)
  · obtain ⟨d, hd, rfl⟩ := derives_of_parse htree
    rw [d.height_tree]
    exact h d hd
  · obtain ⟨d, hd, rfl⟩ := derives_of_parse htree
    exact height_le_of_derives hd

/-- A sum whose first operand has as many signs as may be nested is accepted, and the tree of the
sum is higher than that. -/
theorem height_of_signed_sum : ∃ tree,
    parse (List.replicate 256 (.symbol .minus) ++ [.var .bound, .symbol .plus, .var .bound]) =
      (tree, false) ∧ maxNesting < tree.height := by
  have hcost := cost_signedSum 256
  have hspine := spine_signedSum 256
  have htokens := tokens_signedSum 256
  generalize signedSum 256 = d at hcost hspine htokens
  refine ⟨d.tree, htokens ▸ parse_of_derives (derives_tokens (Nat.le_of_eq hcost)), ?_⟩
  rw [d.height_tree, hspine]
  decide

end Formulary
