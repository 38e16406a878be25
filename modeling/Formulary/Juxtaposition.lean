import Formulary.Token

/-!
# Juxtaposition

Operands that stand side by side are multiplied : `2x` means `2*x`. `writeProducts` writes these
products out, so that every product of its result has a sign of its own.

It passes over the tokens once, and what it knows at each place is a `Juncture` : how many
absolute values are open, and whether an operand ends there. That settles what a bar does. It
closes an absolute value if one is open and an operand ends before it, and opens one otherwise.
-/

namespace Formulary

/-- A place between two tokens, known by the tokens before it. -/
structure Juncture where
  /-- The absolute values opened and not closed so far. -/
  openBars : Nat := 0
  /-- An operand ends here. -/
  afterOperand : Bool := false
  deriving DecidableEq, Repr

namespace Juncture

/-- A bar at this place closes an absolute value. -/
def closesBar (j : Juncture) : Bool :=
  0 < j.openBars && j.afterOperand

/-- An operand begins with the token at this place. -/
def startsOperand (j : Juncture) : Token → Bool
  | .symbol .bar => !j.closesBar
  | token => token.startsOperand

/-- The place after the token. -/
def next (j : Juncture) : Token → Juncture
  | .symbol .bar =>
    if j.closesBar then ⟨j.openBars - 1, true⟩ else ⟨j.openBars + 1, false⟩
  | token => ⟨j.openBars, token.endsOperand⟩

/-- A product is to be written before the token : one operand ends and another begins. -/
def needsProduct (j : Juncture) (token : Token) : Bool :=
  j.afterOperand && j.startsOperand token

/-- The tokens from this place on, with the products written out. -/
def writeProducts (j : Juncture) : List Token → List Token
  | [] => []
  | token :: rest =>
    if j.needsProduct token then .symbol .times :: token :: (j.next token).writeProducts rest
    else token :: (j.next token).writeProducts rest

@[simp] theorem writeProducts_nil (j : Juncture) : j.writeProducts [] = [] := rfl

theorem writeProducts_cons (j : Juncture) (token : Token) (rest : List Token) :
    j.writeProducts (token :: rest) =
      (if j.needsProduct token then [.symbol .times] else []) ++
        token :: (j.next token).writeProducts rest := by
  rw [writeProducts]
  split <;> rfl

/-- After a sign of an operation no operand has ended. -/
@[simp] theorem next_times (j : Juncture) : j.next (.symbol .times) = ⟨j.openBars, false⟩ := rfl

end Juncture

/-- The tokens of a formula, with the products of neighbouring operands written out. -/
def writeProducts (tokens : List Token) : List Token :=
  Juncture.writeProducts {} tokens

end Formulary
