/-!
# Tokens of a formula

A formula is a list of tokens : numbers, the names that stand for a value (`Variable`), the
names of functions of one argument (`MathFunction`), references to other formulas by their
number, and `Symbol`s. Text that belongs to no formula is a token as well, `Token.invalid`.

`Token.startsOperand` and `Token.endsOperand` say where an operand may begin and end. The bar
of an absolute value is in neither class, since it depends on its place.
-/

namespace Formulary

/-- The number that a formula is filed under, and that other formulas refer to it by. -/
abbrev FunctionId := UInt32

/-- A name that stands for a value. -/
inductive Variable where
  /-- The input of the formula, written `x`. -/
  | bound
  /-- The constant `π`. -/
  | pi
  /-- The constant `e`. -/
  | e
  deriving DecidableEq, Repr

/-- A function of one argument. Angles are in radians, and `log` has base ten. -/
inductive MathFunction where
  | ln
  | log
  | sin
  | cos
  | tan
  | ceil
  | floor
  deriving DecidableEq, Repr

/-- A sign of a formula, one character long. -/
inductive Symbol where
  | plus
  | minus
  | times
  | divide
  | power
  | openParen
  | closeParen
  /-- The bar that opens and closes an absolute value. -/
  | bar
  deriving DecidableEq, Repr

/-- A piece of a formula. -/
inductive Token where
  | number (value : Float)
  | var (name : Variable)
  | function (name : MathFunction)
  /-- The formula filed under `id`, to be applied to an argument. -/
  | reference (id : FunctionId)
  | symbol (sign : Symbol)
  /-- Text that belongs to no formula. -/
  | invalid
  deriving DecidableEq, Repr

/-! ## Names -/

namespace MathFunction

/-- Every function. -/
def all : List MathFunction := [ln, log, sin, cos, tan, ceil, floor]

theorem mem_all (f : MathFunction) : f ∈ all := by
  cases f <;> decide

/-- The letters that the function is written with. -/
def letters : MathFunction → List Char
  | ln => ['l', 'n']
  | log => ['l', 'o', 'g']
  | sin => ['s', 'i', 'n']
  | cos => ['c', 'o', 's']
  | tan => ['t', 'a', 'n']
  | ceil => ['c', 'e', 'i', 'l']
  | floor => ['f', 'l', 'o', 'o', 'r']

/-- The functions whose graph is a staircase. -/
def isRounding : MathFunction → Bool
  | ceil | floor => true
  | _ => false

end MathFunction

/-- The value name that is written with a character. -/
def Variable.ofChar? : Char → Option Variable
  | 'x' => some .bound
  | 'π' => some .pi
  | 'e' => some .e
  | _ => none

/-- The symbol that is written with a character. -/
def Symbol.ofChar? : Char → Option Symbol
  | '+' => some .plus
  | '-' => some .minus
  | '*' => some .times
  | '/' => some .divide
  | '^' => some .power
  | '(' => some .openParen
  | ')' => some .closeParen
  | '|' => some .bar
  | _ => none

/-! ## Operands -/

namespace Token

/-- An operand may begin with the token. -/
def startsOperand : Token → Bool
  | number _ | var _ | function _ | reference _ | symbol .openParen => true
  | _ => false

/-- An operand may end with the token. -/
def endsOperand : Token → Bool
  | number _ | var _ | symbol .closeParen => true
  | _ => false

end Token

/-- Some part of the text belonged to no formula. -/
def containsInvalid (tokens : List Token) : Bool :=
  tokens.contains .invalid

theorem containsInvalid_iff {tokens : List Token} :
    containsInvalid tokens = true ↔ Token.invalid ∈ tokens := by
  simp [containsInvalid]

end Formulary
