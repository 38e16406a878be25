import Formulary.Error

/-!
# Expressions

The tree of a formula. The operators, the functions and the value names come each with their
meaning on floats (`apply`, `value`). Only division can fail there : what is not a number is
seen to where the tree is evaluated.
-/

namespace Formulary

/-- An operator between two operands. -/
inductive BinaryOp where
  | add
  | sub
  | mul
  | div
  | pow
  deriving DecidableEq, Repr

/-- A sign before an operand. -/
inductive UnaryOp where
  | pos
  | neg
  deriving DecidableEq, Repr

/-- The tree of a formula. -/
inductive Expr where
  | literal (value : Float)
  | var (name : Variable)
  | unary (op : UnaryOp) (operand : Expr)
  | binary (left : Expr) (op : BinaryOp) (right : Expr)
  | apply (f : MathFunction) (argument : Expr)
  | abs (operand : Expr)
  /-- The formula filed under `id`, with its input replaced by the argument. -/
  | call (id : FunctionId) (argument : Expr)
  /-- Stands where no formula could be read. -/
  | broken
  deriving DecidableEq, Repr

/-! ## Operators and their signs -/

/-- The operator that a symbol writes between two operands. -/
def Symbol.binaryOp? : Symbol → Option BinaryOp
  | .plus => some .add
  | .minus => some .sub
  | .times => some .mul
  | .divide => some .div
  | .power => some .pow
  | _ => none

/-- The sign that a symbol writes before an operand. -/
def Symbol.unaryOp? : Symbol → Option UnaryOp
  | .plus => some .pos
  | .minus => some .neg
  | _ => none

/-! ## Meaning -/

/-- The value of a name, given that of the input. The constants are the floats nearest to
theirs. -/
def Variable.value (x : Float) : Variable → Float
  | bound => x
  | pi => 3.141592653589793
  | e => 2.718281828459045

def UnaryOp.apply : UnaryOp → Float → Float
  | pos, value => value
  | neg, value => -value

/-- Division by either zero fails, and everything else follows the arithmetic of floats. -/
def BinaryOp.apply : BinaryOp → Float → Float → Except EvalError Float
  | add, left, right => .ok (left + right)
  | sub, left, right => .ok (left - right)
  | mul, left, right => .ok (left * right)
  | div, left, right => if right == 0 then .error .divisionByZero else .ok (left / right)
  | pow, left, right => .ok (left.pow right)

def MathFunction.apply : MathFunction → Float → Float
  | ln => Float.log
  | log => Float.log10
  | sin => Float.sin
  | cos => Float.cos
  | tan => Float.tan
  | ceil => Float.ceil
  | floor => Float.floor

end Formulary
