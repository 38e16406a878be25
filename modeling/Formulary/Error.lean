import Formulary.Token

/-!
# What can go wrong

A text may fail to be a formula (`ParseError`), and a formula may fail to have a value
(`EvalError`). `FormulaError` is either. Each type names the causes, and `message` words them.
-/

namespace Formulary

/-- Why a text is not a formula. -/
inductive ParseError where
  /-- Some of the text belongs to no formula. -/
  | invalidText
  /-- The tokens do not form an expression, or one nested too deeply. -/
  | malformed
  deriving DecidableEq, Repr

/-- Why a formula has no value. -/
inductive EvalError where
  | divisionByZero
  /-- The formula `id` was called from as many calls as may be nested. -/
  | recursionLimit (id : FunctionId)
  /-- The formula `id` called itself. -/
  | selfReference (id : FunctionId)
  | unknownFunction (id : FunctionId)
  /-- The text of the formula `id` holds text that belongs to no formula. -/
  | brokenReference (id : FunctionId)
  /-- A result was infinite, or not a number. -/
  | nonFinite
  /-- The expression stands for no formula. -/
  | brokenExpression
  deriving DecidableEq, Repr

/-- Why a text has no value. -/
inductive FormulaError where
  | parse (cause : ParseError)
  | eval (cause : EvalError)
  deriving DecidableEq, Repr

def ParseError.message : ParseError → String
  | invalidText => "formula contains unrecognised input"
  | malformed => "formula is malformed"

def EvalError.message : EvalError → String
  | divisionByZero => "division by zero"
  | recursionLimit id => s!"recursion limit reached while calling f{id}"
  | selfReference id => s!"f{id} calls itself"
  | unknownFunction id => s!"no function with id {id}"
  | brokenReference id => s!"referenced formula f{id} cannot be parsed"
  | nonFinite => "result is not a finite number"
  | brokenExpression => "expression is broken"

def FormulaError.message : FormulaError → String
  | parse cause => "parse error: " ++ cause.message
  | eval cause => "evaluation error: " ++ cause.message

end Formulary
