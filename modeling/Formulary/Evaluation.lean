import Formulary.Context

/-!
# Evaluation

`evalNode` walks a tree from left to right and never stops early. A step that fails records its
cause (`fail`) and yields a value that is not a number, and the walk goes on with that. What
counts is the record : a later step may turn the value back into a number, but none takes the
failure back. Division by zero fails, and so does a step that makes what is not a number out of
numbers (`settle`). Infinity may pass inside a tree, and is a failure as the value of a call
(`leave`) or of the whole (`Context.evaluate`).

A call is checked before its argument is looked at, in this order : how deep it is nested, whether
the formula calls itself, and whether a formula is filed under its number and can be read
(`resolve`). The body is then walked in a frame of its own, with nothing kept from the caller.
`evalTree` walks one tree and is told what calling a body does, and `evalNode` ties the knot :
a call has one call less left, so the walk ends whatever the formulas refer to.

The walk of a whole formula is an `Evaluation`. It signals a failure twice, by a flag and by its
cause, and the two are raised together (`Context.failed_evaluate`).
-/

namespace Formulary

/-! ## Steps -/

/-- The value of a failed step. -/
def notANumber : Float := 0 / 0

/-- A step fails. -/
def fail (error : EvalError) : StateM Progress Float :=
  modifyGet fun progress => (notANumber, progress.fail error)

/-- The result is not a number, and each of the operands was one. -/
def introducesNaN (result : Float) (operands : List Float) : Bool :=
  result.isNaN && !operands.any Float.isNaN

/-- A step of arithmetic yields its result, and fails if the step made it one that is no number. -/
def settle (result : Float) (operands : List Float) : StateM Progress Float :=
  if introducesNaN result operands then fail .nonFinite else pure result

/-- The tree of the formula `id`, the one that was kept or else the one that is filed. -/
def resolve (formulas : Formulas) (id : FunctionId) : StateM Progress (Except EvalError Expr) :=
  fun progress =>
    match progress.reference? id with
    | some body => (.ok body, progress)
    | none =>
      match formulas.body id with
      | .ok body => (.ok body, progress.keep id body)
      | .error cause => (.error cause, progress)

/-- A call comes back with the value of its body, and with what came to pass in there. -/
def leave (value : Float) (inner : Progress) : StateM Progress Float := do
  modify (·.noteRounding inner.usedRounding)
  if inner.hasFailed || !value.isFinite then fail (inner.failure.getD .nonFinite)
  else pure value

/-! ## Trees -/

/-- What calling a formula does with its tree and an input : the value, and what came to pass. -/
abbrev Enter := FunctionId → Expr → Float → Float × Progress

/-- The value of a tree. Calls are as `enter?` says, and there are none where it is `none`. -/
def evalTree (formulas : Formulas) (frame : Frame) (enter? : Option Enter) :
    Expr → StateM Progress Float
  | .literal value => pure value
  | .var name => pure (name.value frame.input)
  | .unary op operand => do
    let value ← evalTree formulas frame enter? operand
    return op.apply value
  | .binary left op right => do
    let leftValue ← evalTree formulas frame enter? left
    let rightValue ← evalTree formulas frame enter? right
    match op.apply leftValue rightValue with
    | .ok result => settle result [leftValue, rightValue]
    | .error cause => fail cause
  | .apply f argument => do
    let value ← evalTree formulas frame enter? argument
    modify (·.noteRounding f.isRounding)
    settle (f.apply value) [value]
  | .abs operand => do
    let value ← evalTree formulas frame enter? operand
    return value.abs
  | .call id argument =>
    match enter? with
    | none => fail (.recursionLimit id)
    | some enter =>
      if frame.ownId = some id then fail (.selfReference id)
      else do
        match ← resolve formulas id with
        | .error cause => fail cause
        | .ok body =>
          let value ← evalTree formulas frame enter? argument
          let (result, inner) := enter id body value
          leave result inner
  | .broken => fail .brokenExpression

/-- The value of a tree in a frame. -/
def evalNode (formulas : Formulas) (frame : Frame) : Expr → StateM Progress Float :=
  evalTree formulas frame <|
    if _ : frame.depth ≤ maxCallDepth then
      some fun id body input => (evalNode formulas (frame.enter id input) body).run {}
    else none
termination_by frame.callsLeft
decreasing_by exact Frame.callsLeft_enter_lt ‹_› id input

/-- What a call does in a frame. -/
def Frame.enter? (frame : Frame) (formulas : Formulas) : Option Enter :=
  if frame.depth ≤ maxCallDepth then
    some fun id body input => (evalNode formulas (frame.enter id input) body).run {}
  else none

theorem evalNode_eq (formulas : Formulas) (frame : Frame) :
    evalNode formulas frame = evalTree formulas frame (frame.enter? formulas) := by
  rw [evalNode]
  rfl

/-! ## The walk, node by node -/

section Nodes

variable (formulas : Formulas) (frame : Frame)

theorem evalNode_literal (value : Float) :
    evalNode formulas frame (.literal value) = pure value := by
  rw [evalNode_eq]
  rfl

theorem evalNode_var (name : Variable) :
    evalNode formulas frame (.var name) = pure (name.value frame.input) := by
  rw [evalNode_eq]
  rfl

theorem evalNode_unary (op : UnaryOp) (operand : Expr) :
    evalNode formulas frame (.unary op operand) = (do
      let value ← evalNode formulas frame operand
      return op.apply value) := by
  rw [evalNode_eq]
  rfl

theorem evalNode_binary (left : Expr) (op : BinaryOp) (right : Expr) :
    evalNode formulas frame (.binary left op right) = (do
      let leftValue ← evalNode formulas frame left
      let rightValue ← evalNode formulas frame right
      match op.apply leftValue rightValue with
      | .ok result => settle result [leftValue, rightValue]
      | .error cause => fail cause) := by
  rw [evalNode_eq]
  rfl

theorem evalNode_apply (f : MathFunction) (argument : Expr) :
    evalNode formulas frame (.apply f argument) = (do
      let value ← evalNode formulas frame argument
      modify (·.noteRounding f.isRounding)
      settle (f.apply value) [value]) := by
  rw [evalNode_eq]
  rfl

theorem evalNode_abs (operand : Expr) :
    evalNode formulas frame (.abs operand) = (do
      let value ← evalNode formulas frame operand
      return value.abs) := by
  rw [evalNode_eq]
  rfl

theorem evalNode_broken : evalNode formulas frame .broken = fail .brokenExpression := by
  rw [evalNode_eq]
  rfl

variable {frame} (id : FunctionId) (argument : Expr)

theorem evalNode_call_of_lt (h : maxCallDepth < frame.depth) :
    evalNode formulas frame (.call id argument) = fail (.recursionLimit id) := by
  rw [evalNode_eq, Frame.enter?, if_neg (UInt32.not_le.mpr h)]
  rfl

theorem evalNode_call_self (h : frame.depth ≤ maxCallDepth) (hid : frame.ownId = some id) :
    evalNode formulas frame (.call id argument) = fail (.selfReference id) := by
  rw [evalNode_eq, Frame.enter?, if_pos h, evalTree, if_pos hid]

theorem evalNode_call (h : frame.depth ≤ maxCallDepth) (hid : frame.ownId ≠ some id) :
    evalNode formulas frame (.call id argument) = (do
      match ← resolve formulas id with
      | .error cause => fail cause
      | .ok body =>
        let value ← evalNode formulas frame argument
        let (result, inner) := (evalNode formulas (frame.enter id value) body).run {}
        leave result inner) := by
  rw [evalNode_eq, Frame.enter?, if_pos h, evalTree, if_neg hid]
  rfl

end Nodes

/-! ## Steps of a context -/

namespace Context

/-- Records a failure in the context. -/
def fail (context : Context) (error : EvalError) : Float × Context :=
  let (value, progress) := (Formulary.fail error).run context.toProgress
  (value, { context with toProgress := progress })

/-- The value of a tree, and the context after its evaluation. -/
def evalNode (context : Context) (formulas : Formulas) (e : Expr) : Float × Context :=
  let (value, progress) := (Formulary.evalNode formulas context.toFrame e).run context.toProgress
  (value, { context with toProgress := progress })

end Context

/-! ## Whole formulas -/

/-- The outcome of evaluating a formula. -/
structure Evaluation where
  /-- The value, which means nothing after a failure. -/
  value : Float
  /-- The formula has failed. -/
  failed : Bool
  /-- A rounding function was used. -/
  usedRounding : Bool
  /-- The first failure. -/
  failure : Option EvalError
  deriving DecidableEq, Repr

namespace Evaluation

/-- The value, or why there is none. A failure without a cause is put down to the value. -/
def toExcept (evaluation : Evaluation) : Except EvalError Float :=
  match evaluation.failure with
  | some cause => .error cause
  | none => if evaluation.failed then .error .nonFinite else .ok evaluation.value

/-- The value, if there is one. -/
def value? (evaluation : Evaluation) : Option Float :=
  if evaluation.failed then none else some evaluation.value

end Evaluation

/-- What a record tells of a formula that comes to `value`. -/
def Progress.outcome (progress : Progress) (value : Float) : Evaluation where
  value
  failed := progress.hasFailed
  usedRounding := progress.usedRounding
  failure := progress.failure

/-- Evaluates a formula in a context, and yields the context after it. A value that is not finite
is a failure. -/
def Context.evaluate (context : Context) (formulas : Formulas) (e : Expr) :
    Evaluation × Context :=
  let (value, walked) := context.evalNode formulas e
  let after :=
    if !walked.hasFailed && !value.isFinite then (walked.fail .nonFinite).2 else walked
  (after.outcome value, after)

/-- Evaluates a tree for an input, as the formula filed under `ownId` if that is a number. -/
def evaluate (formulas : Formulas) (e : Expr) (input : Float) (ownId : Option FunctionId) :
    Evaluation :=
  ((Context.start input ownId).evaluate formulas e).1

/-- The flag of failure is raised just if there is a cause. -/
theorem Context.failed_evaluate (context : Context) (formulas : Formulas) (e : Expr) :
    (context.evaluate formulas e).1.failed = (context.evaluate formulas e).1.failure.isSome := rfl

theorem failed_evaluate (formulas : Formulas) (e : Expr) (input : Float)
    (ownId : Option FunctionId) :
    (evaluate formulas e input ownId).failed = (evaluate formulas e input ownId).failure.isSome :=
  (Context.start input ownId).failed_evaluate formulas e

/-- Evaluates a text. One that is no formula fails as a broken expression. -/
def evaluateText (formulas : Formulas) (text : String) (input : Float)
    (ownId : Option FunctionId) : Evaluation :=
  evaluate formulas (parseText text) input ownId

/-- The value of a text for an input, or why it has none. -/
def evaluateFormula (formulas : Formulas) (text : String) (input : Float) :
    Except FormulaError Float :=
  match parseFormula text with
  | .error cause => .error (.parse cause)
  | .ok tree => (evaluate formulas tree input none).toExcept.mapError .eval

end Formulary
