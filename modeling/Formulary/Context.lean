import Formulary.Formulas

/-!
# The context of an evaluation

An evaluation works in a `Context`. One part of it is given, and stays as it is : the `Frame`,
which holds the input, the formula's own number and how deep in calls it is. The other part is
what comes to pass, the `Progress` : the first failure, whether a rounding function was used,
and the trees of the formulas referred to so far. These trees are kept, so that a context that
serves many inputs (`Context.reset`) reads each formula once.
-/

namespace Formulary

/-- The deepest that a formula may be nested in calls and still call another. -/
def maxCallDepth : UInt32 := 2

/-- What an evaluation is given. -/
structure Frame where
  /-- The value of `x`. -/
  input : Float := 0
  /-- The number of the formula that is evaluated, if it is filed. -/
  ownId : Option FunctionId := none
  /-- The calls that the formula is nested in. -/
  depth : UInt32 := 0
  deriving DecidableEq, Repr

/-- What has come to pass in an evaluation. -/
structure Progress where
  /-- A rounding function was used. -/
  usedRounding : Bool := false
  /-- The first failure. -/
  failure : Option EvalError := none
  /-- The trees of the formulas referred to, the latest first. -/
  references : List (FunctionId × Expr) := []
  deriving DecidableEq, Repr

/-- All that an evaluation works with. -/
structure Context extends Frame, Progress
  deriving DecidableEq, Repr

namespace Frame

/-- The frame in which the formula `id` is evaluated when it is called with an input. -/
def enter (frame : Frame) (id : FunctionId) (input : Float) : Frame where
  input
  ownId := some id
  depth := frame.depth + 1

/-- The calls that may still be nested. -/
def callsLeft (frame : Frame) : Nat :=
  maxCallDepth.toNat + 1 - frame.depth.toNat

theorem toNat_depth_enter {frame : Frame} (h : frame.depth ≤ maxCallDepth) (id : FunctionId)
    (input : Float) : (frame.enter id input).depth.toNat = frame.depth.toNat + 1 := by
  have hle : frame.depth.toNat ≤ 2 := UInt32.le_iff_toNat_le.mp h
  simp only [enter, UInt32.toNat_add, UInt32.toNat_one]
  omega

/-- Each call leaves fewer of them. -/
theorem callsLeft_enter_lt {frame : Frame} (h : frame.depth ≤ maxCallDepth) (id : FunctionId)
    (input : Float) : (frame.enter id input).callsLeft < frame.callsLeft := by
  have hle : frame.depth.toNat ≤ maxCallDepth.toNat := UInt32.le_iff_toNat_le.mp h
  simp only [callsLeft, toNat_depth_enter h]
  omega

/-- Induction over the trees that are walked, each in its frame. What holds of a tree may rest on
its parts in the same frame, and what holds of a call on any tree in the frame that it enters,
unless the call is turned away. -/
@[elab_as_elim]
theorem walk_induction {motive : Frame → Expr → Prop}
    (literal : ∀ frame value, motive frame (.literal value))
    (var : ∀ frame name, motive frame (.var name))
    (unary : ∀ frame op operand, motive frame operand → motive frame (.unary op operand))
    (binary : ∀ frame left op right, motive frame left → motive frame right →
      motive frame (.binary left op right))
    (apply : ∀ frame f argument, motive frame argument → motive frame (.apply f argument))
    (abs : ∀ frame operand, motive frame operand → motive frame (.abs operand))
    (callTooDeep : ∀ (frame : Frame) id argument, maxCallDepth < frame.depth →
      motive frame (.call id argument))
    (callSelf : ∀ (frame : Frame) id argument, frame.depth ≤ maxCallDepth →
      frame.ownId = some id → motive frame (.call id argument))
    (call : ∀ (frame : Frame) id argument, frame.depth ≤ maxCallDepth → frame.ownId ≠ some id →
      motive frame argument → (∀ input body, motive (frame.enter id input) body) →
      motive frame (.call id argument))
    (broken : ∀ frame, motive frame .broken) (frame : Frame) (e : Expr) : motive frame e := by
  -- On the calls that are left, and among the trees with as many of them left on the tree.
  induction hcalls : frame.callsLeft using Nat.strongRecOn generalizing frame e with
  | ind calls ihCalls =>
    subst hcalls
    induction e with
    | literal value => exact literal frame value
    | var name => exact var frame name
    | unary op operand ih => exact unary frame op operand ih
    | binary left op right ihLeft ihRight => exact binary frame left op right ihLeft ihRight
    | apply f argument ih => exact apply frame f argument ih
    | abs operand ih => exact abs frame operand ih
    | call id argument ih =>
      by_cases hlt : maxCallDepth < frame.depth
      · exact callTooDeep frame id argument hlt
      have hdepth := UInt32.not_lt.mp hlt
      by_cases hown : frame.ownId = some id
      · exact callSelf frame id argument hdepth hown
      refine call frame id argument hdepth hown ih fun input body => ?_
      exact ihCalls _ (callsLeft_enter_lt hdepth id input) (frame.enter id input) body rfl
    | broken => exact broken frame

end Frame

namespace Progress

/-- A failure is on record. -/
def hasFailed (progress : Progress) : Bool :=
  progress.failure.isSome

/-- A failure comes to pass. Only the first one counts. -/
def fail (progress : Progress) (error : EvalError) : Progress :=
  { progress with failure := progress.failure <|> some error }

/-- A rounding function was used, if `used`. -/
def noteRounding (progress : Progress) (used : Bool) : Progress :=
  { progress with usedRounding := progress.usedRounding || used }

/-- The tree of the formula `id`, if it has been referred to. -/
def reference? (progress : Progress) (id : FunctionId) : Option Expr :=
  progress.references.lookup id

/-- The formula `id` is referred to, and has the tree `body`. -/
def keep (progress : Progress) (id : FunctionId) (body : Expr) : Progress :=
  { progress with references := (id, body) :: progress.references }

theorem failure_fail (progress : Progress) (error : EvalError) :
    (progress.fail error).failure = some (progress.failure.getD error) := by
  cases h : progress.failure <;> simp [fail, h]

@[simp] theorem reference?_keep_self (progress : Progress) (id : FunctionId) (body : Expr) :
    (progress.keep id body).reference? id = some body := by
  simp [reference?, keep]

theorem reference?_keep_of_ne (progress : Progress) {id other : FunctionId} (body : Expr)
    (h : other ≠ id) : (progress.keep id body).reference? other = progress.reference? other := by
  simp [reference?, keep, List.lookup_cons, beq_eq_false_iff_ne.mpr h]

end Progress

namespace Context

/-- Before the evaluation of a formula for an input. -/
def start (input : Float) (ownId : Option FunctionId) : Context :=
  { input, ownId }

/-- Before the evaluation of the same formula for another input. -/
def reset (context : Context) (input : Float) : Context :=
  { context with input, depth := 0, usedRounding := false, failure := none }

end Context

end Formulary
