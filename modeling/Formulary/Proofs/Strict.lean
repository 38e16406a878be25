import Formulary.Evaluation
import Formulary.Proofs.Floats

/-!
# Evaluation that stops

`evalStrict` evaluates a tree the way its meaning is told : step after step, until one fails. The
rules of arithmetic are written out here once more (`Strict.binary`, `Strict.settle`). With
`evalNode` it shares neither the record of failures nor the kept references : it looks each formula
up where it is called.

The walk of `evalNode` goes on after a failure, with a value that means nothing. `Refines` says
what holds of it all the same, wherever in a tree it starts : if a failure was recorded, that one
stays, and if none was, the walk comes to what the strict steps come to.

* `Refines.bind`, `Refines.resolve`, `Refines.enter` : the ways to put steps together.
* `evalNode_refines` : the walk of any tree in any frame refines the strict evaluation.
* `evaluate_eq_strict` : the evaluation of a formula is the strict one.
-/

namespace Formulary

/-! ## The strict evaluator -/

/-- Steps that end with the first one that fails. The state tells whether a rounding function was
used. -/
abbrev Strict := StateT Bool (Except EvalError)

namespace Strict

/-- A step fails if its result is not a number and each of its operands is one. -/
def settle (result : Float) (operands : List Float) : Strict Float :=
  if result.isNaN = true ∧ ∀ operand ∈ operands, operand.isNaN = false then throw .nonFinite
  else pure result

/-- An operator between two values. Zero divides nothing, whatever its sign. -/
def binary (op : BinaryOp) (left right : Float) : Strict Float :=
  match op with
  | .add => settle (left + right) [left, right]
  | .sub => settle (left - right) [left, right]
  | .mul => settle (left * right) [left, right]
  | .div =>
    if right = 0 ∨ right = -0 then throw .divisionByZero
    else settle (left / right) [left, right]
  | .pow => settle (left.pow right) [left, right]

/-- A value that has to be finite. -/
def finite (value : Float) : Strict Float :=
  if value.isFinite then pure value else throw .nonFinite

/-- A rounding function is used, if `used`. -/
def noteRounding (used : Bool) : Strict Unit :=
  modify (· || used)

end Strict

/-- The value of a tree in a frame, or the first failure on the way from left to right. -/
def evalStrict (formulas : Formulas) (frame : Frame) : Expr → Strict Float
  | .literal value => pure value
  | .var name => pure (name.value frame.input)
  | .unary op operand => do
    let value ← evalStrict formulas frame operand
    return op.apply value
  | .binary left op right => do
    let leftValue ← evalStrict formulas frame left
    let rightValue ← evalStrict formulas frame right
    Strict.binary op leftValue rightValue
  | .apply f argument => do
    let value ← evalStrict formulas frame argument
    Strict.noteRounding f.isRounding
    Strict.settle (f.apply value) [value]
  | .abs operand => do
    let value ← evalStrict formulas frame operand
    return value.abs
  | .call id argument =>
    if _ : maxCallDepth < frame.depth then throw (.recursionLimit id)
    else if frame.ownId = some id then throw (.selfReference id)
    else do
      let body ← formulas.body id
      let input ← evalStrict formulas frame argument
      let result ← evalStrict formulas (frame.enter id input) body
      Strict.finite result
  | .broken => throw .brokenExpression
termination_by e => (frame.callsLeft, e)
decreasing_by
  all_goals first
    | exact Prod.Lex.right _ (by decreasing_tactic)
    | exact Prod.Lex.left _ _ (Frame.callsLeft_enter_lt (UInt32.not_lt.mp ‹_›) _ _)

section Calls

variable (formulas : Formulas) {frame : Frame} (id : FunctionId) (argument : Expr)

theorem evalStrict_call_of_lt (h : maxCallDepth < frame.depth) :
    evalStrict formulas frame (.call id argument) = throw (.recursionLimit id) := by
  rw [evalStrict, dif_pos h]

theorem evalStrict_call_self (h : frame.depth ≤ maxCallDepth) (hid : frame.ownId = some id) :
    evalStrict formulas frame (.call id argument) = throw (.selfReference id) := by
  rw [evalStrict, dif_neg (UInt32.not_lt.mpr h), if_pos hid]

theorem evalStrict_call (h : frame.depth ≤ maxCallDepth) (hid : frame.ownId ≠ some id) :
    evalStrict formulas frame (.call id argument) = (do
      let body ← formulas.body id
      let input ← evalStrict formulas frame argument
      let result ← evalStrict formulas (frame.enter id input) body
      Strict.finite result) := by
  rw [evalStrict, dif_neg (UInt32.not_lt.mpr h), if_neg hid]

end Calls

/-- The value of a formula for an input and whether a rounding function was used, or the first
failure. -/
def evaluateStrict (formulas : Formulas) (e : Expr) (input : Float) (ownId : Option FunctionId) :
    Except EvalError (Float × Bool) :=
  (do
    let value ← evalStrict formulas { input, ownId } e
    Strict.finite value).run false

/-! ## The rules of arithmetic -/

theorem introducesNaN_iff {result : Float} {operands : List Float} :
    introducesNaN result operands = true ↔
      result.isNaN = true ∧ ∀ operand ∈ operands, operand.isNaN = false := by
  simp [introducesNaN]

theorem Strict.settle_eq (result : Float) (operands : List Float) :
    settle result operands =
      if introducesNaN result operands then throw .nonFinite else pure result := by
  simp only [settle, introducesNaN_iff]

/-- The rules of the operators are those that evaluation goes by. -/
theorem Strict.binary_eq (op : BinaryOp) (left right : Float) :
    binary op left right = (do
      let result ← op.apply left right
      settle result [left, right]) := by
  cases op with
  | add | sub | mul | pow => rfl
  | div =>
    simp only [binary, BinaryOp.apply, beq_zero_iff]
    split <;> rfl

/-! ## Refinement -/

/-- The kept references are those that are filed. -/
def Progress.Faithful (formulas : Formulas) (progress : Progress) : Prop :=
  ∀ id body, progress.reference? id = some body → formulas.body id = .ok body

theorem Progress.faithful_keep {formulas : Formulas} {progress : Progress} {id : FunctionId}
    {body : Expr} (hp : progress.Faithful formulas) (h : formulas.body id = .ok body) :
    (progress.keep id body).Faithful formulas := by
  intro other tree hother
  by_cases hid : other = id
  · subst hid
    rw [reference?_keep_self, Option.some.injEq] at hother
    exact hother ▸ h
  · rw [reference?_keep_of_ne _ _ hid] at hother
    exact hp other tree hother

/-- What is looked up is what is filed, and only the kept references may change. -/
theorem Progress.Faithful.resolve_run {formulas : Formulas} {progress : Progress}
    (hp : progress.Faithful formulas) (id : FunctionId) :
    ∃ after, (resolve formulas id).run progress = (formulas.body id, after) ∧
      after.Faithful formulas ∧ after.failure = progress.failure ∧
      after.usedRounding = progress.usedRounding := by
  cases hkept : progress.reference? id with
  | some body =>
    refine ⟨progress, ?_, hp, rfl, rfl⟩
    rw [hp id body hkept]
    simp only [resolve, StateT.run, hkept]
  | none =>
    cases hbody : formulas.body id with
    | ok body =>
      refine ⟨progress.keep id body, ?_, faithful_keep hp hbody, rfl, rfl⟩
      simp only [resolve, StateT.run, hkept, hbody]
    | error cause =>
      refine ⟨progress, ?_, hp, rfl, rfl⟩
      simp only [resolve, StateT.run, hkept, hbody]

/-- What strict steps come to tells what the walk comes to. `before` says whether a rounding
function was used before the frame was entered : the strict steps are told, the walk is not. -/
def Foretells {α : Type} (before : Bool) : Except EvalError (α × Bool) → α × Progress → Prop
  | .ok (value, used), (walked, after) =>
    walked = value ∧ after.failure = none ∧ used = (before || after.usedRounding)
  | .error cause, (_, after) => after.failure = some cause

/-- A walk with a record of failures does what the strict steps do. -/
def Refines (formulas : Formulas) {α : Type} (walk : StateM Progress α) (strict : Strict α) :
    Prop :=
  ∀ progress : Progress, progress.Faithful formulas →
    (walk.run progress).2.Faithful formulas ∧
    (∀ cause, progress.failure = some cause → (walk.run progress).2.failure = some cause) ∧
    (progress.failure = none → ∀ before,
      Foretells before (strict.run (before || progress.usedRounding)) (walk.run progress))

namespace Refines

variable {formulas : Formulas} {α β : Type}

theorem pure (value : α) : Refines formulas (pure value) (pure value) :=
  fun _ hp => ⟨hp, fun _ h => h, fun h _ => ⟨rfl, h, rfl⟩⟩

theorem fail (cause : EvalError) : Refines formulas (fail cause) (throw cause) := by
  intro progress hp
  refine ⟨hp, fun first h => ?_, fun h before => ?_⟩
  · exact (progress.failure_fail cause).trans (by rw [h]; rfl)
  · exact (progress.failure_fail cause).trans (by rw [h]; rfl)

theorem bind {walk : StateM Progress α} {strict : Strict α} {next : α → StateM Progress β}
    {strictNext : α → Strict β} (h : Refines formulas walk strict)
    (hnext : ∀ value, Refines formulas (next value) (strictNext value)) :
    Refines formulas (walk >>= next) (strict >>= strictNext) := by
  intro progress hp
  obtain ⟨hfaithful, hfailed, hfresh⟩ := h progress hp
  -- After a failure, the walk goes on with whatever value it has.
  obtain ⟨hfaithful', hfailed', hfresh'⟩ := hnext (walk.run progress).1 _ hfaithful
  refine ⟨hfaithful', fun cause hcause => hfailed' cause (hfailed cause hcause),
    fun hnone before => ?_⟩
  have hfirst := hfresh hnone before
  rw [StateT.run_bind]
  generalize strict.run (before || progress.usedRounding) = outcome at hfirst ⊢
  rcases outcome with cause | ⟨value, used⟩
  · exact hfailed' cause hfirst
  · obtain ⟨rfl, hnone', rfl⟩ := hfirst
    exact hfresh' hnone' before

theorem settle (result : Float) (operands : List Float) :
    Refines formulas (settle result operands) (Strict.settle result operands) := by
  rw [Formulary.settle, Strict.settle_eq]
  split
  · exact fail _
  · exact pure _

theorem binary (op : BinaryOp) (left right : Float) :
    Refines formulas
      (match op.apply left right with
      | .ok result => Formulary.settle result [left, right]
      | .error cause => Formulary.fail cause)
      (Strict.binary op left right) := by
  rw [Strict.binary_eq]
  cases op.apply left right with
  | ok result => exact settle result _
  | error cause => exact fail cause

theorem noteRounding (used : Bool) :
    Refines formulas (modify (·.noteRounding used)) (Strict.noteRounding used) :=
  fun _ hp => ⟨hp, fun _ h => h, fun h _ => ⟨rfl, h, Bool.or_assoc ..⟩⟩

/-- Looking a formula up, where it may have been kept. -/
theorem resolve {id : FunctionId} {next : Expr → StateM Progress Float}
    {strictNext : Expr → Strict Float}
    (hnext : ∀ body, Refines formulas (next body) (strictNext body)) :
    Refines formulas
      (do
        match ← Formulary.resolve formulas id with
        | .error cause => Formulary.fail cause
        | .ok body => next body)
      (do
        let body ← formulas.body id
        strictNext body) := by
  intro progress hp
  obtain ⟨after, hrun, hfaithful, hfailure, hused⟩ := hp.resolve_run id
  rw [StateT.run_bind, hrun, ← hfailure, ← hused]
  cases formulas.body id with
  | error cause => exact fail cause after hfaithful
  | ok body => exact hnext body after hfaithful

/-- Calling a formula, in a walk of its own. -/
theorem enter {walk : StateM Progress Float} {strict : Strict Float}
    (h : Refines formulas walk strict) :
    Refines formulas
      (let (result, inner) := walk.run {}
      leave result inner)
      (do
        let result ← strict
        Strict.finite result) := by
  obtain ⟨-, -, hfresh⟩ := h {} (fun _ _ hkept => nomatch hkept)
  generalize walk.run {} = called at hfresh ⊢
  obtain ⟨result, inner⟩ := called
  have hstrict : (do
      let value ← strict
      Strict.finite value) = (do
      Strict.noteRounding inner.usedRounding
      if inner.hasFailed || !result.isFinite then throw (inner.failure.getD .nonFinite)
      else return result) := by
    ext before
    have hcalled := hfresh rfl before
    rw [Bool.or_false] at hcalled
    rw [StateT.run_bind]
    generalize strict.run before = outcome at hcalled ⊢
    rcases outcome with cause | ⟨value, used⟩
    · have hcause : inner.failure = some cause := hcalled
      rw [if_pos (by rw [Progress.hasFailed, hcause]; rfl), hcause]
      rfl
    · obtain ⟨rfl, hnone, rfl⟩ := hcalled
      change (Strict.finite result).run (before || inner.usedRounding) = _
      rw [Progress.hasFailed, hnone, Strict.finite]
      cases result.isFinite <;> rfl
  rw [hstrict]
  refine bind (noteRounding _) fun _ => ?_
  split
  · exact fail _
  · exact pure _

end Refines

/-- The walk of a tree does what the strict steps do. -/
theorem evalNode_refines (formulas : Formulas) (frame : Frame) (e : Expr) :
    Refines formulas (evalNode formulas frame e) (evalStrict formulas frame e) := by
  induction frame, e using Frame.walk_induction with
  | literal frame value =>
    rw [evalNode_literal, evalStrict]
    exact .pure value
  | var frame name =>
    rw [evalNode_var, evalStrict]
    exact .pure _
  | unary frame op operand ih =>
    rw [evalNode_unary, evalStrict]
    exact ih.bind fun value => .pure _
  | binary frame left op right ihLeft ihRight =>
    rw [evalNode_binary, evalStrict]
    exact ihLeft.bind fun leftValue => ihRight.bind fun rightValue => .binary op _ _
  | apply frame f argument ih =>
    rw [evalNode_apply, evalStrict]
    exact ih.bind fun value => (Refines.noteRounding f.isRounding).bind fun _ => .settle _ _
  | abs frame operand ih =>
    rw [evalNode_abs, evalStrict]
    exact ih.bind fun value => .pure _
  | callTooDeep frame id argument h =>
    rw [evalNode_call_of_lt formulas id argument h, evalStrict_call_of_lt formulas id argument h]
    exact .fail _
  | callSelf frame id argument hdepth hown =>
    rw [evalNode_call_self formulas id argument hdepth hown,
      evalStrict_call_self formulas id argument hdepth hown]
    exact .fail _
  | call frame id argument hdepth hown ih ihBody =>
    rw [evalNode_call formulas id argument hdepth hown,
      evalStrict_call formulas id argument hdepth hown]
    exact .resolve fun body => ih.bind fun input => .enter (ihBody input body)
  | broken frame =>
    rw [evalNode_broken, evalStrict]
    exact .fail _

/-! ## Whole formulas -/

/-- The record after the walk of a whole formula that comes to `value`. -/
def Progress.conclude (progress : Progress) (value : Float) : Progress :=
  if value.isFinite then progress else progress.fail .nonFinite

theorem Progress.failure_conclude_of_some {progress : Progress} {cause : EvalError}
    (h : progress.failure = some cause) (value : Float) :
    (progress.conclude value).failure = some cause := by
  unfold conclude
  split
  · exact h
  · rw [failure_fail, h]
    rfl

theorem Progress.failure_conclude_eq_none_iff {progress : Progress} {value : Float} :
    (progress.conclude value).failure = none ↔
      progress.failure = none ∧ value.isFinite = true := by
  unfold conclude
  by_cases hfinite : value.isFinite = true
  · rw [if_pos hfinite]
    exact (and_iff_left hfinite).symm
  · rw [if_neg hfinite, failure_fail]
    exact iff_of_false (Option.some_ne_none _) fun h => hfinite h.2

section Whole

variable {formulas : Formulas} {e : Expr}

/-- The evaluation of a formula in a context, told by the walk of its tree. -/
theorem Context.evaluate_of_walk {context : Context} {value : Float} {after : Progress}
    (h : (Formulary.evalNode formulas context.toFrame e).run context.toProgress = (value, after)) :
    context.evaluate formulas e = ((after.conclude value).outcome value,
      { context with toProgress := after.conclude value }) := by
  have hwalk : context.evalNode formulas e = (value, { context with toProgress := after }) := by
    rw [evalNode, h]
  obtain ⟨used, failure, references⟩ := after
  simp only [evaluate, hwalk, Progress.conclude]
  cases value.isFinite <;> cases failure <;> rfl

variable {input : Float} {ownId : Option FunctionId}

/-- The evaluation of a formula on its own. -/
theorem evaluate_eq_of_run {value : Float} {after : Progress}
    (h : (evalNode formulas { input, ownId } e).run {} = (value, after)) :
    evaluate formulas e input ownId = (after.conclude value).outcome value := by
  have hwalk : (evalNode formulas (Context.start input ownId).toFrame e).run
      (Context.start input ownId).toProgress = (value, after) := h
  rw [evaluate, Context.evaluate_of_walk hwalk]

/-- The strict evaluation of a formula tells what its evaluation yields. -/
theorem evaluate_of_strict :
    (∀ value used, evaluateStrict formulas e input ownId = .ok (value, used) →
      evaluate formulas e input ownId = ⟨value, false, used, none⟩) ∧
    ∀ cause, evaluateStrict formulas e input ownId = .error cause →
      (evaluate formulas e input ownId).failure = some cause := by
  obtain ⟨-, -, hfresh⟩ := evalNode_refines formulas { input, ownId } e {} (fun _ _ h => nomatch h)
  have hwalk := hfresh rfl false
  rw [evaluateStrict, StateT.run_bind]
  generalize hrun : (evalNode formulas { input, ownId } e).run {} = walked at hwalk
  obtain ⟨value, after⟩ := walked
  rw [evaluate_eq_of_run hrun]
  change Foretells false ((evalStrict formulas { input, ownId } e).run false) _ at hwalk
  generalize (evalStrict formulas { input, ownId } e).run false = outcome at hwalk ⊢
  rcases outcome with cause | ⟨result, used⟩
  · have hcause : after.failure = some cause := hwalk
    refine ⟨fun _ _ h => (nomatch h), fun _ h => ?_⟩
    rw [← Except.error.inj h]
    exact Progress.failure_conclude_of_some hcause value
  · obtain ⟨rfl, hnone, rfl⟩ := hwalk
    rw [Bool.false_or, Progress.conclude]
    change (∀ value' used, (Strict.finite value).run after.usedRounding = .ok (value', used) → _) ∧
      ∀ cause, (Strict.finite value).run after.usedRounding = .error cause → _
    rw [Strict.finite]
    cases value.isFinite
    · refine ⟨fun _ _ h => (nomatch h), fun _ h => ?_⟩
      rw [← Except.error.inj h]
      exact (after.failure_fail _).trans (by rw [hnone]; rfl)
    · refine ⟨fun _ _ h => ?_, fun _ h => (nomatch h)⟩
      obtain ⟨rfl, rfl⟩ := Prod.mk.inj (Except.ok.inj h)
      rw [if_pos rfl, Progress.outcome, Progress.hasFailed, hnone]
      rfl

end Whole

/-- The evaluation of a formula yields what the strict evaluation yields : the same value, with
the same note of rounding functions, or the same failure. -/
theorem evaluate_eq_strict (formulas : Formulas) (e : Expr) (input : Float)
    (ownId : Option FunctionId) :
    ((evaluate formulas e input ownId).toExcept.map fun value =>
      (value, (evaluate formulas e input ownId).usedRounding)) =
      evaluateStrict formulas e input ownId := by
  cases h : evaluateStrict formulas e input ownId with
  | ok outcome =>
    rw [evaluate_of_strict.1 _ _ h]
    rfl
  | error cause =>
    rw [Evaluation.toExcept, evaluate_of_strict.2 cause h]
    rfl

end Formulary
