import Formulary.Proofs.Runs
import Formulary.Proofs.Effects

/-!
# Evaluation as a machine

`evalNode` is given by recursion on the tree and on the calls that are left. A `Machine` has
neither. It looks at one node at a time, or at the value that one has come to, and keeps what is
still to be done in a list of tasks. The body of a call is evaluated in an activation of its own
while its caller waits, and nothing but the checks of a call keeps the machine from calling on and
on.

The machine also looks up the formula of a call twice, before the argument is evaluated and again
when the body is entered, in the context as the argument has left it (`Machine.perform`). The walk
takes the tree of the first look.

* `Machine.reaches_arrived` : from a tree on, the machine comes to what the walk comes to.
* `Machine.exists_run_eq_stop` : from a context on, it ends, with the value and the context of
  `Context.evalNode`.
-/

namespace Formulary

/-! ## The machine -/

/-- What is to be done with the value of a part. -/
inductive Task where
  | unary (op : UnaryOp)
  /-- The value is the left one, and the right operand comes next. -/
  | right (op : BinaryOp) (operand : Expr)
  /-- The value is the right one. -/
  | binary (leftValue : Float) (op : BinaryOp)
  | apply (f : MathFunction)
  | abs
  /-- The value is the input that the formula `id` is entered with. -/
  | enter (id : FunctionId)
  deriving DecidableEq, Repr

/-- A formula in evaluation : its context, and what is to be done there, the next task first. -/
structure Activation where
  context : Context
  tasks : List Task := []
  deriving DecidableEq, Repr

/-- What the machine looks at : a tree, or the value that one has come to. -/
inductive Focus where
  | tree (e : Expr)
  | value (value : Float)
  deriving DecidableEq, Repr

/-- An evaluation in progress : the formula that is being evaluated, and those that wait for it,
the latest caller first. -/
structure Machine where
  focus : Focus
  active : Activation
  callers : List Activation := []
  deriving DecidableEq, Repr

/-- The activation with another record. -/
def Activation.withRecord (activation : Activation) (progress : Progress) : Activation :=
  { activation with context := { activation.context with toProgress := progress } }

namespace Machine

/-- Before the evaluation of a tree in a context. -/
def start (context : Context) (e : Expr) : Machine :=
  ⟨.tree e, ⟨context, []⟩, []⟩

/-- After an evaluation that comes to a value and a context. -/
def stop (out : Float × Context) : Machine :=
  ⟨.value out.1, ⟨out.2, []⟩, []⟩

/-- Some steps on the record of the active formula come to a value. -/
def yield (m : Machine) (steps : StateM Progress Float) : Machine :=
  let (value, progress) := steps.run m.active.context.toProgress
  { m with focus := .value value, active := m.active.withRecord progress }

/-- A part is looked at, and the task waits for its value. -/
def await (m : Machine) (part : Expr) (task : Task) : Machine :=
  { m with focus := .tree part, active := { m.active with tasks := task :: m.active.tasks } }

/-- A tree is looked at. -/
def visit (formulas : Formulas) (m : Machine) : Expr → Machine
  | .literal value => m.yield (pure value)
  | .var name => m.yield (pure (name.value m.active.context.input))
  | .unary op operand => m.await operand (.unary op)
  | .binary left op right => m.await left (.right op right)
  | .apply f argument => m.await argument (.apply f)
  | .abs operand => m.await operand .abs
  | .call id argument =>
    if maxCallDepth < m.active.context.depth then m.yield (fail (.recursionLimit id))
    else if m.active.context.ownId = some id then m.yield (fail (.selfReference id))
    else match (resolve formulas id).run m.active.context.toProgress with
      | (.error cause, progress) =>
        { m with active := m.active.withRecord progress }.yield (fail cause)
      | (.ok _, progress) =>
        { m with active := m.active.withRecord progress }.await argument (.enter id)
  | .broken => m.yield (fail .brokenExpression)

/-- A task is done with a value. The body of a formula that is entered is looked up once more, in
the context as the argument has left it. -/
def perform (m : Machine) (value : Float) : Task → Machine
  | .unary op => m.yield (pure (op.apply value))
  | .right op operand => m.await operand (.binary value op)
  | .binary leftValue op =>
    m.yield <| match op.apply leftValue value with
      | .ok result => settle result [leftValue, value]
      | .error cause => fail cause
  | .apply f =>
    m.yield do
      modify (·.noteRounding f.isRounding)
      settle (f.apply value) [value]
  | .abs => m.yield (pure value.abs)
  | .enter id =>
    match m.active.context.reference? id with
    | none => m.yield (fail (.unknownFunction id))
    | some body =>
      { focus := .tree body
        active := { context := { toFrame := m.active.context.toFrame.enter id value } }
        callers := m.active :: m.callers }

/-- One step, unless the evaluation is at its end. -/
def step (formulas : Formulas) (m : Machine) : Option Machine :=
  match m.focus, m.active.tasks, m.callers with
  | .tree e, _, _ => some (m.visit formulas e)
  | .value value, task :: tasks, _ =>
    some ({ m with active := { m.active with tasks } }.perform value task)
  | .value value, [], caller :: callers =>
    some (yield ⟨m.focus, caller, callers⟩ (leave value m.active.context.toProgress))
  | .value _, [], [] => none

/-- The machine after `n` steps, or at its end if that comes first. -/
abbrev run (formulas : Formulas) (n : Nat) (m : Machine) : Machine :=
  runFor (step formulas) n m

/-- The contexts that were made for the bodies of calls : all but that of the first formula. -/
def nested (m : Machine) : List Context :=
  (m.active :: m.callers).dropLast.map Activation.context

end Machine

/-! ## The machine comes to what the walk comes to -/

/-- A formula that is found is kept. -/
theorem reference?_of_resolve {formulas : Formulas} {id : FunctionId} {body : Expr}
    {before kept : Progress} (h : (resolve formulas id).run before = (.ok body, kept)) :
    kept.reference? id = some body := by
  simp only [resolve, StateT.run] at h
  split at h
  · next hkept =>
    obtain ⟨⟨⟩, rfl⟩ := Prod.mk.inj h
    exact hkept
  · split at h
    · obtain ⟨⟨⟩, rfl⟩ := Prod.mk.inj h
      exact before.reference?_keep_self id _
    · cases h

namespace Machine

variable {formulas : Formulas} {frame : Frame} {id : FunctionId} {argument body : Expr}
  {p kept : Progress} {tasks : List Task} {callers : List Activation}

/-- The value and the record that a walk comes to, with the tasks and the callers as before. -/
def arrived (frame : Frame) (tasks : List Task) (callers : List Activation)
    (out : Float × Progress) : Machine :=
  ⟨.value out.1, ⟨⟨frame, out.2⟩, tasks⟩, callers⟩

/-- A call that is not turned away looks at its argument. -/
theorem step_call (hdepth : frame.depth ≤ maxCallDepth) (hown : frame.ownId ≠ some id)
    (hresolve : (resolve formulas id).run p = (.ok body, kept)) :
    step formulas ⟨.tree (.call id argument), ⟨⟨frame, p⟩, tasks⟩, callers⟩ =
      some ⟨.tree argument, ⟨⟨frame, kept⟩, .enter id :: tasks⟩, callers⟩ := by
  simp only [step, visit, if_neg (UInt32.not_lt.mpr hdepth), if_neg hown, hresolve]
  rfl

theorem step_call_error {cause : EvalError} (hdepth : frame.depth ≤ maxCallDepth)
    (hown : frame.ownId ≠ some id) (hresolve : (resolve formulas id).run p = (.error cause, kept)) :
    step formulas ⟨.tree (.call id argument), ⟨⟨frame, p⟩, tasks⟩, callers⟩ =
      some (arrived frame tasks callers ((fail cause).run kept)) := by
  simp only [step, visit, if_neg (UInt32.not_lt.mpr hdepth), if_neg hown, hresolve]
  rfl

/-- A formula whose tree is kept is entered. -/
theorem step_enter (input : Float) (hkept : p.reference? id = some body) :
    step formulas ⟨.value input, ⟨⟨frame, p⟩, .enter id :: tasks⟩, callers⟩ =
      some ⟨.tree body, ⟨⟨frame.enter id input, {}⟩, []⟩, ⟨⟨frame, p⟩, tasks⟩ :: callers⟩ := by
  simp only [step, perform, hkept]

/-- From a tree on, the machine comes to what the walk of the tree comes to. -/
theorem reaches_arrived (formulas : Formulas) (frame : Frame) (e : Expr) (p : Progress)
    (tasks : List Task) (callers : List Activation) :
    Reaches (step formulas) ⟨.tree e, ⟨⟨frame, p⟩, tasks⟩, callers⟩
      (arrived frame tasks callers ((evalNode formulas frame e).run p)) := by
  induction frame, e using Frame.walk_induction generalizing p tasks callers with
  | literal frame value =>
    rw [evalNode_literal]
    exact .single rfl
  | var frame name =>
    rw [evalNode_var]
    exact .single rfl
  | unary frame op operand ih =>
    have hoperand := ih p (.unary op :: tasks) callers
    rw [evalNode_unary]
    exact .head rfl (hoperand.tail rfl)
  | binary frame left op right ihLeft ihRight =>
    have hleft := ihLeft p (.right op right :: tasks) callers
    rw [evalNode_binary, StateT.run_bind]
    generalize (evalNode formulas frame left).run p = walked at hleft ⊢
    have hright := ihRight walked.2 (.binary walked.1 op :: tasks) callers
    exact .head rfl (hleft.trans (.head rfl (hright.tail rfl)))
  | apply frame f argument ih =>
    have hargument := ih p (.apply f :: tasks) callers
    rw [evalNode_apply]
    exact .head rfl (hargument.tail rfl)
  | abs frame operand ih =>
    have hoperand := ih p (.abs :: tasks) callers
    rw [evalNode_abs]
    exact .head rfl (hoperand.tail rfl)
  | callTooDeep frame id argument hlt =>
    rw [evalNode_call_of_lt formulas id argument hlt]
    exact .single (congrArg some (if_pos hlt))
  | callSelf frame id argument hdepth hown =>
    rw [evalNode_call_self formulas id argument hdepth hown]
    exact .single (congrArg some ((if_neg (UInt32.not_lt.mpr hdepth)).trans (if_pos hown)))
  | call frame id argument hdepth hown ih ihBody =>
    rw [evalNode_call formulas id argument hdepth hown, StateT.run_bind]
    rcases hresolve : (resolve formulas id).run p with ⟨cause | body, kept⟩
    · exact .single (step_call_error hdepth hown hresolve)
    have hargument := ih kept (.enter id :: tasks) callers
    -- What was kept for the call is still there when the argument has been walked.
    have hkept := (evalNode_steps formulas frame argument).reference?_of_some
      (reference?_of_resolve hresolve)
    change Reaches (step formulas) _ (arrived frame tasks callers
      (StateT.run (do
        let value ← evalNode formulas frame argument
        let (result, inner) := (evalNode formulas (frame.enter id value) body).run {}
        leave result inner) kept))
    rw [StateT.run_bind]
    generalize (evalNode formulas frame argument).run kept = walked at hargument hkept ⊢
    have hbody := ihBody walked.1 body {} [] (⟨⟨frame, walked.2⟩, tasks⟩ :: callers)
    exact .head (step_call hdepth hown hresolve)
      (hargument.trans (.head (step_enter walked.1 hkept) (hbody.tail rfl)))
  | broken frame =>
    rw [evalNode_broken]
    exact .single rfl

/-- The machine comes to its end with what the walk comes to. -/
theorem exists_run_eq_stop (formulas : Formulas) (context : Context) (e : Expr) :
    ∃ n, (start context e).run formulas n = stop (context.evalNode formulas e) :=
  exists_runFor_of_reaches (reaches_arrived formulas context.toFrame e context.toProgress [] [])

end Machine

end Formulary
