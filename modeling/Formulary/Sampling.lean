import Formulary.Curve
import Formulary.Evaluation

/-!
# Sampling

A formula is sampled at inputs evenly spaced over a range (`SampleRange.inputAt`). The work is cut
into jobs, each of them a list of indices (`SamplingConfig.jobs`). A job has a context of its own,
which it resets for each of its samples (`SamplingTask.run`), so that it reads the formulas
referred to once. Jobs share nothing, and how the indices are cut into them has no bearing on the
curve.
-/

namespace Formulary

/-! ## What is asked for -/

/-- How curves are sampled and drawn. -/
structure SamplingConfig where
  /-- The samples of a curve. -/
  samples : Nat := 1920
  /-- The furthest that the values of connected neighbours may be apart. -/
  jumpTolerance : Float := 5
  /-- The same for curves that a rounding function was used for. -/
  steppedJumpTolerance : Float := 0.5
  /-- From this many samples on, a curve takes several jobs. -/
  severalJobsFrom : Nat := 256
  deriving DecidableEq, Repr

/-- The tolerance that fits the curve. -/
def SamplingConfig.toleranceFor (config : SamplingConfig) (curve : Curve) : Float :=
  if curve.usedRounding then config.steppedJumpTolerance else config.jumpTolerance

/-- The inputs between two ends. -/
structure SampleRange where
  start : Float
  stop : Float
  deriving DecidableEq, Repr

/-- The input of a sample, given its index and how many there are. Both ends are sampled, unless
there is but one sample, which is at the start. -/
def SampleRange.inputAt (range : SampleRange) (index samples : Nat) : Float :=
  if samples ≤ 1 then range.start
  else range.start + index.toFloat * ((range.stop - range.start) / (samples - 1).toFloat)

/-! ## Jobs -/

/-- The samples of a job where there are several. -/
def jobLength : Nat := 64

/-- The indices of the samples, cut into jobs. -/
def SamplingConfig.jobs (config : SamplingConfig) : List (List Nat) :=
  let indices := List.range config.samples
  if config.samples < config.severalJobsFrom then [indices]
  else indices.splitBy fun i j => i / jobLength = j / jobLength

/-- A formula to be sampled. -/
structure SamplingTask where
  formulas : Formulas
  tree : Expr
  ownId : Option FunctionId
  range : SampleRange
  /-- The samples of the whole curve. -/
  samples : Nat

namespace SamplingTask

/-- The input of the sample with this index. -/
def inputAt (task : SamplingTask) (index : Nat) : Float :=
  task.range.inputAt index task.samples

/-- The context that a job begins with. -/
def context (task : SamplingTask) : Context :=
  .start task.range.start task.ownId

/-- The evaluations of a job, each with the index of its sample, one after another in the same
context. -/
def run (task : SamplingTask) (context : Context) : List Nat → List (Nat × Evaluation)
  | [] => []
  | index :: rest =>
    let (evaluation, after) :=
      (context.reset (task.inputAt index)).evaluate task.formulas task.tree
    (index, evaluation) :: task.run after rest

/-- The evaluations of all the jobs, in the order of their indices. -/
def runAll (task : SamplingTask) (jobs : List (List Nat)) : List (Nat × Evaluation) :=
  (jobs.flatMap (task.run task.context)).mergeSort fun a b => a.1 ≤ b.1

/-- The curve that is sampled by these jobs. A broken tree has no value anywhere. -/
def curve (task : SamplingTask) (axis : Axis) (jobs : List (List Nat)) : Curve :=
  if task.tree = .broken then
    { function := task.ownId, axis, usedRounding := false, broken := true
      samples := (List.range task.samples).map fun i => ⟨task.inputAt i, none⟩ }
  else
    let results := task.runAll jobs
    { function := task.ownId, axis, usedRounding := results.any (·.2.usedRounding), broken := false
      samples := results.map fun (index, evaluation) => ⟨task.inputAt index, evaluation.value?⟩ }

end SamplingTask

/-! ## Curves -/

/-- The curve of a tree. -/
def sampleExpr (config : SamplingConfig) (formulas : Formulas) (tree : Expr)
    (ownId : Option FunctionId) (axis : Axis) (range : SampleRange) : Curve :=
  let task : SamplingTask := { formulas, tree, ownId, range, samples := config.samples }
  task.curve axis config.jobs

/-- The curve of a text in `x`. -/
def sampleText (config : SamplingConfig) (formulas : Formulas) (text : String)
    (ownId : Option FunctionId) (range : SampleRange) : Curve :=
  sampleExpr config formulas (parseText text) ownId .x range

/-- The curve of an entry, against its own axis. -/
def sampleEntry (config : SamplingConfig) (formulas : Formulas) (entry : Entry)
    (range : SampleRange) : Curve :=
  sampleExpr config formulas (parseText entry.canonicalFormula) (some entry.id) entry.axis range

/-- The curves of all entries, in their order. -/
def Registry.sampleAll (registry : Registry) (config : SamplingConfig) (range : SampleRange) :
    List Curve :=
  registry.entries.map (sampleEntry config registry.formula · range)

end Formulary
