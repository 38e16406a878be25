import Mathlib.Data.List.Forall2
import Mathlib.Data.List.Sort
import Mathlib.Data.List.SplitBy
import Formulary.Proofs.Reuse
import Formulary.Sampling

/-!
# Schedules

The samples of a curve are cut into jobs, and a job takes one after another in the same context. A
`Schedule` is any way to do that, in any order. None has a bearing on the curve : what a sample
leaves behind in the context of its job is filed (`Progress.Faithful`), and the reset before the
next one does away with the rest.

* `SamplingTask.run_eq` : a job comes to independent evaluations.
* `SamplingTask.runAll_eq` : so does a schedule, in the order of the indices.
* `SamplingTask.curve_eq` : the curve of a schedule, without the schedule.
* `sampling_pointwise` : the curves of trees, texts and registries, sample by sample.
-/

namespace Formulary

/-- A way to cut the samples of a curve into jobs : each index is in one job, once. -/
structure Schedule (samples : Nat) where
  jobs : List (List Nat)
  perm : jobs.flatten.Perm (List.range samples)

/-- The schedule of a configuration. -/
def SamplingConfig.schedule (config : SamplingConfig) : Schedule config.samples where
  jobs := config.jobs
  perm := by
    have hflatten : config.jobs.flatten = List.range config.samples := by
      unfold SamplingConfig.jobs
      split
      · exact List.flatten_singleton
      · exact List.flatten_splitBy _ _
    rw [hflatten]

/-! ## Jobs -/

namespace SamplingTask

/-- The evaluation of a sample on its own. -/
def evaluationAt (task : SamplingTask) (index : Nat) : Evaluation :=
  evaluate task.formulas task.tree (task.inputAt index) task.ownId

variable (task : SamplingTask)

/-- A job evaluates each of its samples as if it were the only one. -/
theorem run_eq {context : Context} (hkept : context.toProgress.Faithful task.formulas)
    (hown : context.ownId = task.ownId) (job : List Nat) :
    task.run context job = job.map fun index => (index, task.evaluationAt index) := by
  induction job generalizing context with
  | nil => rfl
  | cons index rest ih =>
    have hsample : ((context.reset (task.inputAt index)).evaluate task.formulas task.tree).1 =
        task.evaluationAt index := by
      rw [Context.evaluate_reset hkept, hown]
      rfl
    have hreset : (context.reset (task.inputAt index)).toProgress.Faithful task.formulas := hkept
    have hrest := ih (Context.faithful_evaluate hreset task.tree)
      (Context.ownId_evaluate.trans hown)
    rw [run, List.map_cons, ← hrest, ← hsample]

/-- The jobs of a schedule evaluate each sample once, as if it were the only one. -/
theorem runAll_eq (schedule : Schedule task.samples) :
    task.runAll schedule.jobs =
      (List.range task.samples).map fun index => (index, task.evaluationAt index) := by
  have hjobs : schedule.jobs.flatMap (task.run task.context) =
      schedule.jobs.flatten.map fun index => (index, task.evaluationAt index) := by
    rw [List.map_flatten, List.flatMap]
    refine congrArg List.flatten (List.map_congr_left fun job _ => ?_)
    exact task.run_eq (Context.faithful_start _ _ _) rfl job
  have horder : schedule.jobs.flatten.mergeSort (· ≤ ·) = List.range task.samples :=
    ((List.mergeSort_perm _ _).trans schedule.perm).eq_of_sortedLE List.sortedLE_mergeSort
      List.pairwise_le_range.sortedLE
  rw [runAll, hjobs, ← horder, List.map_mergeSort]
  exact fun _ _ _ _ => rfl

theorem evaluate_broken (formulas : Formulas) (input : Float) (ownId : Option FunctionId) :
    evaluate formulas .broken input ownId = ⟨notANumber, true, false, some .brokenExpression⟩ := by
  have hwalk : (evalNode formulas { input, ownId } .broken).run {} =
      (notANumber, ({} : Progress).fail .brokenExpression) := by
    rw [evalNode_broken]
    rfl
  rw [evaluate_eq_of_run hwalk]
  rfl

/-- The curve of a schedule. A broken tree is no exception, for it fails at all inputs. -/
theorem curve_eq (axis : Axis) (schedule : Schedule task.samples) :
    task.curve axis schedule.jobs =
      { function := task.ownId
        axis
        samples := (List.range task.samples).map fun index =>
          ⟨task.inputAt index, (task.evaluationAt index).value?⟩
        usedRounding := (List.range task.samples).any fun index =>
          (task.evaluationAt index).usedRounding
        broken := task.tree = .broken } := by
  unfold curve
  split
  · rename_i hbroken
    simp [evaluationAt, hbroken, evaluate_broken, Evaluation.value?]
  · rename_i hbroken
    simp [runAll_eq, hbroken, Function.comp_def]

end SamplingTask

/-! ## Curves -/

/-- The curve has this many samples over the range, and they are those of independent
evaluations. -/
structure Curve.Pointwise (curve : Curve) (samples : Nat) (range : SampleRange)
    (evaluateAt : Float → Evaluation) : Prop where
  length_samples : curve.samples.length = samples
  getElem?_samples : ∀ i < samples, curve.samples[i]? =
    some ⟨range.inputAt i samples, (evaluateAt (range.inputAt i samples)).value?⟩
  usedRounding_iff : curve.usedRounding = true ↔
    ∃ i < samples, (evaluateAt (range.inputAt i samples)).usedRounding = true

theorem SamplingTask.pointwise_curve (task : SamplingTask) (axis : Axis)
    (schedule : Schedule task.samples) :
    (task.curve axis schedule.jobs).Pointwise task.samples task.range
      (evaluate task.formulas task.tree · task.ownId) := by
  rw [curve_eq]
  constructor
  · simp
  · intro i hi
    simp [hi, evaluationAt, inputAt]
  · simp [evaluationAt, inputAt]

theorem sampleExpr_eq_curve (config : SamplingConfig) (formulas : Formulas) (tree : Expr)
    (ownId : Option FunctionId) (axis : Axis) (range : SampleRange)
    (schedule : Schedule config.samples) :
    sampleExpr config formulas tree ownId axis range =
      SamplingTask.curve ⟨formulas, tree, ownId, range, config.samples⟩ axis schedule.jobs := by
  let task : SamplingTask := ⟨formulas, tree, ownId, range, config.samples⟩
  exact (task.curve_eq axis config.schedule).trans (task.curve_eq axis schedule).symm

/-- Curves are sampled by independent evaluations, whichever way the samples are cut into jobs. -/
theorem sampling_pointwise (config : SamplingConfig) (range : SampleRange) :
    (∀ (formulas : Formulas) (tree : Expr) (ownId : Option FunctionId) (axis : Axis)
      (schedule : Schedule config.samples),
      let task : SamplingTask := ⟨formulas, tree, ownId, range, config.samples⟩
      let curve := task.curve axis schedule.jobs
      curve.Pointwise config.samples range (evaluate formulas tree · ownId) ∧
        (curve.broken = true ↔ tree = .broken) ∧ curve.function = ownId ∧ curve.axis = axis ∧
        sampleExpr config formulas tree ownId axis range = curve) ∧
    (∀ (formulas : Formulas) (tree : Expr) (ownId : Option FunctionId) (axis : Axis) (n : Nat),
      sampleExpr { config with severalJobsFrom := n } formulas tree ownId axis range =
        sampleExpr config formulas tree ownId axis range) ∧
    (∀ (formulas : Formulas) (text : String) (ownId : Option FunctionId),
      (sampleText config formulas text ownId range).Pointwise config.samples range
        (evaluateText formulas text · ownId)) ∧
    ∀ registry : Registry, List.Forall₂
      (fun entry curve => curve.function = some entry.id ∧ curve.axis = entry.axis ∧
        curve.Pointwise config.samples range
          (evaluateText registry.formula entry.canonicalFormula · (some entry.id)))
      registry.entries (registry.sampleAll config range) := by
  refine ⟨fun formulas tree ownId axis schedule => ?_, fun formulas tree ownId axis n => ?_,
    fun formulas text ownId => ?_, fun registry => ?_⟩
  · intro task curve
    have hcurve := task.curve_eq axis schedule
    refine ⟨task.pointwise_curve axis schedule, ?_, congrArg Curve.function hcurve,
      congrArg Curve.axis hcurve,
      sampleExpr_eq_curve config formulas tree ownId axis range schedule⟩
    rw [congrArg Curve.broken hcurve]
    exact decide_eq_true_iff
  · exact sampleExpr_eq_curve { config with severalJobsFrom := n } formulas tree ownId axis range
      config.schedule
  · exact SamplingTask.pointwise_curve ⟨formulas, parseText text, ownId, range, config.samples⟩ .x
      config.schedule
  · refine List.forall₂_map_right_iff.mpr (List.forall₂_same.mpr fun entry _ => ?_)
    let task : SamplingTask := ⟨registry.formula, parseText entry.canonicalFormula, some entry.id,
      range, config.samples⟩
    have hcurve := task.curve_eq entry.axis config.schedule
    exact ⟨congrArg Curve.function hcurve, congrArg Curve.axis hcurve,
      task.pointwise_curve entry.axis config.schedule⟩

end Formulary
