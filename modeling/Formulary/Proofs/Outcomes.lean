import Formulary.Proofs.Reading
import Formulary.Proofs.Reuse
import Formulary.Proofs.Schedules

/-!
# Outcomes

There are two ways to ask for the value of a text. One comes to a value or to a cause, and tells a
text with invalid parts from one that is malformed (`evaluateFormula`). The other takes any text
for a tree, one that is no formula for the broken tree, and comes to an `Evaluation`
(`evaluateText`), which signals a failure twice, by a flag and by a cause. It may be asked for the
value by either of them (`Evaluation.value?`, `Evaluation.toExcept`).

* `evaluateFormula_eq` : the first way, by what the parser tells of the tokens.
* `Progress.value?_outcome_eq_some_iff`, `Progress.toExcept_outcome_eq_ok_iff` : the value, by
  either signal.
* `outcomes_agree` : so it makes no difference which way is taken.
-/

namespace Formulary

/-! ## Texts -/

section Texts

variable {formulas : Formulas} {text : String} {input : Float} {ownId : Option FunctionId}

/-- Where the parser tells that the tokens are broken, so is the tree. -/
theorem parse_fst_of_snd {tokens : List Token} (h : (parse tokens).2 = true) :
    (parse tokens).1 = .broken := by
  by_cases hinvalid : .invalid ∈ tokens
  · rw [parse_of_invalid hinvalid]
  · rw [parse_of_valid hinvalid] at h ⊢
    split at h
    · cases h
    · rw [if_neg ‹_›]

theorem parseFormula_eq (text : String) : parseFormula text =
    if .invalid ∈ tokenize text then .error .invalidText
    else if (parse (tokenize text)).2 = true then .error .malformed
    else .ok (parseText text) := by
  simp only [parseFormula, containsInvalid_iff, parseText]
  rcases parse (tokenize text) with ⟨tree, _ | _⟩ <;> rfl

/-- What the first way comes to. Where the text is a formula, it is what the other way comes to. -/
theorem evaluateFormula_eq (formulas : Formulas) (text : String) (input : Float) :
    evaluateFormula formulas text input =
      if .invalid ∈ tokenize text then .error (.parse .invalidText)
      else if (parse (tokenize text)).2 = true then .error (.parse .malformed)
      else (evaluateText formulas text input none).toExcept.mapError .eval := by
  rw [evaluateFormula, parseFormula_eq]
  by_cases hinvalid : .invalid ∈ tokenize text
  · simp only [if_pos hinvalid]
  · by_cases hbroken : (parse (tokenize text)).2 = true
    · simp only [if_neg hinvalid, if_pos hbroken]
    · simp only [if_neg hinvalid, if_neg hbroken]
      rfl

/-- What an evaluation comes to is no failure to be a formula. -/
theorem mapError_eval_ne (outcome : Except EvalError Float) (cause : ParseError) :
    outcome.mapError FormulaError.eval ≠ .error (.parse cause) := by
  cases outcome <;> exact nofun

theorem evaluateFormula_eq_invalidText_iff :
    evaluateFormula formulas text input = .error (.parse .invalidText) ↔
      .invalid ∈ tokenize text := by
  rw [evaluateFormula_eq]
  split
  · next hinvalid => exact iff_of_true rfl hinvalid
  next hvalid =>
    refine iff_of_false ?_ hvalid
    split
    · exact nofun
    · exact mapError_eval_ne _ _

theorem evaluateFormula_eq_malformed_iff :
    evaluateFormula formulas text input = .error (.parse .malformed) ↔
      .invalid ∉ tokenize text ∧ (parse (tokenize text)).2 = true := by
  rw [evaluateFormula_eq]
  split
  · next hinvalid => exact iff_of_false nofun fun h => h.1 hinvalid
  next hvalid =>
    split
    · next hbroken => exact iff_of_true rfl ⟨hvalid, hbroken⟩
    · next hwhole => exact iff_of_false (mapError_eval_ne _ _) fun h => hwhole h.2

/-- A text that fails to be a formula has a broken tree. -/
theorem parse_snd_of_parse_error {cause : ParseError}
    (h : evaluateFormula formulas text input = .error (.parse cause)) :
    (parse (tokenize text)).2 = true := by
  cases cause with
  | invalidText =>
    exact congrArg Prod.snd (parse_of_invalid (evaluateFormula_eq_invalidText_iff.mp h))
  | malformed => exact (evaluateFormula_eq_malformed_iff.mp h).2

theorem failure_evaluateText_of_broken (h : (parse (tokenize text)).2 = true) :
    (evaluateText formulas text input ownId).failure = some .brokenExpression := by
  rw [evaluateText, parseText, parse_fst_of_snd h, SamplingTask.evaluate_broken]

end Texts

/-! ## Signals -/

section Signals

variable {progress : Progress} {value result : Float}

theorem Progress.value?_outcome_eq_some_iff :
    (progress.outcome value).value? = some result ↔ progress.failure = none ∧ value = result := by
  obtain ⟨used, _ | cause, references⟩ := progress <;>
    simp [outcome, hasFailed, Evaluation.value?]

theorem Progress.toExcept_outcome_eq_ok_iff :
    (progress.outcome value).toExcept = .ok result ↔ progress.failure = none ∧ value = result := by
  obtain ⟨used, _ | cause, references⟩ := progress <;>
    simp [outcome, hasFailed, Evaluation.toExcept]

end Signals

/-- It makes no difference how a value is asked for. For texts, the one way tells apart why a text
is no formula, where the other fails as a broken expression, and otherwise they come to the same.
For any tree in any context, the flag and the cause are raised together, and where they are not,
both ways come to the same value, a finite one. -/
theorem outcomes_agree :
    (∀ (formulas : Formulas) (text : String) (input : Float),
      let tokens := tokenize text
      let outcome := evaluateFormula formulas text input
      (outcome = .error (.parse .invalidText) ↔ .invalid ∈ tokens) ∧
      (outcome = .error (.parse .malformed) ↔ .invalid ∉ tokens ∧ (parse tokens).2 = true) ∧
      (.invalid ∉ tokens → (parse tokens).2 = false →
        outcome = (evaluateText formulas text input none).toExcept.mapError .eval) ∧
      ∀ cause, outcome = .error (.parse cause) → ∀ ownId : Option FunctionId,
        let evaluation := evaluateText formulas text input ownId
        evaluation.failed = true ∧ evaluation.failure = some .brokenExpression) ∧
    ∀ (context : Context) (formulas : Formulas) (e : Expr),
      let evaluation := (context.evaluate formulas e).1
      (evaluation.failed = true ↔ evaluation.failure.isSome = true) ∧
      ∀ value, (evaluation.value? = some value ↔ evaluation.toExcept = .ok value) ∧
        (evaluation.value? = some value → value.isFinite = true) := by
  refine ⟨fun formulas text input => ?_, fun context formulas e => ?_⟩
  · intro tokens outcome
    refine ⟨evaluateFormula_eq_invalidText_iff, evaluateFormula_eq_malformed_iff,
      fun hvalid hwhole => ?_, fun cause hcause ownId => ?_⟩
    · exact (evaluateFormula_eq formulas text input).trans
        ((if_neg hvalid).trans (if_neg (by rw [hwhole]; exact Bool.false_ne_true)))
    · have hfailure : (evaluateText formulas text input ownId).failure = some .brokenExpression :=
        failure_evaluateText_of_broken (parse_snd_of_parse_error hcause)
      exact ⟨(failed_evaluate ..).trans (congrArg Option.isSome hfailure), hfailure⟩
  · intro evaluation
    refine ⟨Bool.eq_iff_iff.mp (context.failed_evaluate formulas e), fun value => ?_⟩
    rcases hwalk : (evalNode formulas context.toFrame e).run context.toProgress with
      ⟨result, after⟩
    have hevaluation : evaluation = (after.conclude result).outcome result :=
      congrArg Prod.fst (Context.evaluate_of_walk hwalk)
    rw [hevaluation]
    refine ⟨Progress.value?_outcome_eq_some_iff.trans
      Progress.toExcept_outcome_eq_ok_iff.symm, fun hvalue => ?_⟩
    obtain ⟨hnone, rfl⟩ := Progress.value?_outcome_eq_some_iff.mp hvalue
    exact (Progress.failure_conclude_eq_none_iff.mp hnone).2

/-- A formula with a value, a text that is malformed, and a context in use, deep in calls and with
formulas that it has kept. -/
theorem outcomes_agree_three :
    let formulas : Formulas := .ofPairs [(0, "x*x + 1")]
    let context : Context :=
      { input := 2, depth := 2, usedRounding := true, references := [(1, parseText "x - 1")] }
    let e := parseText "f0(x) + f1(x)"
    .invalid ∉ tokenize "f0(x)/2" ∧ (parse (tokenize "f0(x)/2")).2 = false ∧
      evaluateFormula formulas "f0(x)/2" 3 = .ok 5 ∧
      evaluateFormula formulas "(x" 3 = .error (.parse .malformed) ∧
      (evaluateText formulas "(x" 3 (some 0)).failure = some .brokenExpression ∧
      (context.evaluate formulas e).1.value? = some 6 ∧ Float.isFinite 6 = true := by
  intro formulas context e
  have hvalid : .invalid ∉ tokenize "f0(x)/2" := by decide +kernel
  have hwhole : (parse (tokenize "f0(x)/2")).2 = false := by decide +kernel
  obtain ⟨-, -, hvalue, -⟩ := outcomes_agree.1 formulas "f0(x)/2" 3
  have hmalformed : evaluateFormula formulas "(x" 3 = .error (.parse .malformed) := by
    decide +kernel
  obtain ⟨-, -, -, hbroken⟩ := outcomes_agree.1 formulas "(x" 3
  have hsix : (context.evaluate formulas e).1.value? = some 6 := by decide +kernel
  obtain ⟨-, hagree⟩ := outcomes_agree.2 context formulas e
  refine ⟨hvalid, hwhole, (hvalue hvalid hwhole).trans ?_, hmalformed,
    (hbroken .malformed hmalformed (some 0)).2, hsix, (hagree 6).2 hsix⟩
  decide +kernel

end Formulary
