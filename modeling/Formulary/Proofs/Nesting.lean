import Formulary.Proofs.Substitution

/-!
# A formula and a call of it

A formula is evaluated on its own, in a frame that is nested in no call, and as the body of a call,
one call deeper. What the depth decides is one thing only, whether a call in there is over the
limit. So of two evaluations of a tree, the one that is nested less deep does the same steps as the
other, unless the other one fails at the limit (`Strict.UnlessTooDeep`).

* `Strict.UnlessTooDeep.bind` : steps that go on after each other.
* `evalStrict_unlessTooDeep` : one tree, nested in more calls and in fewer.
* `evaluate_call_input` : a formula called with its input, and the formula on its own.
-/

namespace Formulary

namespace Strict

variable {α β : Type}

/-- The outcome of some steps is that of others, unless those fail at the limit of calls. -/
def UnlessTooDeep (deep shallow : Strict α) : Prop :=
  ∀ used, (∀ id, deep.run used ≠ .error (.recursionLimit id)) → shallow.run used = deep.run used

namespace UnlessTooDeep

theorem refl (steps : Strict α) : UnlessTooDeep steps steps :=
  fun _ _ => rfl

theorem recursionLimit (id : FunctionId) (steps : Strict α) :
    UnlessTooDeep (throw (.recursionLimit id)) steps :=
  fun _ h => absurd rfl (h id)

/-- Where the steps as a whole do not fail at the limit, the first of them do not. -/
theorem bind {deep shallow : Strict α} {next next' : α → Strict β}
    (h : UnlessTooDeep deep shallow) (hnext : ∀ value, UnlessTooDeep (next value) (next' value)) :
    UnlessTooDeep (deep >>= next) (shallow >>= next') := by
  intro used hwhole
  rw [StateT.run_bind] at hwhole
  have hfirst : ∀ id, deep.run used ≠ .error (.recursionLimit id) := by
    intro id hid
    rw [hid] at hwhole
    exact hwhole id rfl
  rw [StateT.run_bind, StateT.run_bind, h used hfirst]
  generalize deep.run used = outcome at hwhole
  rcases outcome with cause | ⟨value, used'⟩
  · rfl
  · exact hnext value used' hwhole

end UnlessTooDeep

/-- A finite value is as good as one that was checked before. -/
theorem finite_bind_finite (value : Float) : (finite value >>= finite) = finite value := by
  unfold finite
  by_cases h : value.isFinite
  · rw [if_pos h, pure_bind, if_pos h]
  · rw [if_neg h]
    rfl

end Strict

/-- A tree that is nested in fewer calls has the same outcome, unless the limit was in the way. -/
theorem evalStrict_unlessTooDeep (formulas : Formulas) {frame outer : Frame} (e : Expr)
    (hinput : outer.input = frame.input) (hown : outer.ownId = frame.ownId)
    (hdepth : outer.depth ≤ frame.depth) :
    (evalStrict formulas frame e).UnlessTooDeep (evalStrict formulas outer e) := by
  induction frame, e using Frame.walk_induction generalizing outer with
  | literal frame _ | broken frame =>
    rw [evalStrict, evalStrict]
    exact .refl _
  | var frame _ =>
    rw [evalStrict, evalStrict, hinput]
    exact .refl _
  | unary frame _ operand ih | abs frame operand ih =>
    rw [evalStrict, evalStrict]
    exact (ih hinput hown hdepth).bind fun _ => .refl _
  | binary frame left _ right ihLeft ihRight =>
    rw [evalStrict, evalStrict]
    refine (ihLeft hinput hown hdepth).bind fun _ => ?_
    exact (ihRight hinput hown hdepth).bind fun _ => .refl _
  | apply frame _ argument ih =>
    rw [evalStrict, evalStrict]
    exact (ih hinput hown hdepth).bind fun _ => .refl _
  | callTooDeep frame id argument h =>
    rw [evalStrict_call_of_lt formulas id argument h]
    exact .recursionLimit id _
  | callSelf frame id argument hcalls hself =>
    rw [evalStrict_call_self formulas id argument hcalls hself,
      evalStrict_call_self formulas id argument (UInt32.le_trans hdepth hcalls)
        (hown.trans hself)]
    exact .refl _
  | call frame id argument hcalls hother ih ihBody =>
    rw [evalStrict_call formulas id argument hcalls hother,
      evalStrict_call formulas id argument (UInt32.le_trans hdepth hcalls) (hown ▸ hother)]
    refine .bind (.refl _) fun body => (ih hinput hown hdepth).bind fun input => ?_
    -- The body is nested one call deeper on both sides.
    have hbody : (evalStrict formulas (frame.enter id input) body).UnlessTooDeep
        (evalStrict formulas (outer.enter id input) body) :=
      ihBody input body rfl rfl (Frame.depth_enter_le hdepth hcalls id input)
    exact hbody.bind fun _ => .refl _

section

variable {formulas : Formulas} {id : FunctionId} {text : String}

/-- The outcome of an evaluation is that of the strict one. -/
theorem toExcept_of_strict (e : Expr) (input : Float) (ownId : Option FunctionId) :
    (evaluate formulas e input ownId).toExcept =
      (evaluateStrict formulas e input ownId).map Prod.fst := by
  cases h : evaluateStrict formulas e input ownId with
  | ok out =>
    rw [evaluate_of_strict.1 out.1 out.2 h]
    rfl
  | error cause =>
    rw [Evaluation.toExcept, evaluate_of_strict.2 cause h]
    rfl

/-- A call with the input evaluates the body one call deeper. That the value has to be finite is
asked twice, by the call and by the whole. -/
theorem evaluateStrict_call_input (h : formulas.body id = .ok (parseText text)) (input : Float) :
    evaluateStrict formulas (.call id (.var .bound)) input none =
      (do
        let value ← evalStrict formulas { input, ownId := some id, depth := 1 } (parseText text)
        Strict.finite value).run false := by
  have hcall : evalStrict formulas { input } (.call id (.var .bound)) = (do
      let value ← evalStrict formulas { input, ownId := some id, depth := 1 } (parseText text)
      Strict.finite value) := by
    rw [evalStrict_call formulas id _ UInt32.zero_le (Option.some_ne_none id).symm, h, evalStrict]
    rfl
  rw [evaluateStrict, hcall, bind_assoc]
  simp only [Strict.finite_bind_finite]

end

/-- A formula that is called with its input comes to what it comes to on its own, a value or a
failure, unless the call fails at the limit of calls. -/
theorem evaluate_call_input {formulas : Formulas} {id : FunctionId} {text : String}
    (hfiled : formulas id = some text) (hvalid : containsInvalid (tokenize text) = false)
    (input : Float) :
    let called := evaluate formulas (.call id (.var .bound)) input none
    let direct := evaluate formulas (parseText text) input (some id)
    ((∀ limit, called.failure ≠ some (.recursionLimit limit)) →
        called.toExcept = direct.toExcept) ∧
      ∀ value, called.toExcept = .ok value → direct.toExcept = .ok value := by
  intro called direct
  have hbody : formulas.body id = .ok (parseText text) := by
    rw [Formulas.body_of_some hfiled, hvalid]
    rfl
  have hdeep := evaluateStrict_call_input hbody input
  have hagree : (∀ limit, called.failure ≠ some (.recursionLimit limit)) →
      called.toExcept = direct.toExcept := by
    intro hlimit
    have hnested : ∀ limit, evaluateStrict formulas (.call id (.var .bound)) input none ≠
        .error (.recursionLimit limit) :=
      fun limit h => hlimit limit (evaluate_of_strict.2 _ h)
    rw [hdeep] at hnested
    have hbodies : (evalStrict formulas { input, ownId := some id, depth := 1 }
        (parseText text)).UnlessTooDeep
        (evalStrict formulas { input, ownId := some id } (parseText text)) :=
      evalStrict_unlessTooDeep formulas _ rfl rfl UInt32.zero_le
    have hwhole := hbodies.bind fun value => .refl (Strict.finite value)
    rw [toExcept_of_strict, toExcept_of_strict, hdeep, ← hwhole false hnested]
    rfl
  refine ⟨hagree, fun value hvalue => ?_⟩
  rw [← hagree ?_, hvalue]
  intro limit hfailure
  rw [Evaluation.toExcept, hfailure] at hvalue
  cases hvalue

/-- A formula with a call in it, which has a value at two and fails at zero. -/
theorem evaluate_call_input_nested :
    let text := "f0(x) / x"
    let formulas : Formulas := .ofPairs [(0, "x*x + 1"), (1, text)]
    let called (input : Float) := evaluate formulas (.call 1 (.var .bound)) input none
    let direct (input : Float) := evaluate formulas (parseText text) input (some 1)
    formulas 1 = some text ∧ containsInvalid (tokenize text) = false ∧
      (called 2).toExcept = .ok 2.5 ∧ (direct 2).toExcept = .ok 2.5 ∧
      (∀ limit, (called 0).failure ≠ some (.recursionLimit limit)) ∧
      (called 0).toExcept = .error .divisionByZero ∧
      (called 0).toExcept = (direct 0).toExcept := by
  intro text formulas called direct
  have hfiled : formulas 1 = some text := by decide
  have hvalid : containsInvalid (tokenize text) = false := by decide +kernel
  have hcalled : called 2 = ⟨2.5, false, false, none⟩ := by decide +kernel
  have hvalue : (called 2).toExcept = .ok 2.5 := congrArg Evaluation.toExcept hcalled
  have hfailure : (called 0).failure = some .divisionByZero := by decide +kernel
  have hlimit : ∀ limit, (called 0).failure ≠ some (.recursionLimit limit) :=
    fun limit h => nomatch hfailure.symm.trans h
  refine ⟨hfiled, hvalid, hvalue, (evaluate_call_input hfiled hvalid 2).2 _ hvalue, hlimit, ?_,
    (evaluate_call_input hfiled hvalid 0).1 hlimit⟩
  rw [Evaluation.toExcept, hfailure]

/-- Where a formula has as many calls nested in it as may be, a call of it has one too many. -/
example :
    let text := "f1(x)"
    let formulas : Formulas := .ofPairs [(0, text), (1, "f2(x)"), (2, "f3(x)"), (3, "x")]
    (evaluate formulas (.call 0 (.var .bound)) 2 none).failure = some (.recursionLimit 3) ∧
      (evaluate formulas (parseText text) 2 (some 0)).value? = some 2 := by
  decide +kernel

end Formulary
