import Formulary.Proofs.Strict

/-!
# Values by rules

`Yields` tells the value of a tree by rules, one for each kind of node. Of failures it says
nothing : where a step fails, there is no rule to apply. Nor does it say whether rounding functions
are used.

* `yields_of_run`, `Yields.run` : a tree has a value by the rules iff its strict evaluation ends.
* `value?_evaluate_eq_some_iff` : the value of a whole formula, by the rules.
-/

namespace Formulary

/-- The tree has a value in the frame. -/
inductive Yields (formulas : Formulas) : Frame → Expr → Float → Prop where
  | literal {frame : Frame} (value : Float) : Yields formulas frame (.literal value) value
  | var {frame : Frame} (name : Variable) :
    Yields formulas frame (.var name) (name.value frame.input)
  | unary {frame : Frame} {operand : Expr} {value : Float} (op : UnaryOp)
    (hoperand : Yields formulas frame operand value) :
    Yields formulas frame (.unary op operand) (op.apply value)
  | binary {frame : Frame} {left right : Expr} {leftValue rightValue result : Float}
    {op : BinaryOp} (hleft : Yields formulas frame left leftValue)
    (hright : Yields formulas frame right rightValue)
    (happly : op.apply leftValue rightValue = .ok result)
    (hnumber : introducesNaN result [leftValue, rightValue] = false) :
    Yields formulas frame (.binary left op right) result
  | apply {frame : Frame} {argument : Expr} {value : Float} (f : MathFunction)
    (hargument : Yields formulas frame argument value)
    (hnumber : introducesNaN (f.apply value) [value] = false) :
    Yields formulas frame (.apply f argument) (f.apply value)
  | abs {frame : Frame} {operand : Expr} {value : Float}
    (hoperand : Yields formulas frame operand value) :
    Yields formulas frame (.abs operand) value.abs
  /-- The body is looked up, and has a finite value for that of the argument. -/
  | call {frame : Frame} {id : FunctionId} {argument body : Expr} {input result : Float}
    (hdepth : frame.depth ≤ maxCallDepth) (hown : frame.ownId ≠ some id)
    (hbody : formulas.body id = .ok body) (hargument : Yields formulas frame argument input)
    (hresult : Yields formulas (frame.enter id input) body result)
    (hfinite : result.isFinite = true) :
    Yields formulas frame (.call id argument) result

/-! ## Steps that end -/

namespace Strict

variable {α β : Type} {used : Bool}

theorem run_bind_eq_ok {steps : Strict α} {next : α → Strict β} {out : β × Bool} :
    (steps >>= next).run used = .ok out ↔
      ∃ value used', steps.run used = .ok (value, used') ∧ (next value).run used' = .ok out := by
  rw [StateT.run_bind]
  generalize steps.run used = outcome
  rcases outcome with cause | ⟨value, used'⟩
  · exact ⟨fun h => (nomatch h), fun ⟨_, _, h, _⟩ => (nomatch h)⟩
  · refine ⟨fun h => ⟨value, used', rfl, h⟩, fun ⟨_, _, h, hnext⟩ => ?_⟩
    obtain ⟨rfl, rfl⟩ := Prod.mk.inj (Except.ok.inj h)
    exact hnext

theorem run_pure_eq_ok {value : α} {out : α × Bool} :
    (pure value : Strict α).run used = .ok out ↔ out = (value, used) :=
  ⟨fun h => (Except.ok.inj h).symm, fun h => h ▸ rfl⟩

theorem run_lift_eq_ok {outcome : Except EvalError α} {out : α × Bool} :
    (liftM outcome : Strict α).run used = .ok out ↔ outcome = .ok out.1 ∧ out.2 = used := by
  cases outcome with
  | error cause => exact ⟨fun h => (nomatch h), fun h => (nomatch h.1)⟩
  | ok value =>
    obtain ⟨value', used'⟩ := out
    refine ⟨fun h => ?_, fun ⟨hvalue, hused⟩ => ?_⟩
    · obtain ⟨rfl, rfl⟩ := Prod.mk.inj (Except.ok.inj h)
      exact ⟨rfl, rfl⟩
    · obtain rfl := Except.ok.inj hvalue
      exact congrArg (fun used => Except.ok (value, used)) hused.symm

theorem run_settle_eq_ok {result : Float} {operands : List Float} {out : Float × Bool} :
    (settle result operands).run used = .ok out ↔
      introducesNaN result operands = false ∧ out = (result, used) := by
  rw [settle_eq]
  cases introducesNaN result operands with
  | false => exact run_pure_eq_ok.trans ⟨fun h => ⟨rfl, h⟩, fun h => h.2⟩
  | true => exact ⟨fun h => (nomatch h), fun h => (nomatch h.1)⟩

theorem run_binary_eq_ok {op : BinaryOp} {left right : Float} {out : Float × Bool} :
    (binary op left right).run used = .ok out ↔ ∃ result, op.apply left right = .ok result ∧
      introducesNaN result [left, right] = false ∧ out = (result, used) := by
  rw [binary_eq, run_bind_eq_ok]
  constructor
  · rintro ⟨result, used', happly, h⟩
    obtain rfl : used' = used := (run_lift_eq_ok.mp happly).2
    exact ⟨result, (run_lift_eq_ok.mp happly).1, run_settle_eq_ok.mp h⟩
  · rintro ⟨result, happly, h⟩
    exact ⟨result, used, run_lift_eq_ok.mpr ⟨happly, rfl⟩, run_settle_eq_ok.mpr h⟩

theorem run_finite_eq_ok {value : Float} {out : Float × Bool} :
    (finite value).run used = .ok out ↔ value.isFinite = true ∧ out = (value, used) := by
  unfold finite
  cases value.isFinite with
  | true => exact run_pure_eq_ok.trans ⟨fun h => ⟨rfl, h⟩, fun h => h.2⟩
  | false => exact ⟨fun h => (nomatch h), fun h => (nomatch h.1)⟩

end Strict

/-! ## The rules and the strict evaluation -/

section

variable {formulas : Formulas} {frame : Frame} {e : Expr} {value : Float}

/-- What the strict evaluation ends with is a value by the rules. -/
theorem yields_of_run (frame : Frame) (e : Expr) {value : Float} {used used' : Bool}
    (h : (evalStrict formulas frame e).run used = .ok (value, used')) :
    Yields formulas frame e value := by
  induction frame, e using Frame.walk_induction generalizing value used used' with
  | literal frame literal =>
    rw [evalStrict] at h
    obtain ⟨rfl, -⟩ := Prod.mk.inj (Strict.run_pure_eq_ok.mp h)
    exact .literal _
  | var frame name =>
    rw [evalStrict] at h
    obtain ⟨rfl, -⟩ := Prod.mk.inj (Strict.run_pure_eq_ok.mp h)
    exact .var name
  | unary frame op operand ih =>
    rw [evalStrict] at h
    obtain ⟨a, _, ha, h⟩ := Strict.run_bind_eq_ok.mp h
    obtain ⟨rfl, -⟩ := Prod.mk.inj (Strict.run_pure_eq_ok.mp h)
    exact .unary op (ih ha)
  | binary frame left op right ihLeft ihRight =>
    rw [evalStrict] at h
    obtain ⟨a, _, ha, h⟩ := Strict.run_bind_eq_ok.mp h
    obtain ⟨b, _, hb, h⟩ := Strict.run_bind_eq_ok.mp h
    obtain ⟨c, happly, hnumber, h⟩ := Strict.run_binary_eq_ok.mp h
    obtain ⟨rfl, -⟩ := Prod.mk.inj h
    exact .binary (ihLeft ha) (ihRight hb) happly hnumber
  | apply frame f argument ih =>
    rw [evalStrict] at h
    obtain ⟨a, _, ha, h⟩ := Strict.run_bind_eq_ok.mp h
    obtain ⟨_, _, -, h⟩ := Strict.run_bind_eq_ok.mp h
    obtain ⟨hnumber, h⟩ := Strict.run_settle_eq_ok.mp h
    obtain ⟨rfl, -⟩ := Prod.mk.inj h
    exact .apply f (ih ha) hnumber
  | abs frame operand ih =>
    rw [evalStrict] at h
    obtain ⟨a, _, ha, h⟩ := Strict.run_bind_eq_ok.mp h
    obtain ⟨rfl, -⟩ := Prod.mk.inj (Strict.run_pure_eq_ok.mp h)
    exact .abs (ih ha)
  | callTooDeep frame id argument hlt =>
    rw [evalStrict_call_of_lt formulas id argument hlt] at h
    cases h
  | callSelf frame id argument hdepth hown =>
    rw [evalStrict_call_self formulas id argument hdepth hown] at h
    cases h
  | call frame id argument hdepth hown ih ihBody =>
    rw [evalStrict_call formulas id argument hdepth hown] at h
    obtain ⟨body, _, hbody, h⟩ := Strict.run_bind_eq_ok.mp h
    obtain ⟨input, _, hargument, h⟩ := Strict.run_bind_eq_ok.mp h
    obtain ⟨result, _, hresult, h⟩ := Strict.run_bind_eq_ok.mp h
    obtain ⟨hfinite, h⟩ := Strict.run_finite_eq_ok.mp h
    obtain ⟨rfl, -⟩ := Prod.mk.inj h
    exact .call hdepth hown (Strict.run_lift_eq_ok.mp hbody).1 (ih hargument)
      (ihBody input body hresult) hfinite
  | broken frame =>
    rw [evalStrict] at h
    cases h

/-- Where the rules give a value, the strict evaluation ends with it. -/
theorem Yields.run (h : Yields formulas frame e value) (used : Bool) :
    ∃ used', (evalStrict formulas frame e).run used = .ok (value, used') := by
  induction h generalizing used with
  | literal value =>
    rw [evalStrict]
    exact ⟨used, rfl⟩
  | var name =>
    rw [evalStrict]
    exact ⟨used, rfl⟩
  | unary op _ ih =>
    obtain ⟨used', hoperand⟩ := ih used
    rw [evalStrict]
    exact ⟨used', Strict.run_bind_eq_ok.mpr ⟨_, _, hoperand, rfl⟩⟩
  | binary _ _ happly hnumber ihLeft ihRight =>
    obtain ⟨used₁, hleft⟩ := ihLeft used
    obtain ⟨used₂, hright⟩ := ihRight used₁
    rw [evalStrict]
    refine ⟨used₂, Strict.run_bind_eq_ok.mpr ⟨_, _, hleft, ?_⟩⟩
    refine Strict.run_bind_eq_ok.mpr ⟨_, _, hright, ?_⟩
    exact Strict.run_binary_eq_ok.mpr ⟨_, happly, hnumber, rfl⟩
  | apply f _ hnumber ih =>
    obtain ⟨used', hargument⟩ := ih used
    rw [evalStrict]
    refine ⟨used' || f.isRounding, Strict.run_bind_eq_ok.mpr ⟨_, _, hargument, ?_⟩⟩
    refine Strict.run_bind_eq_ok.mpr ⟨(), used' || f.isRounding, rfl, ?_⟩
    exact Strict.run_settle_eq_ok.mpr ⟨hnumber, rfl⟩
  | abs _ ih =>
    obtain ⟨used', hoperand⟩ := ih used
    rw [evalStrict]
    exact ⟨used', Strict.run_bind_eq_ok.mpr ⟨_, _, hoperand, rfl⟩⟩
  | call hdepth hown hbody _ _ hfinite ihArgument ihResult =>
    obtain ⟨used₁, hargument⟩ := ihArgument used
    obtain ⟨used₂, hresult⟩ := ihResult used₁
    rw [evalStrict_call formulas _ _ hdepth hown]
    refine ⟨used₂, Strict.run_bind_eq_ok.mpr ⟨_, used, Strict.run_lift_eq_ok.mpr ⟨hbody, rfl⟩, ?_⟩⟩
    refine Strict.run_bind_eq_ok.mpr ⟨_, _, hargument, ?_⟩
    refine Strict.run_bind_eq_ok.mpr ⟨_, _, hresult, ?_⟩
    exact Strict.run_finite_eq_ok.mpr ⟨hfinite, rfl⟩

/-- A formula has a value just if its tree has it by the rules, and it is finite. -/
theorem value?_evaluate_eq_some_iff {input : Float} {ownId : Option FunctionId} :
    (evaluate formulas e input ownId).value? = some value ↔
      Yields formulas { input, ownId } e value ∧ value.isFinite = true := by
  have hstrict : (∃ used, evaluateStrict formulas e input ownId = .ok (value, used)) ↔
      Yields formulas { input, ownId } e value ∧ value.isFinite = true := by
    constructor
    · rintro ⟨used, h⟩
      obtain ⟨result, _, hresult, h⟩ := Strict.run_bind_eq_ok.mp h
      obtain ⟨hfinite, h⟩ := Strict.run_finite_eq_ok.mp h
      obtain ⟨rfl, -⟩ := Prod.mk.inj h
      exact ⟨yields_of_run _ e hresult, hfinite⟩
    · rintro ⟨h, hfinite⟩
      obtain ⟨used, hresult⟩ := h.run false
      exact ⟨used, Strict.run_bind_eq_ok.mpr
        ⟨_, _, hresult, Strict.run_finite_eq_ok.mpr ⟨hfinite, rfl⟩⟩⟩
  rw [← hstrict]
  cases h : evaluateStrict formulas e input ownId with
  | error cause =>
    rw [Evaluation.value?, failed_evaluate, evaluate_of_strict.2 cause h]
    exact ⟨fun h => (nomatch h), fun ⟨_, h⟩ => (nomatch h)⟩
  | ok out =>
    rw [evaluate_of_strict.1 out.1 out.2 h]
    refine ⟨fun h => ⟨out.2, ?_⟩, fun ⟨_, h⟩ => ?_⟩
    · obtain rfl : out.1 = value := Option.some.inj h
      rfl
    · rw [Except.ok.inj h]
      rfl

end

end Formulary
