import Formulary.Proofs.Yields

/-!
# Calls mean substitution

A call stands for the body of the formula, with the argument for its input. The two are not walked
alike : the body of a call is nested one call deeper, in the frame of another formula and after one
look at the argument, while a body that is written out is walked in the frame of the caller, with
the argument as often as its input occurs. Where the call has a value, the body written out has it
as well (`Yields.substitute`), since fewer calls around a tree take nothing from it
(`Yields.of_depth_le`), and one part with a value is as good as another with the same
(`Yields.fill`).

`value?_evaluate_inlined` puts these together for one call anywhere in a formula.
-/

namespace Formulary

/-! ## Replacing a node -/

/-- The tree with `argument` in the place of its input. -/
def Expr.substitute : Expr → Expr → Expr
  | .literal value, _ => .literal value
  | .var .bound, argument => argument
  | .var name, _ => .var name
  | .unary op operand, argument => .unary op (operand.substitute argument)
  | .binary left op right, argument =>
    .binary (left.substitute argument) op (right.substitute argument)
  | .apply f inner, argument => .apply f (inner.substitute argument)
  | .abs operand, argument => .abs (operand.substitute argument)
  | .call id inner, argument => .call id (inner.substitute argument)
  | .broken, _ => .broken

/-- A tree with a gap in the place of one node. -/
inductive Gapped where
  | gap
  | unary (op : UnaryOp) (operand : Gapped)
  | binaryLeft (left : Gapped) (op : BinaryOp) (right : Expr)
  | binaryRight (left : Expr) (op : BinaryOp) (right : Gapped)
  | apply (f : MathFunction) (argument : Gapped)
  | abs (operand : Gapped)
  | call (id : FunctionId) (argument : Gapped)

/-- The tree with `node` in the gap. -/
def Gapped.fill (node : Expr) : Gapped → Expr
  | .gap => node
  | .unary op operand => .unary op (operand.fill node)
  | .binaryLeft left op right => .binary (left.fill node) op right
  | .binaryRight left op right => .binary left op (right.fill node)
  | .apply f argument => .apply f (argument.fill node)
  | .abs operand => .abs (operand.fill node)
  | .call id argument => .call id (argument.fill node)

/-- What is nested in fewer calls may call at least as much. -/
theorem Frame.depth_enter_le {outer frame : Frame} (h : outer.depth ≤ frame.depth)
    (hcalls : frame.depth ≤ maxCallDepth) (id : FunctionId) (input : Float) :
    (outer.enter id input).depth ≤ (frame.enter id input).depth := by
  rw [UInt32.le_iff_toNat_le, toNat_depth_enter (UInt32.le_trans h hcalls),
    toNat_depth_enter hcalls]
  exact Nat.succ_le_succ (UInt32.le_iff_toNat_le.mp h)

theorem Formulas.exists_text_of_body {formulas : Formulas} {id : FunctionId} {body : Expr}
    (h : formulas.body id = .ok body) :
    ∃ text, formulas id = some text ∧ parseText text = body := by
  cases hfiled : formulas id with
  | none =>
    rw [body_of_none hfiled] at h
    exact nomatch h
  | some text =>
    rw [body_of_some hfiled] at h
    split at h
    · exact nomatch h
    · exact ⟨text, rfl, Except.ok.inj h⟩

namespace Yields

variable {formulas : Formulas} {frame : Frame} {value : Float}

/-- What has a value has a part with a value in each gap, and keeps the value if the part is
replaced by another with the same value : all parts are evaluated in the frame of the whole. -/
theorem fill {surroundings : Gapped} {node : Expr}
    (h : Yields formulas frame (surroundings.fill node) value) :
    ∃ part, Yields formulas frame node part ∧ ∀ other, Yields formulas frame other part →
      Yields formulas frame (surroundings.fill other) value := by
  induction surroundings generalizing value with
  | gap => exact ⟨value, h, fun _ hother => hother⟩
  | unary op operand ih =>
    cases h with
    | unary _ hoperand =>
      obtain ⟨part, hpart, hfill⟩ := ih hoperand
      exact ⟨part, hpart, fun other hother => .unary op (hfill other hother)⟩
  | binaryLeft left op right ih =>
    cases h with
    | binary hleft hright happly hnumber =>
      obtain ⟨part, hpart, hfill⟩ := ih hleft
      exact ⟨part, hpart, fun other hother => .binary (hfill other hother) hright happly hnumber⟩
  | binaryRight left op right ih =>
    cases h with
    | binary hleft hright happly hnumber =>
      obtain ⟨part, hpart, hfill⟩ := ih hright
      exact ⟨part, hpart, fun other hother => .binary hleft (hfill other hother) happly hnumber⟩
  | apply f argument ih =>
    cases h with
    | apply _ hargument hnumber =>
      obtain ⟨part, hpart, hfill⟩ := ih hargument
      exact ⟨part, hpart, fun other hother => .apply f (hfill other hother) hnumber⟩
  | abs operand ih =>
    cases h with
    | abs hoperand =>
      obtain ⟨part, hpart, hfill⟩ := ih hoperand
      exact ⟨part, hpart, fun other hother => .abs (hfill other hother)⟩
  | call id argument ih =>
    cases h with
    | call hdepth hown hbody hargument hresult hfinite =>
      obtain ⟨part, hpart, hfill⟩ := ih hargument
      exact ⟨part, hpart, fun other hother =>
        .call hdepth hown hbody (hfill other hother) hresult hfinite⟩

variable {e : Expr}

/-- A tree that is nested in fewer calls has the same value. -/
theorem of_depth_le (h : Yields formulas frame e value) {outer : Frame}
    (hinput : outer.input = frame.input) (hown : outer.ownId = frame.ownId)
    (hdepth : outer.depth ≤ frame.depth) : Yields formulas outer e value := by
  induction h generalizing outer with
  | literal value => exact .literal value
  | var name => exact hinput ▸ .var name
  | unary op _ ih => exact .unary op (ih hinput hown hdepth)
  | binary _ _ happly hnumber ihLeft ihRight =>
    exact .binary (ihLeft hinput hown hdepth) (ihRight hinput hown hdepth) happly hnumber
  | apply f _ hnumber ih => exact .apply f (ih hinput hown hdepth) hnumber
  | abs _ ih => exact .abs (ih hinput hown hdepth)
  | call hcalls hid hbody _ _ hfinite ihArgument ihResult =>
    exact .call (UInt32.le_trans hdepth hcalls) (hown ▸ hid) hbody (ihArgument hinput hown hdepth)
      (ihResult rfl rfl (Frame.depth_enter_le hdepth hcalls _ _)) hfinite

/-- A body has the value of a call in the frame of the caller, once the argument stands for its
input. There it is nested in fewer calls. -/
theorem substitute {body argument : Expr} (h : Yields formulas frame body value) {caller : Frame}
    (hargument : Yields formulas caller argument frame.input) (hown : caller.ownId = none)
    (hdepth : caller.depth ≤ frame.depth) :
    Yields formulas caller (body.substitute argument) value := by
  induction h with
  | literal value => exact .literal value
  | var name =>
    cases name with
    | bound => exact hargument
    | pi => exact .var .pi
    | e => exact .var .e
  | unary op _ ih => exact .unary op (ih hargument hdepth)
  | binary _ _ happly hnumber ihLeft ihRight =>
    exact .binary (ihLeft hargument hdepth) (ihRight hargument hdepth) happly hnumber
  | apply f _ hnumber ih => exact .apply f (ih hargument hdepth) hnumber
  | abs _ ih => exact .abs (ih hargument hdepth)
  | call hcalls _ hbody _ hresult hfinite ihArgument =>
    -- What the body calls is called from the caller now, so it is nested less deep as well.
    have hresult' : Yields formulas (caller.enter _ _) _ _ :=
      hresult.of_depth_le rfl rfl (Frame.depth_enter_le hdepth hcalls _ _)
    exact .call (UInt32.le_trans hdepth hcalls) (hown ▸ nofun) hbody (ihArgument hargument hdepth)
      hresult' hfinite

end Yields

/-- A formula that has a value keeps it if any one of its calls is replaced by the body, with the
argument for the input. -/
theorem value?_evaluate_inlined {formulas : Formulas} {surroundings : Gapped} {id : FunctionId}
    {argument : Expr} {input value : Float}
    (h : (evaluate formulas (surroundings.fill (.call id argument)) input none).value? =
      some value) :
    ∃ text, formulas id = some text ∧
      (evaluate formulas (surroundings.fill ((parseText text).substitute argument)) input
        none).value? = some value := by
  obtain ⟨hwhole, hfinite⟩ := value?_evaluate_eq_some_iff.mp h
  obtain ⟨part, hcall, hfill⟩ := hwhole.fill
  cases hcall with
  | call hdepth hown hbody hargument hresult _ =>
    obtain ⟨text, htext, rfl⟩ := Formulas.exists_text_of_body hbody
    have hinlined := hresult.substitute hargument rfl UInt32.zero_le
    exact ⟨text, htext, value?_evaluate_eq_some_iff.mpr ⟨hfill _ hinlined, hfinite⟩⟩

/-- The formula `2 * f1(f0(x)) + f0(x)` at three, where the call of `f1` is replaced. -/
theorem value?_evaluate_inlined_nested :
    let formulas : Formulas := .ofPairs [(0, "x*x + 1"), (1, "f0(x)/2 + |f0(1)|")]
    let argument : Expr := .call 0 (.var .bound)
    let surroundings : Gapped := .binaryLeft (.binaryRight (.literal 2) .mul .gap) .add argument
    (evaluate formulas (surroundings.fill (.call 1 argument)) 3 none).value? = some 115 ∧
      ∃ text, formulas 1 = some text ∧
        (evaluate formulas (surroundings.fill ((parseText text).substitute argument)) 3
          none).value? = some 115 := by
  intro formulas argument surroundings
  have h : (evaluate formulas (surroundings.fill (.call 1 argument)) 3 none).value? = some 115 := by
    decide +kernel
  exact ⟨h, value?_evaluate_inlined h⟩

end Formulary
