import Mathlib.Logic.Relation
import Formulary.Proofs.Changes
import Formulary.Proofs.References
import Formulary.Proofs.Schedules

/-!
# What an evaluation reads

An evaluation asks the file for the formulas that the tree calls, for those that these call, and
once more for those that these call. Then calls are nested as deep as they may be. So of all that
is filed it reads what is within `reach` of the tree, and two files that agree there cannot be told
apart : walk by walk, they `Agree`, whatever has been kept.

* `evalTree_agrees` : one induction over the tree, given that calls agree.
* `evalNode_agrees` : one over the calls that may still be nested.
* `evaluate_congr_of_reach` : evaluations and curves, and registries that change out of reach.
-/

namespace Formulary

/-! ## Reach -/

/-- The formulas within `n` steps of the tree : those that it calls, and those that are within one
step less of their trees. -/
def Formulas.reach (formulas : Formulas) : Nat → Expr → List FunctionId
  | 0, _ => []
  | n + 1, e => e.calls ++ e.calls.flatMap fun id =>
    match formulas.body id with
    | .ok body => formulas.reach n body
    | .error _ => []

namespace Formulas

variable {formulas : Formulas} {e : Expr} {id other : FunctionId} {n : Nat}

theorem mem_reach_succ_iff : other ∈ formulas.reach (n + 1) e ↔
    other ∈ e.calls ∨
      ∃ id ∈ e.calls, ∃ body, formulas.body id = .ok body ∧ other ∈ formulas.reach n body := by
  rw [reach, List.mem_append, List.mem_flatMap]
  refine or_congr_right (exists_congr fun id => and_congr_right fun _ => ?_)
  cases formulas.body id <;> simp

end Formulas

/-! ## Walks that agree -/

/-- The two walks come to the same, if the references kept before them are filed, and those kept
after them are filed as well. -/
def Agree (formulas : Formulas) {α : Type} (walk walk' : StateM Progress α) : Prop :=
  ∀ p : Progress, p.Faithful formulas →
    walk.run p = walk'.run p ∧ (walk.run p).2.Faithful formulas

theorem Steady.agree {formulas : Formulas} {α : Type} {walk : StateM Progress α}
    (h : Steady formulas walk) : Agree formulas walk walk :=
  fun p hp => ⟨rfl, (h p p hp.alike).2.faithful_left⟩

namespace Agree

variable {formulas others : Formulas} {α β : Type}

theorem bind {walk walk' : StateM Progress α} {next next' : α → StateM Progress β}
    (h : Agree formulas walk walk') (hnext : ∀ value, Agree formulas (next value) (next' value)) :
    Agree formulas (walk >>= next) (walk' >>= next') := by
  intro p hp
  obtain ⟨hsame, hfaithful⟩ := h p hp
  rw [StateT.run_bind, StateT.run_bind, ← hsame]
  exact hnext _ _ hfaithful

/-- Both walks find the formula that is filed. -/
theorem resolve {id : FunctionId} (hid : formulas id = others id)
    {next next' : Except EvalError Expr → StateM Progress α}
    (hnext : Agree formulas (next (formulas.body id)) (next' (formulas.body id))) :
    Agree formulas (resolve formulas id >>= next) (resolve others id >>= next') := by
  have hsame : Formulary.resolve others id = Formulary.resolve formulas id := by
    unfold Formulary.resolve
    rw [Formulas.body_congr hid]
  intro p hp
  obtain ⟨after, hrun, hfaithful, -, -⟩ := hp.resolve_run id
  rw [hsame, StateT.run_bind, StateT.run_bind, hrun]
  exact hnext after hfaithful

end Agree

/-! ## Trees -/

/-- Where there are no calls, the file does not matter. -/
theorem evalTree_none (formulas others : Formulas) (frame : Frame) (e : Expr) :
    evalTree formulas frame none e = evalTree others frame none e := by
  induction e with
  | unary op operand ih => rw [evalTree, evalTree, ih]
  | binary left op right ihLeft ihRight => rw [evalTree, evalTree, ihLeft, ihRight]
  | apply f argument ih => rw [evalTree, evalTree, ih]
  | abs operand ih => rw [evalTree, evalTree, ih]
  | _ => rfl

/-- The walks of a tree agree if the files have the same formulas under the numbers that it calls,
and entering these comes to the same. -/
theorem evalTree_agrees {formulas others : Formulas} (frame : Frame) {enter enter' : Enter}
    (e : Expr) (h : ∀ id ∈ e.calls, formulas id = others id ∧
      ∀ body, formulas.body id = .ok body → enter id body = enter' id body) :
    Agree formulas (evalTree formulas frame (some enter) e)
      (evalTree others frame (some enter') e) := by
  induction e with
  | literal value => exact (Steady.pure value).agree
  | var name => exact (Steady.pure _).agree
  | unary op operand ih => exact (ih h).bind fun value => (Steady.pure _).agree
  | binary left op right ihLeft ihRight =>
    refine (ihLeft fun id hid => h id (List.mem_append_left _ hid)).bind fun leftValue =>
      (ihRight fun id hid => h id (List.mem_append_right _ hid)).bind fun rightValue =>
        Steady.agree ?_
    cases op.apply leftValue rightValue with
    | ok result => exact .settle result _
    | error cause => exact .fail cause
  | apply f argument ih =>
    exact (ih h).bind fun value =>
      ((Steady.noteRounding _).bind fun _ => .settle _ _).agree
  | abs operand ih => exact (ih h).bind fun value => (Steady.pure _).agree
  | call id argument ih =>
    obtain ⟨hid, henter⟩ := h id List.mem_cons_self
    have hargument := ih fun other hother => h other (List.mem_cons_of_mem id hother)
    rw [evalTree, evalTree]
    by_cases hown : frame.ownId = some id
    · rw [if_pos hown, if_pos hown]
      exact (Steady.fail _).agree
    rw [if_neg hown, if_neg hown]
    refine Agree.resolve hid ?_
    cases hbody : formulas.body id with
    | error cause => exact (Steady.fail cause).agree
    | ok body =>
      refine hargument.bind fun value => ?_
      rw [henter body hbody]
      exact (Steady.leave _ _).agree
  | broken => exact (Steady.fail _).agree

/-! ## Calls -/

namespace Frame

theorem callsLeft_enter {frame : Frame} (h : frame.depth ≤ maxCallDepth) (id : FunctionId)
    (input : Float) : (frame.enter id input).callsLeft + 1 = frame.callsLeft := by
  have hle : frame.depth.toNat ≤ maxCallDepth.toNat := UInt32.le_iff_toNat_le.mp h
  simp only [callsLeft, toNat_depth_enter h]
  omega

theorem callsLeft_pos_iff {frame : Frame} : 0 < frame.callsLeft ↔ frame.depth ≤ maxCallDepth := by
  rw [callsLeft, UInt32.le_iff_toNat_le]
  omega

end Frame

/-- The walks of a tree agree if the files have the same formulas within the reach of the tree, as
far as calls may still be nested. -/
theorem evalNode_agrees {formulas others : Formulas} (frame : Frame) (e : Expr)
    (h : ∀ id ∈ formulas.reach frame.callsLeft e, formulas id = others id) :
    Agree formulas (evalNode formulas frame e) (evalNode others frame e) := by
  rw [evalNode_eq, evalNode_eq]
  induction hcalls : frame.callsLeft generalizing frame e with
  | zero =>
    have hdepth : ¬frame.depth ≤ maxCallDepth := by
      rw [← Frame.callsLeft_pos_iff, hcalls]
      exact Nat.lt_irrefl 0
    rw [Frame.enter?, Frame.enter?, if_neg hdepth, if_neg hdepth, evalTree_none others formulas]
    exact (evalTree_steady formulas frame none e).agree
  | succ n ih =>
    have hdepth : frame.depth ≤ maxCallDepth := by
      rw [← Frame.callsLeft_pos_iff, hcalls]
      exact Nat.succ_pos n
    rw [hcalls] at h
    rw [Frame.enter?, Frame.enter?, if_pos hdepth, if_pos hdepth]
    refine evalTree_agrees frame e fun id hid => ?_
    refine ⟨h id (Formulas.mem_reach_succ_iff.mpr (.inl hid)), fun body hbody => ?_⟩
    funext input
    have hleft : (frame.enter id input).callsLeft = n :=
      Nat.succ.inj ((Frame.callsLeft_enter hdepth id input).trans hcalls)
    have hreach : ∀ other ∈ formulas.reach (frame.enter id input).callsLeft body,
        formulas other = others other := fun other hother =>
      h other (Formulas.mem_reach_succ_iff.mpr (.inr ⟨id, hid, body, hbody, hleft ▸ hother⟩))
    have hagree := ih (frame.enter id input) body hreach hleft
    rw [← evalNode_eq, ← evalNode_eq] at hagree
    exact (hagree {} (Context.faithful_start formulas input (some id))).1

/-! ## Evaluations and curves -/

theorem evaluate_congr {formulas others : Formulas} {e : Expr}
    (h : ∀ id ∈ formulas.reach 3 e, formulas id = others id) (input : Float)
    (ownId : Option FunctionId) :
    evaluate formulas e input ownId = evaluate others e input ownId := by
  let context := Context.start input ownId
  have hwalk : (evalNode formulas context.toFrame e).run context.toProgress =
      (evalNode others context.toFrame e).run context.toProgress :=
    (evalNode_agrees context.toFrame e h _ (Context.faithful_start formulas input ownId)).1
  rw [evaluate, evaluate, Context.evaluate_of_walk hwalk, Context.evaluate_of_walk rfl]

theorem sampleExpr_congr {formulas others : Formulas} {e : Expr} {ownId : Option FunctionId}
    (h : ∀ input, evaluate formulas e input ownId = evaluate others e input ownId)
    (config : SamplingConfig) (axis : Axis) (range : SampleRange) :
    sampleExpr config formulas e ownId axis range =
      sampleExpr config others e ownId axis range := by
  let task : SamplingTask := ⟨formulas, e, ownId, range, config.samples⟩
  let task' : SamplingTask := ⟨others, e, ownId, range, config.samples⟩
  have hsample : ∀ i, task.evaluationAt i = task'.evaluationAt i := fun i => h (task.inputAt i)
  refine (task.curve_eq axis config.schedule).trans (.trans ?_
    (task'.curve_eq axis config.schedule).symm)
  simp only [hsample]
  rfl

/-- The registry changes under a number that is not within three steps of the tree. -/
def Registry.ChangesBeyond (e : Expr) (registry registry' : Registry) : Prop :=
  ∃ change : Change, change.target registry ∉ registry.formula.reach 3 e ∧
    registry' = registry.alter change

/-- Such a change leaves all that an evaluation reads. -/
theorem Registry.ChangesBeyond.formula_eq {e : Expr} {registry registry' : Registry}
    (h : registry.ChangesBeyond e registry') :
    ∀ id ∈ registry.formula.reach 3 e, registry.formula id = registry'.formula id := by
  obtain ⟨change, hbeyond, rfl⟩ := h
  intro id hid
  have hne : id ≠ change.target registry := fun hsame => hbeyond (hsame ▸ hid)
  exact (registry.formula_alter_of_ne hne).symm

/-- An evaluation depends on the formulas within three steps of its tree, and on no other. So a
registry may change beyond them as often as it likes, and the curve stays the same. -/
theorem evaluate_congr_of_reach (e : Expr) (ownId : Option FunctionId) :
    (∀ formulas others : Formulas, (∀ id ∈ formulas.reach 3 e, formulas id = others id) →
      ∀ input, evaluate formulas e input ownId = evaluate others e input ownId) ∧
    ∀ registry registry' : Registry,
      Relation.ReflTransGen (Registry.ChangesBeyond e) registry registry' →
      ∀ (config : SamplingConfig) (axis : Axis) (range : SampleRange),
        sampleExpr config registry'.formula e ownId axis range =
          sampleExpr config registry.formula e ownId axis range := by
  refine ⟨fun formulas others h input => evaluate_congr h input ownId,
    fun registry registry' h config axis range => ?_⟩
  induction h with
  | refl => rfl
  | tail _ hstep ih =>
    rw [← ih]
    have hsame := fun input => evaluate_congr hstep.formula_eq input ownId
    exact (sampleExpr_congr hsame config axis range).symm

/-- The fourth formula of a chain is out of reach of whoever calls the first. -/
theorem evaluate_congr_of_reach_chain :
    (Formulas.ofPairs [(0, "f1(x)"), (1, "f2(x)"), (2, "f3(x)"), (3, "x")]).reach 3
      (.call 0 (.var .bound)) = [0, 1, 2] ∧
    evaluate (.ofPairs [(0, "f1(x)"), (1, "f2(x)"), (2, "f3(x)"), (3, "x")])
        (.call 0 (.var .bound)) 5 none =
      evaluate (.file (.ofPairs [(0, "f1(x)"), (1, "f2(x)"), (2, "f3(x)"), (3, "x")]) 3 "(")
        (.call 0 (.var .bound)) 5 none := by
  have hreach : (Formulas.ofPairs [(0, "f1(x)"), (1, "f2(x)"), (2, "f3(x)"), (3, "x")]).reach 3
      (.call 0 (.var .bound)) = [0, 1, 2] := by decide +kernel
  refine ⟨hreach, (evaluate_congr_of_reach (.call 0 (.var .bound)) none).1 _ _ ?_ 5⟩
  intro id hid
  rw [hreach] at hid
  refine (Formulas.file_of_ne _ _ ?_).symm
  rintro rfl
  exact absurd hid (by decide)

end Formulary
