import Mathlib.Logic.Relation
import Formulary.Proofs.References

/-!
# What a walk does to its record

A walk changes the record that it begins with in three ways only : something fails, a rounding
function is noted, or the tree of a formula is kept that was not kept before (`Progress.Step`). The
formulas that are kept are those that the tree itself calls, since the body of a call is walked with
a record of its own.

* `evalTree_steps` : a walk is a run of such steps, whatever calls do.
* `Progress.Step.extends`, `Progress.extends_of_steps` : what one step leaves as it is, and what a
  run of them does.

No record is ruled out here, neither one with a failure nor one with trees that are not filed.
-/

namespace Formulary

/-! ## Steps -/

namespace Progress

/-- One change of a record by a walk that may look up the formulas `ids`. -/
inductive Step (formulas : Formulas) (ids : List FunctionId) : Progress → Progress → Prop where
  | fail (progress : Progress) (cause : EvalError) :
    Step formulas ids progress (progress.fail cause)
  | noteRounding (progress : Progress) (used : Bool) :
    Step formulas ids progress (progress.noteRounding used)
  | keep (progress : Progress) {id : FunctionId} {body : Expr} (hid : id ∈ ids)
    (hnew : progress.reference? id = none) (hbody : formulas.body id = .ok body) :
    Step formulas ids progress (progress.keep id body)

/-- Any number of changes, one after the other. -/
abbrev Steps (formulas : Formulas) (ids : List FunctionId) : Progress → Progress → Prop :=
  Relation.ReflTransGen (Step formulas ids)

variable {formulas : Formulas} {ids ids' : List FunctionId} {p q r : Progress}

theorem Step.mono (h : ids ⊆ ids') (hstep : Step formulas ids p q) : Step formulas ids' p q := by
  cases hstep with
  | fail cause => exact .fail p cause
  | noteRounding used => exact .noteRounding p used
  | keep hid hnew hbody => exact .keep p (h hid) hnew hbody

end Progress

/-- The walk changes its record by steps alone. -/
def Stepwise (formulas : Formulas) (ids : List FunctionId) {α : Type} (walk : StateM Progress α) :
    Prop :=
  ∀ p : Progress, p.Steps formulas ids (walk.run p).2

namespace Stepwise

variable {formulas : Formulas} {ids ids' : List FunctionId} {α β : Type}

theorem mono {walk : StateM Progress α} (h : ids ⊆ ids') (hwalk : Stepwise formulas ids walk) :
    Stepwise formulas ids' walk :=
  fun p => Relation.ReflTransGen.mono (fun _ _ => .mono h) _ _ (hwalk p)

theorem pure (value : α) : Stepwise formulas ids (pure value) :=
  fun _ => .refl

theorem fail (cause : EvalError) : Stepwise formulas ids (fail cause) :=
  fun p => .single (.fail p cause)

theorem noteRounding (used : Bool) : Stepwise formulas ids (modify (·.noteRounding used)) :=
  fun p => .single (.noteRounding p used)

theorem bind {walk : StateM Progress α} {next : α → StateM Progress β}
    (h : Stepwise formulas ids walk) (hnext : ∀ value, Stepwise formulas ids (next value)) :
    Stepwise formulas ids (walk >>= next) :=
  fun p => (h p).trans (hnext (walk.run p).1 _)

theorem settle (result : Float) (operands : List Float) :
    Stepwise formulas ids (settle result operands) := by
  unfold Formulary.settle
  split
  · exact fail _
  · exact pure _

theorem leave (value : Float) (inner : Progress) : Stepwise formulas ids (leave value inner) := by
  refine (noteRounding _).bind fun _ => ?_
  split
  · exact fail _
  · exact pure _

theorem resolve {id : FunctionId} (hid : id ∈ ids) :
    Stepwise formulas ids (resolve formulas id) := by
  intro p
  simp only [Formulary.resolve, StateT.run]
  split
  · exact .refl
  · next hnew =>
    split
    · next hbody => exact .single (.keep p hid hnew hbody)
    · exact .refl

end Stepwise

/-- A walk changes its record by steps, and keeps formulas only that its tree calls. What calls do
is of no concern, since no record is handed to them. -/
theorem evalTree_steps (formulas : Formulas) (frame : Frame) (enter? : Option Enter) (e : Expr) :
    Stepwise formulas e.calls (evalTree formulas frame enter? e) := by
  induction e with
  | literal value => exact .pure value
  | var name => exact .pure _
  | unary op operand ih => exact ih.bind fun value => .pure _
  | binary left op right ihLeft ihRight =>
    have hleft := ihLeft.mono (List.subset_append_left _ right.calls)
    have hright := ihRight.mono (List.subset_append_right left.calls _)
    refine hleft.bind fun leftValue => hright.bind fun rightValue => ?_
    cases op.apply leftValue rightValue with
    | ok result => exact .settle result _
    | error cause => exact .fail cause
  | apply f argument ih =>
    exact ih.bind fun value => (Stepwise.noteRounding _).bind fun _ => .settle _ _
  | abs operand ih => exact ih.bind fun value => .pure _
  | call id argument ih =>
    cases enter? with
    | none => exact .fail _
    | some enter =>
      rw [evalTree]
      split
      · exact .fail _
      refine (Stepwise.resolve List.mem_cons_self).bind fun found => ?_
      cases found with
      | error cause => exact .fail cause
      | ok body => exact (ih.mono (List.subset_cons_self ..)).bind fun value => .leave _ _
  | broken => exact .fail _

theorem evalNode_steps (formulas : Formulas) (frame : Frame) (e : Expr) :
    Stepwise formulas e.calls (evalNode formulas frame e) := by
  rw [evalNode_eq]
  exact evalTree_steps formulas frame _ e

/-! ## What steps leave as it is -/

namespace Progress

/-- The record `after` has all that `before` has, and keeps more formulas only of those in `ids`,
each with the tree that is filed. -/
structure Extends (formulas : Formulas) (ids : List FunctionId) (before after : Progress) :
    Prop where
  failure_of_some : ∀ cause, before.failure = some cause → after.failure = some cause
  usedRounding_of_true : before.usedRounding = true → after.usedRounding = true
  reference?_of_some : ∀ id body, before.reference? id = some body →
    after.reference? id = some body
  filed_of_new : ∀ id body, before.reference? id = none → after.reference? id = some body →
    id ∈ ids ∧ formulas.body id = .ok body

variable {formulas : Formulas} {ids : List FunctionId} {p q r : Progress}

theorem Extends.refl (p : Progress) : Extends formulas ids p p where
  failure_of_some _ h := h
  usedRounding_of_true h := h
  reference?_of_some _ _ h := h
  filed_of_new _ _ hnone hsome := nomatch hnone.symm.trans hsome

theorem Extends.trans (h : Extends formulas ids p q) (h' : Extends formulas ids q r) :
    Extends formulas ids p r where
  failure_of_some cause hcause := h'.failure_of_some cause (h.failure_of_some cause hcause)
  usedRounding_of_true hused := h'.usedRounding_of_true (h.usedRounding_of_true hused)
  reference?_of_some id body hbody :=
    h'.reference?_of_some id body (h.reference?_of_some id body hbody)
  filed_of_new id body hnone hsome := by
    cases hbetween : q.reference? id with
    | none => exact h'.filed_of_new id body hbetween hsome
    | some other =>
      have hkept := h'.reference?_of_some id other hbetween
      obtain rfl : other = body := Option.some.inj (hkept.symm.trans hsome)
      exact h.filed_of_new id other hnone hbetween

theorem Step.extends (h : Step formulas ids p q) : Extends formulas ids p q := by
  cases h with
  | fail cause =>
    refine ⟨fun first hfirst => ?_, id, fun _ _ => id, fun _ _ hnone hsome => ?_⟩
    · rw [failure_fail, hfirst, Option.getD_some]
    · exact nomatch hnone.symm.trans hsome
  | noteRounding used =>
    refine ⟨fun _ => id, fun hused => ?_, fun _ _ => id, fun _ _ hnone hsome => ?_⟩
    · exact Bool.or_eq_true_iff.mpr (.inl hused)
    · exact nomatch hnone.symm.trans hsome
  | @keep id body hid hnew hbody =>
    refine ⟨fun _ h => h, fun h => h, fun other tree hother => ?_, fun other tree hnone hsome => ?_⟩
    · have hne : other ≠ id := by
        rintro rfl
        exact nomatch hnew.symm.trans hother
      rwa [reference?_keep_of_ne _ _ hne]
    · by_cases hsame : other = id
      · subst hsame
        rw [reference?_keep_self] at hsome
        exact ⟨hid, Option.some.inj hsome ▸ hbody⟩
      · rw [reference?_keep_of_ne _ _ hsame] at hsome
        exact nomatch hnone.symm.trans hsome

theorem extends_of_steps (h : Steps formulas ids p q) : Extends formulas ids p q := by
  induction h with
  | refl => exact .refl p
  | tail _ hstep ih => exact ih.trans hstep.extends

end Progress

/-- A formula that is kept before a walk is kept after it. -/
theorem Stepwise.reference?_of_some {formulas : Formulas} {ids : List FunctionId} {α : Type}
    {walk : StateM Progress α} (h : Stepwise formulas ids walk) {p : Progress} {id : FunctionId}
    {body : Expr} (hkept : p.reference? id = some body) :
    (walk.run p).2.reference? id = some body :=
  (Progress.extends_of_steps (h p)).reference?_of_some id body hkept

end Formulary
