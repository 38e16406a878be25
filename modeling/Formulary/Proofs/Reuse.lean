import Mathlib.Logic.Relation
import Formulary.Proofs.Strict

/-!
# Contexts that serve again

A context keeps the trees of the formulas referred to, and goes on with them after a `reset`. All
that a walk asks of them is that they are filed (`Progress.Faithful`). Then two records that keep
different ones (`Progress.Alike`) cannot be told apart by it : every walk is `Steady`, also after a
failure, when its value means nothing.

* `evalTree_steady` : one induction over the tree, whatever calls do.
* `Context.evaluate_reset` : a context that is reset is as good as a fresh one.
* `Session.Sound.step`, `Session.Sound.run` : what may be done with a context keeps it so.
* `evaluate_reset_of_session` : the two together.
-/

namespace Formulary

/-! ## Kept references make no difference -/

/-- Two records that differ in the references they keep, all of which are filed, and in nothing
else. -/
structure Progress.Alike (formulas : Formulas) (p q : Progress) : Prop where
  faithful_left : p.Faithful formulas
  faithful_right : q.Faithful formulas
  failure_eq : p.failure = q.failure
  usedRounding_eq : p.usedRounding = q.usedRounding

theorem Progress.Faithful.alike {formulas : Formulas} {progress : Progress}
    (h : progress.Faithful formulas) : progress.Alike formulas progress :=
  ⟨h, h, rfl, rfl⟩

/-- A walk that comes to the same, whichever references have been kept before it. -/
def Steady (formulas : Formulas) {α : Type} (walk : StateM Progress α) : Prop :=
  ∀ p q : Progress, p.Alike formulas q →
    (walk.run p).1 = (walk.run q).1 ∧ (walk.run p).2.Alike formulas (walk.run q).2

namespace Steady

variable {formulas : Formulas} {α β : Type}

theorem pure (value : α) : Steady formulas (pure value) :=
  fun _ _ h => ⟨rfl, h⟩

theorem bind {walk : StateM Progress α} {next : α → StateM Progress β} (h : Steady formulas walk)
    (hnext : ∀ value, Steady formulas (next value)) : Steady formulas (walk >>= next) := by
  intro p q hpq
  obtain ⟨hvalue, hafter⟩ := h p q hpq
  rw [StateT.run_bind, StateT.run_bind]
  generalize walk.run p = walked at hvalue hafter ⊢
  generalize walk.run q = walked' at hvalue hafter ⊢
  obtain ⟨value, after⟩ := walked
  obtain ⟨value', after'⟩ := walked'
  obtain rfl : value = value' := hvalue
  exact hnext value after after' hafter

theorem fail (cause : EvalError) : Steady formulas (fail cause) := by
  intro p q h
  refine ⟨rfl, h.faithful_left, h.faithful_right, ?_, h.usedRounding_eq⟩
  exact congrArg (· <|> some cause) h.failure_eq

theorem noteRounding (used : Bool) : Steady formulas (modify (·.noteRounding used)) := by
  intro p q h
  refine ⟨rfl, h.faithful_left, h.faithful_right, h.failure_eq, ?_⟩
  exact congrArg (· || used) h.usedRounding_eq

theorem settle (result : Float) (operands : List Float) :
    Steady formulas (settle result operands) := by
  unfold Formulary.settle
  split
  · exact fail _
  · exact pure _

/-- What is looked up is what is filed, kept or not. -/
theorem resolve (id : FunctionId) : Steady formulas (resolve formulas id) := by
  intro p q h
  obtain ⟨p', hp, hfaithful, hfailure, hused⟩ := h.faithful_left.resolve_run id
  obtain ⟨q', hq, hfaithful', hfailure', hused'⟩ := h.faithful_right.resolve_run id
  rw [hp, hq]
  refine ⟨rfl, hfaithful, hfaithful', ?_, ?_⟩
  · rw [hfailure, hfailure', h.failure_eq]
  · rw [hused, hused', h.usedRounding_eq]

theorem leave (value : Float) (inner : Progress) : Steady formulas (leave value inner) := by
  refine (noteRounding _).bind fun _ => ?_
  split
  · exact fail _
  · exact pure _

end Steady

/-- The walk of a tree comes to the same, whichever references have been kept. What calls do is of
no concern here, since nothing that is kept is handed to them. -/
theorem evalTree_steady (formulas : Formulas) (frame : Frame) (enter? : Option Enter) (e : Expr) :
    Steady formulas (evalTree formulas frame enter? e) := by
  induction e with
  | literal value => exact .pure value
  | var name => exact .pure _
  | unary op operand ih => exact ih.bind fun value => .pure _
  | binary left op right ihLeft ihRight =>
    refine ihLeft.bind fun leftValue => ihRight.bind fun rightValue => ?_
    cases op.apply leftValue rightValue with
    | ok result => exact .settle result _
    | error cause => exact .fail cause
  | apply f argument ih =>
    exact ih.bind fun value => (Steady.noteRounding _).bind fun _ => .settle _ _
  | abs operand ih => exact ih.bind fun value => .pure _
  | call id argument ih =>
    cases enter? with
    | none => exact .fail _
    | some enter =>
      rw [evalTree]
      split
      · exact .fail _
      refine (Steady.resolve id).bind fun found => ?_
      cases found with
      | error cause => exact .fail cause
      | ok body => exact ih.bind fun value => .leave _ _
  | broken => exact .fail _

theorem evalNode_steady (formulas : Formulas) (frame : Frame) (e : Expr) :
    Steady formulas (evalNode formulas frame e) := by
  rw [evalNode_eq]
  exact evalTree_steady formulas frame _ e

/-! ## Contexts -/

namespace Progress.Alike

variable {formulas : Formulas} {p q : Progress}

theorem conclude (h : p.Alike formulas q) (value : Float) :
    (p.conclude value).Alike formulas (q.conclude value) := by
  unfold Progress.conclude
  split
  · exact h
  · exact (Steady.fail .nonFinite p q h).2

theorem outcome_eq (h : p.Alike formulas q) (value : Float) :
    p.outcome value = q.outcome value := by
  rw [outcome, outcome, hasFailed, hasFailed, h.failure_eq, h.usedRounding_eq]

end Progress.Alike

namespace Context

variable {formulas : Formulas} {context other : Context} {e : Expr}

/-- Contexts in the same frame, with records that are alike, come to the same. -/
theorem evaluate_congr (hframe : context.toFrame = other.toFrame)
    (h : context.toProgress.Alike formulas other.toProgress) (e : Expr) :
    (context.evaluate formulas e).1 = (other.evaluate formulas e).1 := by
  obtain ⟨frame, p⟩ := context
  obtain ⟨frame', q⟩ := other
  obtain rfl : frame = frame' := hframe
  obtain ⟨hvalue, hafter⟩ := evalNode_steady formulas frame e p q h
  generalize hp : (Formulary.evalNode formulas frame e).run p = walked at hvalue hafter
  generalize hq : (Formulary.evalNode formulas frame e).run q = walked' at hvalue hafter
  obtain ⟨value, after⟩ := walked
  obtain ⟨value', after'⟩ := walked'
  obtain rfl : value = value' := hvalue
  rw [evaluate_of_walk hp, evaluate_of_walk hq]
  exact (hafter.conclude value).outcome_eq value

theorem faithful_start (formulas : Formulas) (input : Float) (ownId : Option FunctionId) :
    (start input ownId).toProgress.Faithful formulas :=
  fun _ _ (hkept : none = some _) => nomatch hkept

theorem faithful_evalNode (h : context.toProgress.Faithful formulas) (e : Expr) :
    (context.evalNode formulas e).2.toProgress.Faithful formulas :=
  (evalNode_steady formulas context.toFrame e _ _ h.alike).2.faithful_left

theorem faithful_evaluate (h : context.toProgress.Faithful formulas) (e : Expr) :
    (context.evaluate formulas e).2.toProgress.Faithful formulas := by
  rw [evaluate_of_walk rfl]
  exact ((evalNode_steady formulas context.toFrame e _ _ h.alike).2.conclude _).faithful_left

theorem ownId_evaluate : (context.evaluate formulas e).2.ownId = context.ownId := by
  rw [evaluate_of_walk rfl]

/-- A context that is reset is as good as a fresh one, if what it has kept is filed. -/
theorem evaluate_reset (h : context.toProgress.Faithful formulas) (e : Expr) (input : Float) :
    ((context.reset input).evaluate formulas e).1 =
      Formulary.evaluate formulas e input context.ownId := by
  have hframe : (context.reset input).toFrame = (start input context.ownId).toFrame := rfl
  have halike : (context.reset input).toProgress.Alike formulas
      (start input context.ownId).toProgress :=
    ⟨h, faithful_start formulas input context.ownId, rfl, rfl⟩
  exact evaluate_congr hframe halike e

end Context

/-! ## Sessions -/

/-- A context, and the file that its evaluations refer to. -/
structure Session where
  formulas : Formulas
  context : Context

/-- One thing that may be done with a context, or to the file between two evaluations. A text may
be filed or taken away at any time, as long as its formula has not been kept. -/
inductive Session.Step : Session → Session → Prop where
  | evaluate (s : Session) (e : Expr) :
    Step s { s with context := (s.context.evaluate s.formulas e).2 }
  | evalNode (s : Session) (e : Expr) :
    Step s { s with context := (s.context.evalNode s.formulas e).2 }
  | reset (s : Session) (input : Float) : Step s { s with context := s.context.reset input }
  | refile (s : Session) (formulas : Formulas)
    (h : ∀ id, (s.context.reference? id).isSome → formulas id = s.formulas id) :
    Step s { s with formulas }

/-- What a context keeps is filed, and the formula it serves is `ownId`. -/
structure Session.Sound (ownId : Option FunctionId) (s : Session) : Prop where
  faithful : s.context.toProgress.Faithful s.formulas
  ownId_eq : s.context.ownId = ownId

namespace Session

variable {ownId : Option FunctionId} {s t : Session}

theorem sound_start (formulas : Formulas) (input : Float) (ownId : Option FunctionId) :
    Sound ownId ⟨formulas, .start input ownId⟩ where
  faithful := Context.faithful_start formulas input ownId
  ownId_eq := rfl

theorem Sound.step (hs : s.Sound ownId) (h : Step s t) : t.Sound ownId := by
  cases h with
  | evaluate e =>
    exact ⟨Context.faithful_evaluate hs.faithful e, Context.ownId_evaluate.trans hs.ownId_eq⟩
  | evalNode e => exact ⟨Context.faithful_evalNode hs.faithful e, hs.ownId_eq⟩
  | reset input => exact ⟨hs.faithful, hs.ownId_eq⟩
  | refile formulas h =>
    refine ⟨fun id body hkept => ?_, hs.ownId_eq⟩
    rw [Formulas.body_congr (h id (by rw [hkept]; rfl))]
    exact hs.faithful id body hkept

theorem Sound.run (hs : s.Sound ownId) (h : Relation.ReflTransGen Step s t) : t.Sound ownId := by
  induction h with
  | refl => exact hs
  | tail _ hstep ih => exact ih.step hstep

end Session

/-- After any session, a context that is reset evaluates a formula as a fresh one does. -/
theorem evaluate_reset_of_session {formulas : Formulas} {input : Float}
    {ownId : Option FunctionId} {s : Session}
    (h : Relation.ReflTransGen Session.Step ⟨formulas, .start input ownId⟩ s) (e : Expr)
    (next : Float) :
    ((s.context.reset next).evaluate s.formulas e).1 = evaluate s.formulas e next ownId := by
  have hs := (Session.sound_start formulas input ownId).run h
  rw [Context.evaluate_reset hs.faithful, hs.ownId_eq]

/-- A session of three steps : `f0(x)` fails at zero, and its tree is kept. A formula that calls it
is filed, and is walked with the failure still on record. At the next input it has its value. -/
theorem evaluate_reset_after_failure : ∃ s : Session,
    Relation.ReflTransGen Session.Step ⟨.ofPairs [(0, "1/x")], .start 0 none⟩ s ∧
      s.context.failure = some .divisionByZero ∧ (s.context.reference? 1).isSome ∧
      ((s.context.reset 2).evaluate s.formulas (.call 1 (.var .bound))).1 =
        evaluate s.formulas (.call 1 (.var .bound)) 2 none ∧
      (evaluate s.formulas (.call 1 (.var .bound)) 2 none).value? = some 1.5 := by
  have hrun : Relation.ReflTransGen Session.Step ⟨.ofPairs [(0, "1/x")], .start 0 none⟩ _ :=
    .tail (.tail (.tail .refl (.evaluate _ (.call 0 (.var .bound))))
      (.refile _ (.file (.ofPairs [(0, "1/x")]) 1 "f0(x) + 1") fun id hkept => ?_))
      (.evalNode _ (.call 1 (.var .bound)))
  · exact ⟨_, hrun, by decide +kernel, by decide +kernel,
      evaluate_reset_of_session hrun (.call 1 (.var .bound)) 2, by decide +kernel⟩
  · by_cases hid : id = 1
    · subst hid
      exact absurd hkept (by decide +kernel)
    · exact Formulas.file_of_ne _ _ hid

end Formulary
