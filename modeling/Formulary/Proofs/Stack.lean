import Formulary.Proofs.Machine
import Formulary.Proofs.Substitution

/-!
# How deep an evaluation goes

While a machine evaluates the body of a call, the caller waits, and so on down to the formula that
the evaluation began with. A step does one of three things to this stack (`Machine.Moves`) : it goes
on with the formula that is active, it enters another, or it goes back to a caller. A formula that
is still to be entered has passed the check of the depth, and its tree is kept
(`Activation.Ready`), since nothing that is kept is given up while its argument is evaluated. So the
stack stays in order (`Stacked`), and its height is bounded by the depth that it began with.

* `evalNode_ends` : an evaluation ends, within the bounds on nested calls.
* `evalNode_effects` : what it leaves of its context, and what it adds.
-/

namespace Formulary

/-! ## Going on with a formula -/

namespace Activation

/-- Each formula that is still to be entered may be, and its tree is kept. -/
def Ready (activation : Activation) : Prop :=
  ∀ id, .enter id ∈ activation.tasks →
    activation.context.depth ≤ maxCallDepth ∧ (activation.context.reference? id).isSome = true

/-- The activation `b` is in the frame of `a`, keeps what `a` keeps, and is to enter only formulas
that `a` is to enter too, or that are found. -/
structure GoesOn (a b : Activation) : Prop where
  frame_eq : b.context.toFrame = a.context.toFrame
  isSome_reference? : ∀ id, (a.context.reference? id).isSome = true →
    (b.context.reference? id).isSome = true
  enters : ∀ id, .enter id ∈ b.tasks → .enter id ∈ a.tasks ∨
    a.context.depth ≤ maxCallDepth ∧ (b.context.reference? id).isSome = true

variable {a b c : Activation} {formulas : Formulas} {ids : List FunctionId}

theorem ready_nil (context : Context) : (⟨context, []⟩ : Activation).Ready :=
  nofun

theorem GoesOn.depth_eq (h : a.GoesOn b) : b.context.depth = a.context.depth :=
  congrArg Frame.depth h.frame_eq

theorem GoesOn.ready (h : a.GoesOn b) (ha : a.Ready) : b.Ready := by
  intro id hid
  rw [h.depth_eq]
  rcases h.enters id hid with hid | hfound
  · exact ⟨(ha id hid).1, h.isSome_reference? id (ha id hid).2⟩
  · exact hfound

theorem GoesOn.trans (h : a.GoesOn b) (h' : b.GoesOn c) : a.GoesOn c where
  frame_eq := h'.frame_eq.trans h.frame_eq
  isSome_reference? id hid := h'.isSome_reference? id (h.isSome_reference? id hid)
  enters id hid := by
    rcases h'.enters id hid with hid | ⟨hdepth, hfound⟩
    · exact (h.enters id hid).imp_right fun ⟨hdepth, hfound⟩ =>
        ⟨hdepth, h'.isSome_reference? id hfound⟩
    · exact .inr ⟨h.depth_eq ▸ hdepth, hfound⟩

/-- Tasks are done, and others come up that enter no formula. -/
theorem goesOn_tasks {tasks : List Task} (h : ∀ id, .enter id ∈ tasks → .enter id ∈ a.tasks) :
    a.GoesOn { a with tasks } where
  frame_eq := rfl
  isSome_reference? _ hid := hid
  enters id hid := .inl (h id hid)

theorem goesOn_withRecord {progress : Progress}
    (h : Progress.Steps formulas ids a.context.toProgress progress) :
    a.GoesOn (a.withRecord progress) where
  frame_eq := rfl
  isSome_reference? id hid := by
    obtain ⟨body, hbody⟩ := Option.isSome_iff_exists.mp hid
    have hkept := (Progress.extends_of_steps h).reference?_of_some id body hbody
    exact Option.isSome_of_eq_some hkept
  enters id hid := .inl hid

end Activation

/-! ## What a step does to the stack -/

namespace Machine

variable {formulas : Formulas} {ids : List FunctionId} {m next : Machine}

/-- A step goes on with the formula that is active, enters one that it was to enter, or goes back
to its caller. -/
inductive Moves (m next : Machine) : Prop where
  | goOn (hactive : m.active.GoesOn next.active) (hcallers : next.callers = m.callers)
  | enter (id : FunctionId) (input : Float) (caller : Activation)
    (hid : .enter id ∈ m.active.tasks) (hcaller : m.active.GoesOn caller)
    (hactive : next.active = ⟨⟨caller.context.toFrame.enter id input, {}⟩, []⟩)
    (hcallers : next.callers = caller :: m.callers)
  | leave (caller : Activation) (hcallers : m.callers = caller :: next.callers)
    (hactive : caller.GoesOn next.active)

theorem goesOn_yield (formulas : Formulas) (m : Machine) {steps : StateM Progress Float}
    (h : Stepwise formulas [] steps) : m.active.GoesOn (m.yield steps).active :=
  Activation.goesOn_withRecord (h m.active.context.toProgress)

/-- A task that enters no formula may wait. -/
theorem goesOn_await (m : Machine) (part : Expr) {task : Task} (h : ∀ id, task ≠ .enter id) :
    m.active.GoesOn (m.await part task).active :=
  Activation.goesOn_tasks fun id hid => (List.mem_cons.mp hid).resolve_left (h id).symm

theorem moves_visit (formulas : Formulas) (m : Machine) (e : Expr) :
    m.Moves (m.visit formulas e) := by
  cases e with
  | literal value => exact .goOn (goesOn_yield formulas m (.pure value)) rfl
  | var name => exact .goOn (goesOn_yield formulas m (.pure _)) rfl
  | unary op operand => exact .goOn (goesOn_await m _ nofun) rfl
  | binary left op right => exact .goOn (goesOn_await m _ nofun) rfl
  | apply f argument => exact .goOn (goesOn_await m _ nofun) rfl
  | abs operand => exact .goOn (goesOn_await m _ nofun) rfl
  | call id argument =>
    rw [visit]
    split_ifs with hdepth hown
    · exact .goOn (goesOn_yield formulas m (.fail _)) rfl
    · exact .goOn (goesOn_yield formulas m (.fail _)) rfl
    have hsteps : Stepwise formulas [id] (resolve formulas id) :=
      .resolve (List.mem_singleton_self id)
    have hfound := Activation.goesOn_withRecord (hsteps m.active.context.toProgress)
    rcases hresolve : (resolve formulas id).run m.active.context.toProgress with
      ⟨cause | body, kept⟩ <;> rw [hresolve] at hfound
    · exact .goOn (hfound.trans (goesOn_yield formulas { m with active := _ } (.fail _))) rfl
    · refine .goOn ⟨rfl, hfound.isSome_reference?, fun other hother => ?_⟩ rfl
      rcases List.mem_cons.mp hother with heq | hother
      · obtain rfl : other = id := Task.enter.inj heq
        have hkept := reference?_of_resolve hresolve
        exact .inr ⟨UInt32.not_lt.mp hdepth, Option.isSome_of_eq_some hkept⟩
      · exact .inl hother
  | broken => exact .goOn (goesOn_yield formulas m (.fail _)) rfl

theorem moves_perform (formulas : Formulas) (value : Float) {task : Task} {tasks : List Task}
    (htasks : m.active.tasks = task :: tasks) :
    m.Moves ({ m with active := { m.active with tasks } }.perform value task) := by
  let done : Machine := { m with active := { m.active with tasks } }
  have hdone : m.active.GoesOn done.active :=
    Activation.goesOn_tasks fun id hid => htasks ▸ List.mem_cons_of_mem _ hid
  cases task with
  | unary op => exact .goOn (hdone.trans (goesOn_yield formulas done (.pure _))) rfl
  | right op operand => exact .goOn (hdone.trans (goesOn_await done _ nofun)) rfl
  | binary leftValue op =>
    refine .goOn (hdone.trans (goesOn_yield formulas done ?_)) rfl
    cases op.apply leftValue value with
    | ok result => exact .settle result _
    | error cause => exact .fail cause
  | apply f =>
    refine .goOn (hdone.trans (goesOn_yield formulas done ?_)) rfl
    exact (Stepwise.noteRounding _).bind fun _ => .settle _ _
  | abs => exact .goOn (hdone.trans (goesOn_yield formulas done (.pure _))) rfl
  | enter id =>
    rw [perform]
    split
    · exact .goOn (hdone.trans (goesOn_yield formulas done (.fail _))) rfl
    · exact .enter id value _ (htasks ▸ List.mem_cons_self) hdone rfl rfl

theorem moves_of_step (h : m.step formulas = some next) : m.Moves next := by
  obtain ⟨focus, ⟨context, tasks⟩, callers⟩ := m
  cases focus with
  | tree e =>
    obtain rfl := Option.some.inj h
    exact moves_visit formulas _ e
  | value value =>
    cases tasks with
    | cons task tasks =>
      obtain rfl := Option.some.inj h
      exact moves_perform formulas value rfl
    | nil =>
      cases callers with
      | nil => exact nomatch h
      | cons caller callers =>
        obtain rfl := Option.some.inj h
        exact .leave caller rfl (goesOn_yield formulas ⟨_, caller, callers⟩ (.leave value _))

end Machine

/-! ## Stacks -/

/-- A stack of activations, the latest first. The lowest is in the frame `first`, and each of the
others was entered from the one below. -/
inductive Stacked (first : Frame) : List Activation → Prop where
  | bottom {a : Activation} (hframe : a.context.toFrame = first) (hready : a.Ready) :
    Stacked first [a]
  | call {inner outer : Activation} {rest : List Activation} (id : FunctionId) (input : Float)
    (hdepth : outer.context.depth ≤ maxCallDepth)
    (hframe : inner.context.toFrame = outer.context.toFrame.enter id input) (hready : inner.Ready)
    (h : Stacked first (outer :: rest)) : Stacked first (inner :: outer :: rest)

namespace Stacked

variable {first : Frame} {a b caller : Activation} {rest : List Activation}

theorem ready (h : Stacked first (a :: rest)) : a.Ready := by
  cases h with
  | bottom _ hready => exact hready
  | call _ _ _ _ hready _ => exact hready

theorem goOn (h : Stacked first (a :: rest)) (hgo : a.GoesOn b) : Stacked first (b :: rest) := by
  cases h with
  | bottom hframe hready => exact .bottom (hgo.frame_eq.trans hframe) (hgo.ready hready)
  | call id input hdepth hframe hready h =>
    exact .call id input hdepth (hgo.frame_eq.trans hframe) (hgo.ready hready) h

theorem enter (h : Stacked first (a :: rest)) {id : FunctionId} (hid : .enter id ∈ a.tasks)
    (hgo : a.GoesOn caller) (input : Float) :
    Stacked first (⟨⟨caller.context.toFrame.enter id input, {}⟩, []⟩ :: caller :: rest) :=
  .call id input (hgo.depth_eq ▸ (h.ready id hid).1) rfl (Activation.ready_nil _) (h.goOn hgo)

theorem leave (h : Stacked first (a :: caller :: rest)) (hgo : caller.GoesOn b) :
    Stacked first (b :: rest) := by
  cases h with
  | call _ _ _ _ _ h => exact h.goOn hgo

/-- Each call is one deeper than its caller. -/
theorem toNat_depth (h : Stacked first (a :: rest)) :
    a.context.depth.toNat = first.depth.toNat + rest.length := by
  induction rest generalizing a with
  | nil =>
    cases h with
    | bottom hframe _ => exact congrArg (·.depth.toNat) hframe
  | cons outer rest ih =>
    cases h with
    | call id input hdepth hframe _ h =>
      have hinner : a.context.depth.toNat = outer.context.depth.toNat + 1 := by
        rw [hframe]
        exact Frame.toNat_depth_enter hdepth id input
      rw [hinner, ih h, List.length_cons, Nat.add_assoc]

/-- What may call is nested in two calls at most, and what is entered in three. -/
theorem length_le (h : Stacked first (a :: rest)) : rest.length ≤ 3 - first.depth.toNat := by
  cases h with
  | bottom _ _ => exact Nat.zero_le _
  | @call _ outer rest id input hdepth _ _ h =>
    have hle : outer.context.depth.toNat ≤ 2 := UInt32.le_iff_toNat_le.mp hdepth
    have hdepth := h.toNat_depth
    rw [List.length_cons]
    omega

/-- All but the lowest are nested in three calls at most. -/
theorem depth_le (h : Stacked first (a :: rest)) :
    ∀ inner ∈ (a :: rest).dropLast, inner.context.depth ≤ 3 := by
  induction rest generalizing a with
  | nil => exact nofun
  | cons outer rest ih =>
    cases h with
    | call id input hdepth hframe _ h =>
      intro inner hinner
      rcases List.mem_cons.mp hinner with rfl | hinner
      · have hle : outer.context.depth.toNat ≤ 2 := UInt32.le_iff_toNat_le.mp hdepth
        rw [hframe, UInt32.le_iff_toNat_le, Frame.toNat_depth_enter hdepth id input]
        exact Nat.succ_le_succ hle
      · exact ih h inner hinner

end Stacked

namespace Machine

variable {formulas : Formulas} {first : Frame}

theorem stacked_of_moves {m next : Machine} (h : m.Moves next)
    (hstack : Stacked first (m.active :: m.callers)) :
    Stacked first (next.active :: next.callers) := by
  cases h with
  | goOn hactive hcallers => exact hcallers ▸ hstack.goOn hactive
  | enter id input caller hid hcaller hactive hcallers =>
    rw [hactive, hcallers]
    exact hstack.enter hid hcaller input
  | leave caller hcallers hactive =>
    rw [hcallers] at hstack
    exact hstack.leave hactive

/-- Throughout the evaluation of a tree. -/
theorem stacked_run (formulas : Formulas) (context : Context) (e : Expr) (n : Nat) :
    let m := (start context e).run formulas n
    Stacked context.toFrame (m.active :: m.callers) :=
  runFor_keeps (P := fun m => Stacked context.toFrame (m.active :: m.callers))
    (fun _ _ hstack hstep => stacked_of_moves (moves_of_step hstep) hstack)
    (.bottom rfl (Activation.ready_nil context)) n

end Machine

open Machine

/-- An evaluation ends, in whatever context it begins and whatever the formulas refer to. At each
moment of it, the calls that are nested are as many at most as the depth that it began with leaves
up to three, so none from three on, and each is at a depth of three at most. Where a formula is
still to be entered, the depth can be counted up. -/
theorem evalNode_ends (formulas : Formulas) (context : Context) (e : Expr) :
    (∃ n, (start context e).run formulas n = stop (context.evalNode formulas e)) ∧
      (stop (context.evalNode formulas e)).step formulas = none ∧
      ∀ n, let m := (start context e).run formulas n
        m.nested.length ≤ 3 - context.depth.toNat ∧ (∀ inner ∈ m.nested, inner.depth ≤ 3) ∧
          ∀ id, .enter id ∈ m.active.tasks → m.active.context.depth.toNat + 1 < UInt32.size := by
  refine ⟨exists_run_eq_stop formulas context e, rfl, fun n => ?_⟩
  have hstack := stacked_run formulas context e n
  refine ⟨?_, ?_, fun id hid => ?_⟩
  · have hlength := hstack.length_le
    simpa [nested] using hlength
  · intro inner hinner
    obtain ⟨activation, hmem, rfl⟩ := List.mem_map.mp hinner
    exact hstack.depth_le activation hmem
  · have hle := UInt32.le_iff_toNat_le.mp (hstack.ready id hid).1
    exact Nat.lt_of_le_of_lt (Nat.succ_le_succ hle) (by decide)

/-- Two formulas that call each other, from a depth of one. The second call is nested in the first,
and the third is turned away. -/
theorem evalNode_ends_cycle :
    let formulas := Formulas.ofPairs [(0, "f1(x)"), (1, "f0(x)")]
    let context : Context := { input := 2, depth := 1, references := [(7, .broken)] }
    let m := fun n => (start context (.call 0 (.var .bound))).run formulas n
    (m 6).active.context ∈ (m 6).nested ∧ (m 6).active.context.depth ≤ 3 ∧
      .enter 1 ∈ (m 4).active.tasks ∧ (m 4).active.context.depth.toNat + 1 < UInt32.size ∧
      (m 9).step formulas = none := by
  intro formulas context m
  have hends := (evalNode_ends formulas context (.call 0 (.var .bound))).2.2
  have hnested : (m 6).active.context ∈ (m 6).nested := by decide +kernel
  have henter : .enter 1 ∈ (m 4).active.tasks := by decide +kernel
  exact ⟨hnested, (hends 6).2.1 _ hnested, henter, (hends 4).2.2 1 henter, by decide +kernel⟩

/-- What an evaluation does to its context, whatever that holds at first. The frame stays, as do a
failure, the note of a rounding function and each tree that is kept. Trees are kept of formulas
alone that the tree itself calls, and as their texts are read. When a formula is about to be
entered, its tree is still found. -/
theorem evalNode_effects (formulas : Formulas) (context : Context) (e : Expr) :
    let after := (context.evalNode formulas e).2
    after.toFrame = context.toFrame ∧
      (∀ cause, context.failure = some cause → after.failure = some cause) ∧
      (context.usedRounding = true → after.usedRounding = true) ∧
      (∀ id body, context.reference? id = some body → after.reference? id = some body) ∧
      (∀ id body, context.reference? id = none → after.reference? id = some body →
        id ∈ e.calls ∧ ∃ text, formulas id = some text ∧ parseText text = body) ∧
      (∃ n, (start context e).run formulas n = stop (context.evalNode formulas e)) ∧
      ∀ n, let m := (start context e).run formulas n
        ∀ id, .enter id ∈ m.active.tasks → (m.active.context.reference? id).isSome = true := by
  have hextends := Progress.extends_of_steps
    (evalNode_steps formulas context.toFrame e context.toProgress)
  refine ⟨rfl, hextends.failure_of_some, hextends.usedRounding_of_true, hextends.reference?_of_some,
    fun id body hnone hsome => ?_, exists_run_eq_stop formulas context e, fun n id hid => ?_⟩
  · obtain ⟨hcalls, hbody⟩ := hextends.filed_of_new id body hnone hsome
    exact ⟨hcalls, Formulas.exists_text_of_body hbody⟩
  · exact ((stacked_run formulas context e n).ready id hid).2

/-- A call in the argument of a call, in a context that has failed before and keeps another tree for
`f0` than the one that is filed. The tree of `f1` is kept, and that of `f2` is not, which only
`f0` as it is filed calls. -/
theorem evalNode_effects_stale :
    let formulas := Formulas.ofPairs [(0, "f2(x) + 1"), (1, "f0(|x|)"), (2, "x / 0")]
    let context : Context :=
      { input := 2, ownId := some 5, depth := 1, failure := some .nonFinite, usedRounding := true
        references := [(0, .var .bound)] }
    let e : Expr := .call 0 (.call 1 (.var .bound))
    let after := (context.evalNode formulas e).2
    after.failure = some .nonFinite ∧ after.usedRounding = true ∧
      after.reference? 0 = some (.var .bound) ∧ after.reference? 2 = none ∧
      (1 ∈ e.calls ∧ ∃ text, formulas 1 = some text ∧
        parseText text = .call 0 (.abs (.var .bound))) ∧
      .enter 0 ∈ ((start context e).run formulas 16).active.tasks ∧
      (((start context e).run formulas 16).active.context.reference? 0).isSome = true := by
  intro formulas context e after
  obtain ⟨-, hfailure, hused, hkept, hnew, -, hfound⟩ := evalNode_effects formulas context e
  have henter : .enter 0 ∈ ((start context e).run formulas 16).active.tasks := by decide +kernel
  exact ⟨hfailure _ rfl, hused rfl, hkept 0 _ rfl, by decide +kernel,
    hnew 1 _ (by decide +kernel) (by decide +kernel), henter, hfound 16 0 henter⟩

end Formulary
