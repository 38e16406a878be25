import Mathlib.Logic.Relation
import Formulary.Proofs.Schedules

/-!
# Where a walk goes

A walk goes on after a failure, with whatever value it has, and so the values have no say in where
it goes. It comes to every node of its tree and to the bodies of the calls, and passes by only what
is in calls that are turned away, before a value is asked for : those that are nested too deep,
those of the formula itself, and those of a formula that has no tree. A `Place` is a node without
the input, and what the walk notes down is told by the places that it comes to : whether a rounding
function was used (`Place.Rounds`), and which formulas were looked up (`Place.LooksUp`).

* `Place.rounds_iff`, `Place.looksUp_iff` : one step, from a place to the next ones.
* `evalNode_notes` : what the walk of any tree leaves on record.
* `evaluate_usedRounding` : evaluations and curves, for all inputs and ranges.
-/

namespace Formulary

/-! ## Places -/

/-- A node, the formula that its tree belongs to, and the calls that this is nested in. -/
structure Place where
  own : Option FunctionId
  depth : Nat
  tree : Expr
  deriving DecidableEq, Repr

namespace Place

variable (formulas : Formulas)

/-- The tree of the formula `id`, unless a call of it at this place is turned away. -/
def admitted? (place : Place) (id : FunctionId) : Option Expr :=
  if place.depth ≤ maxCallDepth.toNat ∧ place.own ≠ some id then (formulas.body id).toOption
  else none

/-- The next nodes of the same tree. -/
def operands (place : Place) : List Place :=
  match place.tree with
  | .literal _ | .var _ | .broken => []
  | .unary _ operand | .abs operand => [{ place with tree := operand }]
  | .binary left _ right => [{ place with tree := left }, { place with tree := right }]
  | .apply _ argument => [{ place with tree := argument }]
  | .call id argument =>
    if (place.admitted? formulas id).isSome then [{ place with tree := argument }] else []

/-- The tree of the formula that is called at the place. -/
def bodies (place : Place) : List Place :=
  match place.tree with
  | .call id _ =>
    (place.admitted? formulas id).toList.map fun body => ⟨some id, place.depth + 1, body⟩
  | _ => []

/-- A rounding function is applied at the place. -/
def IsRounding (place : Place) : Prop :=
  ∃ argument, place.tree = .apply .ceil argument ∨ place.tree = .apply .floor argument

/-- The formula `id` is called at the place, and the call is not turned away. -/
def Calls (place : Place) (id : FunctionId) : Prop :=
  ∃ argument, place.tree = .call id argument ∧ (place.admitted? formulas id).isSome = true

/-- From the place on, in its tree and in the bodies of calls, a rounding function is applied. -/
def Rounds (place : Place) : Prop :=
  ∃ inner, Relation.ReflTransGen
    (fun place next => next ∈ place.operands formulas ++ place.bodies formulas) place inner ∧
    inner.IsRounding

/-- From the place on, in its tree, the formula `id` is called. -/
def LooksUp (place : Place) (id : FunctionId) : Prop :=
  ∃ inner, Relation.ReflTransGen (fun place next => next ∈ place.operands formulas) place inner ∧
    inner.Calls formulas id

end Place

/-- What is found at one of the places that are reached is found at the first one, or from one of
the next ones on. -/
theorem exists_reflTransGen_iff {α : Type} {r : α → α → Prop} {found : α → Prop} {a : α} :
    (∃ b, Relation.ReflTransGen r a b ∧ found b) ↔
      found a ∨ ∃ next, r a next ∧ ∃ b, Relation.ReflTransGen r next b ∧ found b := by
  constructor
  · rintro ⟨b, hreach, hfound⟩
    rcases hreach.cases_head with rfl | ⟨next, hnext, hrest⟩
    · exact .inl hfound
    · exact .inr ⟨next, hnext, b, hrest, hfound⟩
  · rintro (hfound | ⟨next, hnext, b, hrest, hfound⟩)
    · exact ⟨a, .refl, hfound⟩
    · exact ⟨b, .head hnext hrest, hfound⟩

namespace Place

variable {formulas : Formulas} {place : Place} {id : FunctionId}

theorem rounds_iff : place.Rounds formulas ↔ place.IsRounding ∨
    ∃ next ∈ place.operands formulas ++ place.bodies formulas, next.Rounds formulas :=
  exists_reflTransGen_iff

theorem looksUp_iff : place.LooksUp formulas id ↔ place.Calls formulas id ∨
    ∃ next ∈ place.operands formulas, next.LooksUp formulas id :=
  exists_reflTransGen_iff

theorem isRounding_apply_iff {own : Option FunctionId} {depth : Nat} {f : MathFunction}
    {argument : Expr} : IsRounding ⟨own, depth, .apply f argument⟩ ↔ f.isRounding = true := by
  cases f <;> simp [IsRounding, MathFunction.isRounding]

theorem calls_call_iff {own : Option FunctionId} {depth : Nat} {argument : Expr}
    {other : FunctionId} : Calls formulas ⟨own, depth, .call id argument⟩ other ↔
      other = id ∧ (admitted? formulas ⟨own, depth, .call id argument⟩ id).isSome = true := by
  constructor
  · rintro ⟨_, ⟨⟩, hadmitted⟩
    exact ⟨rfl, hadmitted⟩
  · rintro ⟨rfl, hadmitted⟩
    exact ⟨argument, rfl, hadmitted⟩

end Place

/-! ## Records -/

/-- The record `after` has all that `before` has, and beyond that just that a rounding function was
used, if `rounds`, and the references that `keeps` tells. -/
structure Progress.Gains (formulas : Formulas) (before after : Progress) (rounds : Prop)
    (keeps : FunctionId → Prop) : Prop where
  faithful : after.Faithful formulas
  usedRounding_iff : after.usedRounding = true ↔ before.usedRounding = true ∨ rounds
  isSome_reference?_iff : ∀ id, (after.reference? id).isSome = true ↔
    (before.reference? id).isSome = true ∨ keeps id

theorem Progress.Gains.trans {formulas : Formulas} {p q r : Progress} {rounds rounds' : Prop}
    {keeps keeps' : FunctionId → Prop} (h : p.Gains formulas q rounds keeps)
    (h' : q.Gains formulas r rounds' keeps') :
    p.Gains formulas r (rounds ∨ rounds') fun id => keeps id ∨ keeps' id where
  faithful := h'.faithful
  usedRounding_iff := by rw [h'.usedRounding_iff, h.usedRounding_iff, or_assoc]
  isSome_reference?_iff id := by
    rw [h'.isSome_reference?_iff, h.isSome_reference?_iff, or_assoc]

/-- What the walk notes down, whatever its values. -/
def Notes (formulas : Formulas) {α : Type} (walk : StateM Progress α) (rounds : Prop)
    (keeps : FunctionId → Prop) : Prop :=
  ∀ p : Progress, p.Faithful formulas → p.Gains formulas (walk.run p).2 rounds keeps

namespace Notes

variable {formulas : Formulas} {α β : Type} {rounds rounds' : Prop}
  {keeps keeps' : FunctionId → Prop} {walk : StateM Progress α}

theorem congr (h : Notes formulas walk rounds keeps) (hrounds : rounds' ↔ rounds)
    (hkeeps : ∀ id, keeps' id ↔ keeps id) : Notes formulas walk rounds' keeps' := by
  obtain rfl : rounds' = rounds := propext hrounds
  obtain rfl : keeps' = keeps := funext fun id => propext (hkeeps id)
  exact h

/-- A walk that changes neither. -/
theorem of_same (h : ∀ p : Progress, (walk.run p).2.usedRounding = p.usedRounding ∧
    (walk.run p).2.references = p.references) :
    Notes formulas walk False fun _ => False := by
  intro p hp
  obtain ⟨hused, hreferences⟩ := h p
  have hreference : ∀ id, (walk.run p).2.reference? id = p.reference? id := fun id => by
    rw [Progress.reference?, hreferences, Progress.reference?]
  refine ⟨fun id body hkept => hp id body (hreference id ▸ hkept), ?_, fun id => ?_⟩
  · rw [hused, or_false]
  · rw [hreference, or_false]

theorem pure (value : α) : Notes formulas (pure value) False fun _ => False :=
  of_same fun _ => ⟨rfl, rfl⟩

theorem fail (cause : EvalError) : Notes formulas (fail cause) False fun _ => False :=
  of_same fun _ => ⟨rfl, rfl⟩

theorem settle (result : Float) (operands : List Float) :
    Notes formulas (settle result operands) False fun _ => False := by
  unfold Formulary.settle
  split
  · exact fail _
  · exact pure _

theorem noteRounding (used : Bool) :
    Notes formulas (modify (·.noteRounding used)) (used = true) fun _ => False := by
  intro p hp
  refine ⟨hp, ?_, fun _ => (or_false _).symm ▸ Iff.rfl⟩
  exact Bool.or_eq_true_iff

theorem bind {next : α → StateM Progress β} (h : Notes formulas walk rounds keeps)
    (hnext : ∀ value, Notes formulas (next value) rounds' keeps') :
    Notes formulas (walk >>= next) (rounds ∨ rounds') fun id => keeps id ∨ keeps' id := by
  intro p hp
  have hfirst := h p hp
  exact hfirst.trans (hnext (walk.run p).1 _ hfirst.faithful)

theorem leave (value : Float) (inner : Progress) :
    Notes formulas (leave value inner) (inner.usedRounding = true) fun _ => False := by
  have hpassed : Notes formulas (Formulary.leave value inner) (inner.usedRounding = true ∨ False)
      fun _ => False ∨ False := by
    refine (noteRounding _).bind fun _ => ?_
    split
    · exact fail _
    · exact pure _
  exact hpassed.congr (or_iff_left not_false).symm fun _ => (or_iff_left not_false).symm

theorem apply (op : BinaryOp) (left right : Float) :
    Notes formulas
      (match op.apply left right with
      | .ok result => Formulary.settle result [left, right]
      | .error cause => Formulary.fail cause) False fun _ => False := by
  cases op.apply left right with
  | ok result => exact settle result _
  | error cause => exact fail cause

/-- Calling a formula notes down what is used in there, and nothing that is kept in there. -/
theorem enter {walk : StateM Progress Float} (h : Notes formulas walk rounds keeps) :
    Notes formulas
      (let (result, inner) := walk.run {}
      Formulary.leave result inner) rounds fun _ => False := by
  have hinner := h {} (Context.faithful_start formulas 0 none)
  refine (leave _ _).congr ?_ fun _ => .rfl
  exact (hinner.usedRounding_iff.trans (or_iff_right Bool.false_ne_true)).symm

end Notes

/-- A formula that is looked up is kept if it has a tree. -/
theorem Progress.Faithful.gains_resolve {formulas : Formulas} {p : Progress}
    (hp : p.Faithful formulas) (id : FunctionId) :
    ((resolve formulas id).run p).1 = formulas.body id ∧
      p.Gains formulas ((resolve formulas id).run p).2 False fun other =>
        other = id ∧ ∃ body, formulas.body id = .ok body := by
  have hsame : ∀ (keeps : FunctionId → Prop),
      (∀ other, keeps other → (p.reference? other).isSome = true) →
        p.Gains formulas p False keeps := fun keeps hkeeps =>
    ⟨hp, (or_false _).symm ▸ Iff.rfl, fun other => (or_iff_left_of_imp (hkeeps other)).symm⟩
  cases hkept : p.reference? id with
  | some body =>
    have hrun : (resolve formulas id).run p = (.ok body, p) := by
      simp only [resolve, StateT.run, hkept]
    rw [hrun]
    refine ⟨(hp id body hkept).symm, hsame _ ?_⟩
    rintro other ⟨rfl, -⟩
    rw [hkept]
    rfl
  | none =>
    cases hbody : formulas.body id with
    | error cause =>
      have hrun : (resolve formulas id).run p = (.error cause, p) := by
        simp only [resolve, StateT.run, hkept, hbody]
      rw [hrun]
      refine ⟨rfl, hsame _ ?_⟩
      rintro other ⟨-, body, h⟩
      cases h
    | ok body =>
      have hrun : (resolve formulas id).run p = (.ok body, p.keep id body) := by
        simp only [resolve, StateT.run, hkept, hbody]
      rw [hrun]
      refine ⟨rfl, faithful_keep hp hbody, (or_false _).symm ▸ Iff.rfl, fun other => ?_⟩
      by_cases hid : other = id
      · subst hid
        simp [reference?_keep_self]
      · rw [reference?_keep_of_ne p body hid]
        simp [hid]

namespace Notes

variable {formulas : Formulas} {rounds : Prop} {keeps : FunctionId → Prop}

theorem resolve {id : FunctionId} {found : Except EvalError Expr}
    {next : Except EvalError Expr → StateM Progress Float} (hfound : formulas.body id = found)
    (hnext : Notes formulas (next found) rounds keeps) :
    Notes formulas (resolve formulas id >>= next) rounds fun other =>
      (other = id ∧ ∃ body, formulas.body id = .ok body) ∨ keeps other := by
  intro p hp
  subst hfound
  obtain ⟨hvalue, hfirst⟩ := hp.gains_resolve id
  rw [StateT.run_bind]
  have hrest := hnext _ hfirst.faithful
  rw [← hvalue] at hrest
  have hwhole := hfirst.trans hrest
  rw [false_or] at hwhole
  exact hwhole

/-- What is found at a place and from the next ones on is what is noted down from the place on. -/
theorem at_place {place : Place} {walk : StateM Progress Float}
    (h : Notes formulas walk rounds keeps)
    (hrounds : (place.IsRounding ∨ ∃ next ∈ place.operands formulas ++ place.bodies formulas,
      next.Rounds formulas) ↔ rounds)
    (hkeeps : ∀ id, (place.Calls formulas id ∨ ∃ next ∈ place.operands formulas,
      next.LooksUp formulas id) ↔ keeps id) :
    Notes formulas walk (place.Rounds formulas) (place.LooksUp formulas) :=
  h.congr (Place.rounds_iff.trans hrounds) fun id => Place.looksUp_iff.trans (hkeeps id)

/-- Nothing is found in a call that is turned away. -/
theorem turned_away {own : Option FunctionId} {depth : Nat} {id : FunctionId} {argument : Expr}
    {walk : StateM Progress Float} (hwalk : Notes formulas walk False fun _ => False)
    (h : Place.admitted? formulas ⟨own, depth, .call id argument⟩ id = none) :
    Notes formulas walk (Place.Rounds formulas ⟨own, depth, .call id argument⟩)
      (Place.LooksUp formulas ⟨own, depth, .call id argument⟩) := by
  refine hwalk.at_place ?_ fun id => ?_
  · simp [Place.IsRounding, Place.operands, Place.bodies, h]
  · simp [Place.calls_call_iff, Place.operands, h]

end Notes

/-! ## Walks -/

/-- The place of a tree in a frame. -/
def Frame.place (frame : Frame) (e : Expr) : Place :=
  ⟨frame.ownId, frame.depth.toNat, e⟩

/-- The walk of a tree in any frame notes down what is found at the places from its own on. -/
theorem evalNode_notes (formulas : Formulas) (frame : Frame) (e : Expr) :
    Notes formulas (evalNode formulas frame e) ((frame.place e).Rounds formulas)
      ((frame.place e).LooksUp formulas) := by
  induction frame, e using Frame.walk_induction with
  | literal frame value =>
    rw [evalNode_literal]
    refine (Notes.pure value).at_place ?_ fun id => ?_
    · simp [Frame.place, Place.IsRounding, Place.operands, Place.bodies]
    · simp [Frame.place, Place.Calls, Place.operands]
  | var frame name =>
    rw [evalNode_var]
    refine (Notes.pure _).at_place ?_ fun id => ?_
    · simp [Frame.place, Place.IsRounding, Place.operands, Place.bodies]
    · simp [Frame.place, Place.Calls, Place.operands]
  | unary frame op operand ih =>
    rw [evalNode_unary]
    refine (ih.bind fun value => .pure _).at_place ?_ fun id => ?_
    · simp [Frame.place, Place.IsRounding, Place.operands, Place.bodies]
    · simp [Frame.place, Place.Calls, Place.operands]
  | binary frame left op right ihLeft ihRight =>
    rw [evalNode_binary]
    refine (ihLeft.bind fun leftValue => ihRight.bind fun rightValue =>
      .apply op leftValue rightValue).at_place ?_ fun id => ?_
    · simp [Frame.place, Place.IsRounding, Place.operands, Place.bodies]
    · simp [Frame.place, Place.Calls, Place.operands]
  | apply frame f argument ih =>
    rw [evalNode_apply]
    refine (ih.bind fun value => (Notes.noteRounding f.isRounding).bind fun _ =>
      .settle _ _).at_place ?_ fun id => ?_
    · simp [Frame.place, Place.isRounding_apply_iff, Place.operands, Place.bodies, or_comm]
    · simp [Frame.place, Place.Calls, Place.operands]
  | abs frame operand ih =>
    rw [evalNode_abs]
    refine (ih.bind fun value => .pure _).at_place ?_ fun id => ?_
    · simp [Frame.place, Place.IsRounding, Place.operands, Place.bodies]
    · simp [Frame.place, Place.Calls, Place.operands]
  | callTooDeep frame id argument hlt =>
    rw [evalNode_call_of_lt formulas id argument hlt]
    refine (Notes.fail _).turned_away (if_neg fun h => ?_)
    exact absurd h.1 (Nat.not_le.mpr (UInt32.lt_iff_toNat_lt.mp hlt))
  | callSelf frame id argument hle hown =>
    rw [evalNode_call_self formulas id argument hle hown]
    exact (Notes.fail _).turned_away (if_neg fun h => h.2 hown)
  | call frame id argument hle hown ih ihBody =>
    rw [evalNode_call formulas id argument hle hown]
    have hadmitted : Place.admitted? formulas (frame.place (.call id argument)) id =
        (formulas.body id).toOption := if_pos ⟨UInt32.le_iff_toNat_le.mp hle, hown⟩
    cases hbody : formulas.body id with
    | error cause =>
      rw [hbody] at hadmitted
      have hnext : Notes formulas (fail cause) False fun _ => False := .fail cause
      refine Notes.turned_away (Notes.congr (.resolve hbody hnext) .rfl fun other => ?_) hadmitted
      simp [hbody]
    | ok body =>
      rw [hbody] at hadmitted
      have hinner : ∀ input, Notes formulas (evalNode formulas (frame.enter id input) body)
          (Place.Rounds formulas ⟨some id, frame.depth.toNat + 1, body⟩)
          (Place.LooksUp formulas ⟨some id, frame.depth.toNat + 1, body⟩) := by
        intro input
        have hplace := ihBody input body
        rwa [Frame.place, Frame.toNat_depth_enter hle] at hplace
      have hnext := ih.bind fun input => (hinner input).enter
      have hadmitted' : Place.admitted? formulas
          ⟨frame.ownId, frame.depth.toNat, .call id argument⟩ id = some body := hadmitted
      refine Notes.at_place (.resolve hbody hnext) ?_ fun other => ?_
      · simp [Frame.place, Place.IsRounding, Place.operands, Place.bodies, hadmitted']
      · simp [Frame.place, Place.calls_call_iff, Place.operands, hadmitted', hbody]
  | broken frame =>
    rw [evalNode_broken]
    refine (Notes.fail _).at_place ?_ fun id => ?_
    · simp [Frame.place, Place.IsRounding, Place.operands, Place.bodies]
    · simp [Frame.place, Place.Calls, Place.operands]

/-! ## Evaluations and curves -/

theorem Progress.Gains.conclude {formulas : Formulas} {p q : Progress} {rounds : Prop}
    {keeps : FunctionId → Prop} (h : p.Gains formulas q rounds keeps) (value : Float) :
    p.Gains formulas (q.conclude value) rounds keeps := by
  unfold Progress.conclude
  split
  · exact h
  · exact ⟨h.faithful, h.usedRounding_iff, h.isSome_reference?_iff⟩

section

variable (formulas : Formulas) (e : Expr) (ownId : Option FunctionId)

/-- What a fresh context has on record after the evaluation of a formula. -/
theorem gains_evaluate (input : Float) :
    Progress.Gains formulas {} ((Context.start input ownId).evaluate formulas e).2.toProgress
      (Place.Rounds formulas ⟨ownId, 0, e⟩) (Place.LooksUp formulas ⟨ownId, 0, e⟩) := by
  rw [Context.evaluate_of_walk rfl]
  have hwalk := evalNode_notes formulas (Context.start input ownId).toFrame e {}
    (Context.faithful_start formulas input ownId)
  exact hwalk.conclude _

theorem usedRounding_evaluate_iff (input : Float) :
    (evaluate formulas e input ownId).usedRounding = true ↔
      Place.Rounds formulas ⟨ownId, 0, e⟩ := by
  have hgains := (gains_evaluate formulas e ownId input).usedRounding_iff
  rw [Context.evaluate_of_walk rfl] at hgains
  rw [evaluate, Context.evaluate_of_walk rfl]
  exact hgains.trans (or_iff_right Bool.false_ne_true)

theorem usedRounding_evaluate_eq (input input' : Float) :
    (evaluate formulas e input ownId).usedRounding =
      (evaluate formulas e input' ownId).usedRounding :=
  Bool.eq_iff_iff.mpr ((usedRounding_evaluate_iff formulas e ownId input).trans
    (usedRounding_evaluate_iff formulas e ownId input').symm)

/-- A curve with any samples at all is noted as each evaluation is. -/
theorem usedRounding_sampleExpr {config : SamplingConfig} (h : 1 ≤ config.samples) (axis : Axis)
    (range : SampleRange) (input : Float) :
    (sampleExpr config formulas e ownId axis range).usedRounding =
      (evaluate formulas e input ownId).usedRounding := by
  let task : SamplingTask := ⟨formulas, e, ownId, range, config.samples⟩
  have hcurve : (sampleExpr config formulas e ownId axis range).usedRounding =
      (List.range config.samples).any fun index => (task.evaluationAt index).usedRounding :=
    congrArg Curve.usedRounding (task.curve_eq axis config.schedule)
  have hsample : ∀ index, (task.evaluationAt index).usedRounding =
      (evaluate formulas e input ownId).usedRounding := fun index =>
    usedRounding_evaluate_eq formulas e ownId (task.inputAt index) input
  rw [hcurve]
  simp only [hsample]
  cases (evaluate formulas e input ownId).usedRounding with
  | false => exact List.any_eq_false.mpr fun _ _ => Bool.false_ne_true
  | true => exact List.any_eq_true.mpr ⟨0, List.mem_range.mpr h, rfl⟩

end

/-- Whether a rounding function is used, and which formulas are looked up, does not depend on the
input. It is used where one is applied at a place that is reached, and then it is so for each
sample of a curve, over any range. -/
theorem evaluate_usedRounding (formulas : Formulas) (e : Expr) (ownId : Option FunctionId) :
    (∀ input, (evaluate formulas e input ownId).usedRounding = true ↔
      Place.Rounds formulas ⟨ownId, 0, e⟩) ∧
    (∀ input input', (evaluate formulas e input ownId).usedRounding =
        (evaluate formulas e input' ownId).usedRounding ∧
      ∀ id, (((Context.start input ownId).evaluate formulas e).2.reference? id).isSome =
        (((Context.start input' ownId).evaluate formulas e).2.reference? id).isSome) ∧
    ∀ (config : SamplingConfig) (axis : Axis) (range : SampleRange), 1 ≤ config.samples →
      (∀ input, (sampleExpr config formulas e ownId axis range).usedRounding =
        (evaluate formulas e input ownId).usedRounding) ∧
      ∀ range', config.toleranceFor (sampleExpr config formulas e ownId axis range') =
        config.toleranceFor (sampleExpr config formulas e ownId axis range) := by
  refine ⟨usedRounding_evaluate_iff formulas e ownId, fun input input' => ⟨?_, fun id => ?_⟩,
    fun config axis range hsamples => ⟨?_, fun range' => ?_⟩⟩
  · exact usedRounding_evaluate_eq formulas e ownId input input'
  · have hkept := (gains_evaluate formulas e ownId input).isSome_reference?_iff id
    have hkept' := (gains_evaluate formulas e ownId input').isSome_reference?_iff id
    exact Bool.eq_iff_iff.mpr (hkept.trans hkept'.symm)
  · exact usedRounding_sampleExpr formulas e ownId hsamples axis range
  · have hflag := usedRounding_sampleExpr formulas e ownId hsamples axis
    rw [SamplingConfig.toleranceFor, SamplingConfig.toleranceFor, hflag range' 0, hflag range 0]

/-- A rounding function in the body of a call, over two ranges. -/
theorem evaluate_usedRounding_nested :
    let formulas : Formulas := .ofPairs [(0, "floor(x)")]
    let e := parseText "1/x + f0(x)"
    let config : SamplingConfig := { samples := 3 }
    let range : SampleRange := ⟨-1, 1⟩
    Place.Rounds formulas ⟨none, 0, e⟩ ∧ (evaluate formulas e 0 none).usedRounding = true ∧
      1 ≤ config.samples ∧ (sampleExpr config formulas e none .x range).usedRounding = true ∧
      config.toleranceFor (sampleExpr config formulas e none .x ⟨-5, 5⟩) =
        config.toleranceFor (sampleExpr config formulas e none .x range) := by
  intro formulas e config range
  have hrounds : Place.Rounds formulas ⟨none, 0, e⟩ := by
    refine ⟨⟨some 0, 1, parseText "floor(x)"⟩, ?_, .var .bound, .inr (by decide +kernel)⟩
    exact .head (b := ⟨none, 0, parseText "f0(x)"⟩) (by decide +kernel)
      (.single (by decide +kernel))
  have hsamples : 1 ≤ config.samples := by decide
  obtain ⟨hiff, -, hcurve⟩ := evaluate_usedRounding formulas e none
  obtain ⟨hused, htolerance⟩ := hcurve config .x range hsamples
  have hflag := (hiff 0).mpr hrounds
  exact ⟨hrounds, hflag, hsamples, (hused 0).trans hflag, htolerance ⟨-5, 5⟩⟩

end Formulary
