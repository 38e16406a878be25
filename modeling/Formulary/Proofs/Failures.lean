import Mathlib.Logic.Relation
import Formulary.Proofs.Numbers

/-!
# The first failure

A walk that fails goes on, and what it fails for is the first failure on its way. So a visit fails
for the first failure of its parts, and for one of its own if there is none
(`Visit.exists_failure?_eq`). A visit leads to a part if no part before that one fails
(`Visit.Leads`), and from there to the parts of the part, also in the body of a call
(`Visit.Reaches`). What fails there is what the whole fails for, whatever else there is in it.

* `Visit.Ready.part`, `Visit.Leads.failure?_eq` : one step of the way.
* `Visit.Ready.run`, `Visit.Reaches.failure?_eq` : the whole way.
* `Visit.Ready.failure?_of_body_error` : a call of a formula that has no tree.
* `failure_evaluate_of_reaches` : the failure of a formula.
-/

namespace Formulary

/-! ## Single steps -/

section Steps

variable (progress : Progress)

theorem failure_run_fail (cause : EvalError) :
    ((fail cause).run progress).2.failure = progress.failure.or (some cause) :=
  (progress.failure_fail cause).trans Option.or_some.symm

theorem exists_failure_run_settle (result : Float) (operands : List Float) :
    ∃ own, ((settle result operands).run progress).2.failure = progress.failure.or own := by
  unfold settle
  split
  · exact ⟨_, failure_run_fail progress _⟩
  · exact ⟨none, Option.or_none.symm⟩

/-- A call fails for what its body fails for. -/
theorem exists_failure_run_leave (value : Float) (inner : Progress) :
    ∃ own, ((leave value inner).run progress).2.failure =
      progress.failure.or (inner.failure.or own) := by
  have hrun : (leave value inner).run progress = StateT.run
      (if inner.hasFailed || !value.isFinite then fail (inner.failure.getD .nonFinite)
        else pure value) (progress.noteRounding inner.usedRounding) := rfl
  rw [hrun]
  split
  · refine ⟨some .nonFinite, ?_⟩
    rw [failure_run_fail, Option.or_some (o := inner.failure)]
    rfl
  · next hfine =>
    have hnone : inner.failure = none := by
      simpa [Progress.hasFailed] using (Bool.or_eq_false_iff.mp (Bool.eq_false_iff.mpr hfine)).1
    exact ⟨none, by rw [hnone]; exact Option.or_none.symm⟩

end Steps

namespace Visit

variable {formulas : Formulas} {visit inner first : Visit} {rest : List Visit} {cause : EvalError}

/-! ## Visits -/

/-- The failure on record after the visit. -/
def failure? (formulas : Formulas) (visit : Visit) : Option EvalError :=
  (visit.after formulas).failure

/-- The visit begins with references that are filed, and with no failure on record. -/
structure Ready (formulas : Formulas) (visit : Visit) : Prop where
  faithful : visit.before.Faithful formulas
  failure_before : visit.before.failure = none

theorem ready_fresh (frame : Frame) (tree : Expr) : Ready formulas ⟨frame, tree, {}⟩ where
  faithful _ _ hkept := nomatch hkept
  failure_before := rfl

/-- The visit leads to the part `inner`, and no part before that one fails. -/
def Leads (formulas : Formulas) (visit inner : Visit) : Prop :=
  ∃ earlier later, visit.parts formulas = earlier ++ inner :: later ∧
    ∀ part ∈ earlier, part.failure? formulas = none

/-- The visit leads to the other one, from part to part, or is the same. -/
def Reaches (formulas : Formulas) : Visit → Visit → Prop :=
  Relation.ReflTransGen (Leads formulas)

theorem faithful_after (h : visit.before.Faithful formulas) :
    (visit.after formulas).Faithful formulas :=
  (evalNode_refines formulas visit.frame visit.tree visit.before h).1

/-- A failure on record stays there. -/
theorem failure?_eq_or (h : visit.before.Faithful formulas) :
    visit.failure? formulas = visit.before.failure.or (visit.failure? formulas) := by
  obtain ⟨-, hfailed, -⟩ := evalNode_refines formulas visit.frame visit.tree visit.before h
  cases hbefore : visit.before.failure with
  | none => rfl
  | some cause => exact hfailed cause hbefore

theorem failure?_eq_ofParts (formulas : Formulas) (visit : Visit) :
    visit.failure? formulas = (visit.ofParts formulas ((visit.parts formulas).map fun part =>
      (part.value formulas, part.after formulas))).2.failure :=
  congrArg (·.2.failure) (visit.eq_ofParts formulas)

theorem findSome?_failure?_pair (first second : Visit) :
    [first, second].findSome? (failure? formulas) =
      (first.failure? formulas).or (second.failure? formulas) := by
  rw [← List.singleton_append, List.findSome?_append, List.findSome?_singleton,
    List.findSome?_singleton]

/-- A visit fails for the first failure of its parts, or else for one of its own. -/
theorem exists_failure?_eq (h : visit.Ready formulas) : ∃ own, visit.failure? formulas =
    ((visit.parts formulas).findSome? (failure? formulas)).or own := by
  rw [failure?_eq_ofParts]
  obtain ⟨frame, tree, before⟩ := visit
  obtain ⟨hfaithful, hnone⟩ := h
  cases tree with
  | literal | var => exact ⟨none, hnone⟩
  | broken => exact ⟨_, failure_run_fail before _⟩
  | unary | abs =>
    refine ⟨none, ?_⟩
    simp only [parts, ofParts, List.map_cons, List.map_nil, List.findSome?_singleton, failure?,
      Option.or_none]
  | apply f argument =>
    simp only [parts, ofParts, List.map_cons, List.map_nil, List.findSome?_singleton]
    exact exists_failure_run_settle _ _ _
  | binary left op right =>
    let first : Visit := ⟨frame, left, before⟩
    let second : Visit := ⟨frame, right, first.after formulas⟩
    have hsecond : second.failure? formulas =
        (first.failure? formulas).or (second.failure? formulas) :=
      failure?_eq_or (faithful_after hfaithful)
    simp only [parts, ofParts, List.map_cons, List.map_nil]
    rw [findSome?_failure?_pair, ← hsecond]
    split
    · exact exists_failure_run_settle _ _ _
    · exact ⟨_, failure_run_fail _ _⟩
  | call id argument =>
    cases hcalled : called formulas ⟨frame, .call id argument, before⟩ id with
    | error cause =>
      simp only [parts, ofParts, hcalled, List.map_nil]
      exact ⟨_, failure_run_fail before cause⟩
    | ok found =>
      simp only [parts, ofParts, hcalled, List.map_cons, List.map_nil]
      obtain ⟨own, hown⟩ := exists_failure_run_leave
        (after formulas ⟨frame, argument, found.2⟩) _ _
      exact ⟨own, by rw [hown, findSome?_failure?_pair, Option.or_assoc]; rfl⟩

/-- A formula that is found adds no failure. -/
theorem faithful_of_called {id : FunctionId} {body : Expr} {kept : Progress}
    (h : visit.Ready formulas) (hcalled : visit.called formulas id = .ok (body, kept)) :
    kept.Faithful formulas ∧ kept.failure = none := by
  obtain ⟨after, hrun, hfaithful, hfailure, -⟩ := h.faithful.resolve_run id
  rw [called, hrun] at hcalled
  split at hcalled
  · cases hcalled
  split at hcalled
  · cases hcalled
  cases hbody : formulas.body id with
  | error cause =>
    rw [hbody] at hcalled
    cases hcalled
  | ok found =>
    rw [hbody] at hcalled
    obtain ⟨rfl, rfl⟩ := Prod.mk.inj (Except.ok.inj hcalled)
    exact ⟨hfaithful, hfailure.trans h.failure_before⟩

theorem leads_of_getElem? (i : Nat) (hpart : (visit.parts formulas)[i]? = some inner)
    (hearlier : ∀ part ∈ (visit.parts formulas).take i, part.failure? formulas = none) :
    visit.Leads formulas inner := by
  obtain ⟨hi, rfl⟩ := List.getElem?_eq_some_iff.mp hpart
  refine ⟨_, (visit.parts formulas).drop (i + 1), ?_, hearlier⟩
  rw [List.getElem_cons_drop, List.take_append_drop]

theorem Leads.eq_or_mem (h : visit.Leads formulas inner)
    (hparts : visit.parts formulas = first :: rest) :
    inner = first ∨ first.failure? formulas = none ∧ inner ∈ rest := by
  obtain ⟨earlier, later, hsplit, hearlier⟩ := h
  rw [hparts] at hsplit
  cases earlier with
  | nil => exact .inl (List.cons.inj hsplit).1.symm
  | cons head earlier =>
    obtain ⟨rfl, rfl⟩ := List.cons.inj hsplit
    exact .inr ⟨hearlier first List.mem_cons_self, by simp⟩

/-- A visit that is ready leads to parts that are. -/
theorem Ready.part (h : visit.Ready formulas) (hinner : visit.Leads formulas inner) :
    inner.Ready formulas := by
  obtain ⟨frame, tree, before⟩ := visit
  cases tree with
  | literal | var | broken =>
    obtain ⟨earlier, later, hparts, -⟩ := hinner
    simp [parts] at hparts
  | unary | abs | apply =>
    rcases hinner.eq_or_mem rfl with rfl | ⟨-, hmem⟩
    · exact ⟨h.faithful, h.failure_before⟩
    · cases hmem
  | binary left op right =>
    rcases hinner.eq_or_mem rfl with rfl | ⟨hnone, hmem⟩
    · exact ⟨h.faithful, h.failure_before⟩
    · obtain rfl := List.mem_singleton.mp hmem
      exact ⟨faithful_after h.faithful, hnone⟩
  | call id argument =>
    cases hcalled : called formulas ⟨frame, .call id argument, before⟩ id with
    | error cause =>
      obtain ⟨earlier, later, hparts, -⟩ := hinner
      simp [parts, hcalled] at hparts
    | ok found =>
      obtain ⟨hfaithful, hnone⟩ := faithful_of_called h hcalled
      have hparts : parts formulas ⟨frame, .call id argument, before⟩ =
          [⟨frame, argument, found.2⟩, ⟨frame.enter id
            (value formulas ⟨frame, argument, found.2⟩), found.1, {}⟩] := by
        simp only [parts, hcalled]
      rcases hinner.eq_or_mem hparts with rfl | ⟨-, hmem⟩
      · exact ⟨hfaithful, hnone⟩
      · obtain rfl := List.mem_singleton.mp hmem
        exact ready_fresh _ _

/-- So are all that it reaches. -/
theorem Ready.run (h : visit.Ready formulas) (hinner : visit.Reaches formulas inner) :
    inner.Ready formulas := by
  induction hinner with
  | refl => exact h
  | tail _ hleads ih => exact ih.part hleads

/-- What fails with no failure before it is what the visit fails for. -/
theorem Leads.failure?_eq (h : visit.Leads formulas inner) (hready : visit.Ready formulas)
    (hcause : inner.failure? formulas = some cause) : visit.failure? formulas = some cause := by
  obtain ⟨own, hown⟩ := exists_failure?_eq hready
  obtain ⟨earlier, later, hparts, hearlier⟩ := h
  rw [hown, hparts, List.findSome?_append, List.findSome?_eq_none_iff.mpr hearlier,
    List.findSome?_cons, hcause]
  rfl

/-- And so for all that it reaches. -/
theorem Reaches.failure?_eq (h : visit.Reaches formulas inner) (hready : visit.Ready formulas)
    (hcause : inner.failure? formulas = some cause) : visit.failure? formulas = some cause := by
  induction h using Relation.ReflTransGen.head_induction_on with
  | refl => exact hcause
  | head hleads _ ih => exact hleads.failure?_eq hready (ih (hready.part hleads))

/-- A call of a formula that has no tree fails for that, once the checks before it are passed. -/
theorem Ready.failure?_of_body_error {id : FunctionId} {argument : Expr} (h : visit.Ready formulas)
    (htree : visit.tree = .call id argument) (hdepth : visit.frame.depth ≤ maxCallDepth)
    (hown : visit.frame.ownId ≠ some id) (hbody : formulas.body id = .error cause) :
    visit.failure? formulas = some cause := by
  obtain ⟨kept, hrun, -, hfailure, -⟩ := h.faithful.resolve_run id
  have hafter : visit.after formulas = kept.fail cause := by
    rw [after, htree, evalNode_call formulas id argument hdepth hown, StateT.run_bind, hrun, hbody]
    rfl
  rw [failure?, hafter, Progress.failure_fail, hfailure, h.failure_before]
  rfl

end Visit

/-- A formula fails for what fails with no failure before it. -/
theorem failure_evaluate_of_reaches {formulas : Formulas} {e : Expr} {input : Float}
    {ownId : Option FunctionId} {inner : Visit} {cause : EvalError}
    (h : Visit.Reaches formulas ⟨{ input, ownId }, e, {}⟩ inner)
    (hcause : inner.failure? formulas = some cause) :
    (evaluate formulas e input ownId).failure = some cause := by
  have hwhole := h.failure?_eq (Visit.ready_fresh _ _) hcause
  rcases hrun : (evalNode formulas { input, ownId } e).run {} with ⟨value, after⟩
  have hafter : after.failure = some cause := by
    rw [Visit.failure?, Visit.after, hrun] at hwhole
    exact hwhole
  rw [evaluate_eq_of_run hrun]
  exact Progress.failure_conclude_of_some hafter value

end Formulary
