import Mathlib.Data.List.Chain
import Formulary.Proofs.Strict

/-!
# What a formula refers to

Whether the references of a formula are in order (`RefsOk`) can be read off its tree and the file,
without the input. An evaluation comes to every call of the tree, however the values turn out, and
so it fails for all inputs if they are not, and for arithmetic alone if they are.

* `evalStrict_meets` : what the strict evaluation of a tree tells of its references.
* `Walk.length_le` : the walks of a tree in order end within the calls that may be nested.
* `exists_walk_of_cycle` : a cycle has walks of any length.
* `evaluate_references` : the failures of a formula that come from its references.
-/

namespace Formulary

/-! ## The calls of a tree -/

/-- No part of the tree stands for no formula. -/
def Expr.IsWhole : Expr → Prop
  | .literal _ | .var _ => True
  | .unary _ operand | .abs operand => operand.IsWhole
  | .binary left _ right => left.IsWhole ∧ right.IsWhole
  | .apply _ argument | .call _ argument => argument.IsWhole
  | .broken => False

/-- The formulas that the tree calls, those in the arguments of calls as well. -/
def Expr.calls : Expr → List FunctionId
  | .literal _ | .var _ | .broken => []
  | .unary _ operand | .abs operand => operand.calls
  | .binary left _ right => left.calls ++ right.calls
  | .apply _ argument => argument.calls
  | .call id argument => id :: argument.calls

/-- The tree is whole, and each call of it, at this depth and in the formula `own`, is of another
formula that is filed, can be read, and is in order one call deeper. -/
def RefsOk (formulas : Formulas) (e : Expr) (own : Option FunctionId) (depth : Nat) : Prop :=
  e.IsWhole ∧ ∀ id ∈ e.calls, ∃ _ : depth ≤ maxCallDepth.toNat, own ≠ some id ∧
    ∃ body, formulas.body id = .ok body ∧ RefsOk formulas body (some id) (depth + 1)
termination_by maxCallDepth.toNat + 1 - depth

/-- The tree of the formula `id` calls `other`. -/
def Formulas.Refers (formulas : Formulas) (id other : FunctionId) : Prop :=
  ∃ body, formulas.body id = .ok body ∧ other ∈ body.calls

/-- The tree calls the first of the formulas, and each of them refers to the next. -/
def Walk (formulas : Formulas) (e : Expr) (ids : List FunctionId) : Prop :=
  (∀ id ∈ ids.head?, id ∈ e.calls) ∧ ids.IsChain formulas.Refers

section

variable {formulas : Formulas} {e part body : Expr} {own : Option FunctionId} {depth : Nat}
  {id : FunctionId} {ids : List FunctionId}

theorem RefsOk.of_part (hwhole : e.IsWhole → part.IsWhole) (hcalls : part.calls ⊆ e.calls)
    (h : RefsOk formulas e own depth) : RefsOk formulas part own depth := by
  rw [RefsOk] at h ⊢
  exact ⟨hwhole h.1, fun id hid => h.2 id (hcalls hid)⟩

theorem refsOk_binary {left right : Expr} (op : BinaryOp)
    (hleft : RefsOk formulas left own depth) (hright : RefsOk formulas right own depth) :
    RefsOk formulas (.binary left op right) own depth := by
  rw [RefsOk] at hleft hright ⊢
  refine ⟨⟨hleft.1, hright.1⟩, fun id hid => ?_⟩
  exact (List.mem_append.mp hid).elim (hleft.2 id) (hright.2 id)

theorem refsOk_call {argument : Expr} (hdepth : depth ≤ maxCallDepth.toNat) (hown : own ≠ some id)
    (hbody : formulas.body id = .ok body) (hrefs : RefsOk formulas body (some id) (depth + 1))
    (hargument : RefsOk formulas argument own depth) :
    RefsOk formulas (.call id argument) own depth := by
  rw [RefsOk] at hargument ⊢
  refine ⟨hargument.1, fun other hother => ?_⟩
  rcases List.mem_cons.mp hother with rfl | hother
  · exact ⟨hdepth, hown, body, hbody, hrefs⟩
  · exact hargument.2 other hother

/-- What holds of each call of a tree that is in order. -/
theorem RefsOk.of_mem_calls (h : RefsOk formulas e own depth) (hid : id ∈ e.calls) :
    depth ≤ maxCallDepth.toNat ∧ own ≠ some id ∧
      ∃ body, formulas.body id = .ok body ∧ RefsOk formulas body (some id) (depth + 1) := by
  rw [RefsOk] at h
  obtain ⟨hdepth, hrest⟩ := h.2 id hid
  exact ⟨hdepth, hrest⟩

/-! ## Walks -/

theorem walk_singleton (hid : id ∈ e.calls) : Walk formulas e [id] := by
  refine ⟨fun other hother => ?_, .singleton id⟩
  obtain rfl : id = other := Option.some.inj hother
  exact hid

theorem Walk.cons (hid : id ∈ e.calls) (hbody : formulas.body id = .ok body)
    (h : Walk formulas body ids) : Walk formulas e (id :: ids) := by
  have hfirst : Walk formulas e [id] := walk_singleton hid
  refine ⟨hfirst.1, List.isChain_cons.mpr ⟨fun other hother => ?_, h.2⟩⟩
  exact ⟨body, hbody, h.1 other hother⟩

theorem Walk.of_part (hcalls : part.calls ⊆ e.calls) (h : Walk formulas part ids) :
    Walk formulas e ids :=
  ⟨fun id hid => hcalls (h.1 id hid), h.2⟩

theorem Walk.tail (h : Walk formulas e (id :: ids)) (hbody : formulas.body id = .ok body) :
    Walk formulas body ids := by
  obtain ⟨hnext, hchain⟩ := List.isChain_cons.mp h.2
  refine ⟨fun other hother => ?_, hchain⟩
  obtain ⟨body', hbody', hcall⟩ := hnext other hother
  obtain rfl : body = body' := Except.ok.inj (hbody.symm.trans hbody')
  exact hcall

/-- The walks of a tree in order go no deeper than calls may be nested. -/
theorem Walk.length_le (h : Walk formulas e ids) (hrefs : RefsOk formulas e own depth)
    (hdepth : depth ≤ maxCallDepth.toNat + 1) : ids.length + depth ≤ maxCallDepth.toNat + 1 := by
  induction ids generalizing e own depth with
  | nil => simpa using hdepth
  | cons id ids ih =>
    obtain ⟨hle, -, body, hbody, hrefs⟩ := hrefs.of_mem_calls (h.1 id rfl)
    have := ih (h.tail hbody) hrefs (by omega)
    simp only [List.length_cons]
    omega

/-- From a tree that reaches a cycle there are walks of any length. -/
theorem exists_walk_of_cycle (hcycle : Relation.TransGen formulas.Refers id id) (n : Nat)
    (h : ∃ first ∈ e.calls, Relation.ReflTransGen formulas.Refers first id) :
    ∃ ids, Walk formulas e ids ∧ ids.length = n := by
  induction n generalizing e with
  | zero => exact ⟨[], ⟨fun _ hid => (nomatch hid), .nil⟩, rfl⟩
  | succ n ih =>
    obtain ⟨first, hfirst, hreach⟩ := h
    -- On the way to the cycle or around it, there is a next formula.
    obtain ⟨next, ⟨body, hbody, hnext⟩, hreach⟩ :=
      Relation.TransGen.head'_iff.mp (Relation.TransGen.trans_right hreach hcycle)
    obtain ⟨ids, hwalk, hlength⟩ := ih ⟨next, hnext, hreach⟩
    exact ⟨first :: ids, hwalk.cons hfirst hbody, by rw [List.length_cons, hlength]⟩

end

/-! ## What an evaluation tells -/

/-- The cause is in the arithmetic of a formula. -/
def EvalError.IsArithmetic (cause : EvalError) : Prop :=
  cause = .divisionByZero ∨ cause = .nonFinite

/-- The steps come to an end only where `good` holds, and fail only for a cause that is `bad`. -/
def Strict.Meets {α : Type} (steps : Strict α) (good : Prop) (bad : EvalError → Prop) : Prop :=
  ∀ used, match steps.run used with
    | .ok _ => good
    | .error cause => bad cause

namespace Strict.Meets

variable {α β : Type} {good good' : Prop} {bad bad' : EvalError → Prop}

theorem pure (value : α) (h : good) : Meets (pure value) good bad :=
  fun _ => h

theorem throw {cause : EvalError} (h : bad cause) : Meets (throw cause : Strict α) good bad :=
  fun _ => h

theorem bind {steps : Strict α} {next : α → Strict β} (h : steps.Meets good bad)
    (hnext : good → ∀ value, (next value).Meets good' bad) :
    (steps >>= next).Meets good' bad := by
  intro used
  have hfirst := h used
  rw [StateT.run_bind]
  generalize steps.run used = outcome at hfirst ⊢
  rcases outcome with cause | ⟨value, used'⟩
  · exact hfirst
  · exact hnext hfirst value used'

theorem mono {steps : Strict α} (h : steps.Meets good bad) (hgood : good → good')
    (hbad : ∀ cause, bad cause → bad' cause) : steps.Meets good' bad' := by
  intro used
  have hsteps := h used
  generalize steps.run used = outcome at hsteps ⊢
  rcases outcome with cause | ⟨value, used'⟩
  · exact hbad cause hsteps
  · exact hgood hsteps

theorem noteRounding (used : Bool) (h : good) : Meets (noteRounding used) good bad :=
  fun _ => h

theorem settle (result : Float) (operands : List Float) (h : good)
    (hbad : ∀ cause : EvalError, cause.IsArithmetic → bad cause) :
    Meets (settle result operands) good bad := by
  unfold Strict.settle
  split
  · exact throw (hbad _ (.inr rfl))
  · exact pure _ h

theorem finite (value : Float) (h : good)
    (hbad : ∀ cause : EvalError, cause.IsArithmetic → bad cause) :
    Meets (finite value) good bad := by
  unfold Strict.finite
  split
  · exact pure _ h
  · exact throw (hbad _ (.inr rfl))

theorem binary (op : BinaryOp) (left right : Float) (h : good)
    (hbad : ∀ cause : EvalError, cause.IsArithmetic → bad cause) :
    Meets (binary op left right) good bad := by
  cases op with
  | div =>
    rw [Strict.binary]
    split
    · exact throw (hbad _ (.inl rfl))
    · exact settle _ _ h hbad
  | _ => exact settle _ _ h hbad

end Strict.Meets

/-- No formula is missing for the depth of calls. -/
theorem Formulas.body_ne_recursionLimit (formulas : Formulas) (id limit : FunctionId) :
    formulas.body id ≠ .error (.recursionLimit limit) := by
  intro h
  cases hfiled : formulas id with
  | none =>
    rw [body_of_none hfiled] at h
    exact nomatch h
  | some text =>
    rw [body_of_some hfiled] at h
    split at h <;> exact nomatch h

/-- What the cause of a failure tells of the references of the tree : they are not in order, if it
is not in the arithmetic, and they go deeper than calls may be nested, if that is the cause. -/
structure Explains (formulas : Formulas) (e : Expr) (own : Option FunctionId) (depth : Nat)
    (cause : EvalError) : Prop where
  arithmetic : RefsOk formulas e own depth → cause.IsArithmetic
  walk : ∀ id, cause = .recursionLimit id →
    ∃ ids, Walk formulas e ids ∧ ids.length + depth = maxCallDepth.toNat + 2

namespace Explains

variable {formulas : Formulas} {e part body : Expr} {own : Option FunctionId} {depth : Nat}
  {id : FunctionId} {cause : EvalError}

theorem of_arithmetic (h : cause.IsArithmetic) : Explains formulas e own depth cause where
  arithmetic _ := h
  walk := by
    rintro id rfl
    rcases h with h | h <;> exact nomatch h

theorem of_part (hwhole : e.IsWhole → part.IsWhole) (hcalls : part.calls ⊆ e.calls)
    (h : Explains formulas part own depth cause) : Explains formulas e own depth cause where
  arithmetic hrefs := h.arithmetic (hrefs.of_part hwhole hcalls)
  walk limit hlimit := by
    obtain ⟨ids, hwalk, hlength⟩ := h.walk limit hlimit
    exact ⟨ids, hwalk.of_part hcalls, hlength⟩

theorem of_body (hid : id ∈ e.calls) (hbody : formulas.body id = .ok body)
    (h : Explains formulas body (some id) (depth + 1) cause) :
    Explains formulas e own depth cause where
  arithmetic hrefs := by
    obtain ⟨-, -, body', hbody', hrefs⟩ := hrefs.of_mem_calls hid
    obtain rfl : body = body' := Except.ok.inj (hbody.symm.trans hbody')
    exact h.arithmetic hrefs
  walk limit hlimit := by
    obtain ⟨ids, hwalk, hlength⟩ := h.walk limit hlimit
    refine ⟨id :: ids, hwalk.cons hid hbody, ?_⟩
    rw [List.length_cons]
    omega

theorem recursionLimit (hid : id ∈ e.calls) (hdepth : depth = maxCallDepth.toNat + 1) :
    Explains formulas e own depth (.recursionLimit id) where
  arithmetic hrefs := by
    have := (hrefs.of_mem_calls hid).1
    omega
  walk _ _ := ⟨[id], walk_singleton hid, by rw [List.length_singleton]; omega⟩

theorem selfReference (hid : id ∈ e.calls) (hown : own = some id) :
    Explains formulas e own depth (.selfReference id) where
  arithmetic hrefs := absurd hown (hrefs.of_mem_calls hid).2.1
  walk _ hlimit := nomatch hlimit

theorem unresolved (hid : id ∈ e.calls) (hbody : formulas.body id = .error cause) :
    Explains formulas e own depth cause where
  arithmetic hrefs := by
    obtain ⟨-, -, body, hbody', -⟩ := hrefs.of_mem_calls hid
    exact nomatch hbody.symm.trans hbody'
  walk limit hlimit := by
    exact absurd (hlimit ▸ hbody) (formulas.body_ne_recursionLimit id limit)

theorem broken : Explains formulas .broken own depth .brokenExpression where
  arithmetic hrefs := by
    rw [RefsOk] at hrefs
    exact hrefs.1.elim
  walk _ hlimit := nomatch hlimit

end Explains

/-- What the evaluation of a part of the tree tells, it tells of the tree. -/
theorem Strict.Meets.of_part {α : Type} {steps : Strict α} {good : Prop} {formulas : Formulas}
    {e part : Expr} {own : Option FunctionId} {depth : Nat}
    (h : steps.Meets good (Explains formulas part own depth))
    (hwhole : e.IsWhole → part.IsWhole) (hcalls : part.calls ⊆ e.calls) :
    steps.Meets good (Explains formulas e own depth) :=
  h.mono id fun _ => .of_part hwhole hcalls

/-- The strict evaluation of a tree ends only if its references are in order, and the cause that it
fails for tells whether they are. -/
theorem evalStrict_meets (formulas : Formulas) (frame : Frame) (e : Expr)
    (hdepth : frame.depth.toNat ≤ maxCallDepth.toNat + 1) :
    (evalStrict formulas frame e).Meets (RefsOk formulas e frame.ownId frame.depth.toNat)
      (Explains formulas e frame.ownId frame.depth.toNat) := by
  induction frame, e using Frame.walk_induction with
  | literal frame _ | var frame _ =>
    rw [evalStrict]
    refine .pure _ ?_
    rw [RefsOk]
    exact ⟨trivial, fun _ hid => absurd hid List.not_mem_nil⟩
  | unary frame op operand ih =>
    rw [evalStrict]
    refine ((ih hdepth).of_part (e := .unary op operand) id (.refl _)).bind fun hrefs value => ?_
    exact .pure _ (hrefs.of_part (e := operand) id (.refl _))
  | binary frame left op right ihLeft ihRight =>
    rw [evalStrict]
    refine ((ihLeft hdepth).of_part And.left
      (List.subset_append_left ..)).bind fun hleft leftValue => ?_
    refine ((ihRight hdepth).of_part And.right
      (List.subset_append_right ..)).bind fun hright rightValue => ?_
    exact .binary op _ _ (refsOk_binary op hleft hright) fun _ => .of_arithmetic
  | apply frame f argument ih =>
    rw [evalStrict]
    refine ((ih hdepth).of_part (e := .apply f argument) id (.refl _)).bind fun hrefs value => ?_
    refine (Strict.Meets.noteRounding _ trivial).bind fun _ _ => ?_
    exact .settle _ _ (hrefs.of_part (e := argument) id (.refl _)) fun _ => .of_arithmetic
  | abs frame operand ih =>
    rw [evalStrict]
    refine ((ih hdepth).of_part (e := .abs operand) id (.refl _)).bind fun hrefs value => ?_
    exact .pure _ (hrefs.of_part (e := operand) id (.refl _))
  | callTooDeep frame called argument hlt =>
    rw [evalStrict_call_of_lt formulas called argument hlt]
    have hlt' := UInt32.lt_iff_toNat_lt.mp hlt
    exact .throw (.recursionLimit List.mem_cons_self (by omega))
  | callSelf frame called argument hle hown =>
    rw [evalStrict_call_self formulas called argument hle hown]
    exact .throw (.selfReference List.mem_cons_self hown)
  | call frame called argument hle hown ih ihBody =>
    rw [evalStrict_call formulas called argument hle hown]
    have hcalled : called ∈ (Expr.call called argument).calls := List.mem_cons_self
    have hdepth' := UInt32.le_iff_toNat_le.mp hle
    cases hbody : formulas.body called with
    | error cause => exact .throw (.unresolved hcalled hbody)
    | ok body =>
      change (do
        let input ← evalStrict formulas frame argument
        let result ← evalStrict formulas (frame.enter called input) body
        Strict.finite result).Meets _ _
      refine ((ih hdepth).of_part (e := .call called argument) id
        (List.subset_cons_self ..)).bind fun hargument input => ?_
      have henter := Frame.toNat_depth_enter hle called input
      have hcall := ihBody input body (by omega)
      rw [henter] at hcall
      refine (hcall.mono id fun _ => .of_body hcalled hbody).bind fun hrefs result => ?_
      exact .finite result (refsOk_call hdepth' hown hbody hrefs hargument) fun _ => .of_arithmetic
  | broken frame =>
    rw [evalStrict]
    exact .throw .broken

/-! ## Whole formulas -/

/-- A formula has a value only if its references are in order, and the failure that it has
otherwise tells whether they are. -/
theorem failure_evaluate_explained (formulas : Formulas) (e : Expr) (input : Float)
    (ownId : Option FunctionId) :
    (RefsOk formulas e ownId 0 ∧ (evaluate formulas e input ownId).failure = none) ∨
      ∃ cause, Explains formulas e ownId 0 cause ∧
        (evaluate formulas e input ownId).failure = some cause := by
  have hsteps := evalStrict_meets formulas { input, ownId } e (Nat.zero_le _)
  have hwhole := hsteps.bind (fun hrefs value =>
    Strict.Meets.finite value hrefs fun _ => .of_arithmetic) false
  cases h : evaluateStrict formulas e input ownId with
  | ok outcome =>
    rw [evaluateStrict] at h
    rw [h] at hwhole
    exact .inl ⟨hwhole, by rw [evaluate_of_strict.1 _ _ h]⟩
  | error cause =>
    have hcause := evaluate_of_strict.2 cause h
    rw [evaluateStrict] at h
    rw [h] at hwhole
    exact .inr ⟨cause, hwhole, hcause⟩

/-- A formula whose references are not in order fails for every input, and one whose references are
in order fails for arithmetic alone. References are not in order when they reach a cycle, or go on
for four calls. Where none does, the depth of calls is no failure. -/
theorem evaluate_references (formulas : Formulas) (e : Expr) (ownId : Option FunctionId) :
    (¬RefsOk formulas e ownId 0 →
      ∀ input, (evaluate formulas e input ownId).failure.isSome) ∧
    (RefsOk formulas e ownId 0 →
      ∀ input cause, (evaluate formulas e input ownId).failure = some cause →
        cause = .divisionByZero ∨ cause = .nonFinite) ∧
    (∀ id, (∃ first ∈ e.calls, Relation.ReflTransGen formulas.Refers first id) →
      Relation.TransGen formulas.Refers id id →
      ∀ input, (evaluate formulas e input ownId).failure.isSome) ∧
    (∀ ids, Walk formulas e ids → ids.length = 4 →
      ∀ input, (evaluate formulas e input ownId).failure.isSome) ∧
    ((∀ ids, Walk formulas e ids → ids.length ≤ 3) →
      ∀ input id, (evaluate formulas e input ownId).failure ≠ some (.recursionLimit id)) := by
  have hbroken : ¬RefsOk formulas e ownId 0 →
      ∀ input, (evaluate formulas e input ownId).failure.isSome := by
    intro hrefs input
    rcases failure_evaluate_explained formulas e input ownId with ⟨h, -⟩ | ⟨cause, -, hcause⟩
    · exact absurd h hrefs
    · rw [hcause]
      rfl
  have hwalk : ∀ ids, Walk formulas e ids → ids.length = 4 → ¬RefsOk formulas e ownId 0 := by
    intro ids hids hlength hrefs
    have := hids.length_le hrefs (Nat.zero_le _)
    rw [hlength] at this
    exact absurd this (by decide)
  refine ⟨hbroken, fun hrefs input cause hcause => ?_, fun id hreach hcycle => ?_,
    fun ids hids hlength => hbroken (hwalk ids hids hlength), fun hshort input id hlimit => ?_⟩
  · rcases failure_evaluate_explained formulas e input ownId with ⟨-, h⟩ | ⟨first, hfirst, h⟩
    · exact nomatch h.symm.trans hcause
    · obtain rfl := Option.some.inj (h.symm.trans hcause)
      exact hfirst.arithmetic hrefs
  · obtain ⟨ids, hids, hlength⟩ := exists_walk_of_cycle hcycle 4 hreach
    exact hbroken (hwalk ids hids hlength)
  · rcases failure_evaluate_explained formulas e input ownId with ⟨-, h⟩ | ⟨first, hfirst, h⟩
    · exact nomatch h.symm.trans hlimit
    · obtain ⟨ids, hids, hlength⟩ := hfirst.walk id (Option.some.inj (h.symm.trans hlimit))
      have := hshort ids hids
      have : ids.length + 0 = 4 := hlength
      omega

end Formulary
