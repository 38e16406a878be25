import Mathlib.Logic.Relation
import Formulary.Proofs.Floats
import Formulary.Proofs.Reading
import Formulary.Proofs.Reuse
import Formulary.Proofs.Substitution

/-!
# Values that are no numbers

A walk goes on with whatever value it has, also with one that is no number, and a later step may
turn that into a number again. The record of failures has to tell that it was there. It does, where
the walk begins with numbers : an input that is one, and a tree that has no other literals
(`Expr.Numeric`), as the tree of every text (`numeric_parseText`). What makes the record complete is
that a step fails where it makes what is no number out of numbers, and a call fails unless its
value is finite, so that each rule for values leads from numbers to numbers (`Yields.isNaN`).

A `Visit` is the walk of one node, and its `parts` are the visits that it makes on its way : of the
operands, of the argument of a call, and of the body in a frame of its own.

* `Visit.eq_ofParts` : nothing else goes into what a visit comes to.
* `Visit.Clean.part`, `Visit.Clean.run` : what a visit without a failure passes on to its parts, and
  theirs.
* `evaluate_numbers` : an evaluation that succeeds has come to numbers alone, and a walk that comes
  to something else is on record as failed.
-/

namespace Formulary

/-! ## Literals -/

/-- Each literal of the tree is a number. -/
def Expr.Numeric : Expr → Prop
  | .literal value => value.isNaN = false
  | .var _ | .broken => True
  | .unary _ operand | .abs operand => operand.Numeric
  | .binary left _ right => left.Numeric ∧ right.Numeric
  | .apply _ argument | .call _ argument => argument.Numeric

/-- So is each number among the tokens. -/
def NumericTokens (tokens : List Token) : Prop :=
  ∀ value, .number value ∈ tokens → value.isNaN = false

theorem isNaN_of_lexeme {c : Char} {rest : List Char} {value : Float}
    (h : (lexeme c rest).1 = some (.number value)) : value.isNaN = false := by
  unfold lexeme at h
  split at h
  · cases h
  split at h
  · cases h
  split at h
  · cases h
  split at h
  · have hrun := Option.some.inj h
    unfold numeralToken at hrun
    split at hrun
    · next hvalue => exact Token.number.inj hrun ▸ Numeral.isNaN_of_value? hvalue
    · cases hrun
  split at h
  · have hrun := Option.some.inj h
    unfold referenceToken at hrun
    dsimp only at hrun
    split at hrun <;> cases hrun
  split at h <;> cases h

theorem numericTokens_lexemeTokens (text : List Char) : NumericTokens (lexemeTokens text) := by
  fun_induction lexemeTokens text with
  | case1 => exact fun _ h => nomatch h
  | case2 c rest ih =>
    intro value h
    rcases List.mem_append.mp h with hfirst | hrest
    · exact isNaN_of_lexeme (Option.mem_toList.mp hfirst)
    · exact ih value hrest

/-- Products are written out with signs alone. -/
theorem NumericTokens.writeProducts {tokens : List Token} (h : NumericTokens tokens)
    (j : Juncture) : NumericTokens (j.writeProducts tokens) := by
  induction tokens generalizing j with
  | nil => exact h
  | cons token rest ih =>
    intro value hvalue
    rw [Juncture.writeProducts_cons] at hvalue
    rcases List.mem_append.mp hvalue with hsign | hvalue
    · split at hsign
      · cases List.mem_singleton.mp hsign
      · cases hsign
    rcases List.mem_cons.mp hvalue with hfirst | hrest
    · exact h value (hfirst ▸ List.mem_cons_self)
    · exact ih (fun value hmem => h value (List.mem_cons_of_mem token hmem)) _ value hrest

theorem NumericTokens.left {tokens rest : List Token} (h : NumericTokens (tokens ++ rest)) :
    NumericTokens tokens :=
  fun value hvalue => h value (List.mem_append_left rest hvalue)

theorem NumericTokens.right {tokens rest : List Token} (h : NumericTokens (tokens ++ rest)) :
    NumericTokens rest :=
  fun value hvalue => h value (List.mem_append_right tokens hvalue)

theorem NumericTokens.tail {token : Token} {rest : List Token}
    (h : NumericTokens (token :: rest)) : NumericTokens rest :=
  fun value hvalue => h value (List.mem_cons_of_mem token hvalue)

mutual

/-- The literals of a phrase are the numbers among its tokens. -/
theorem Phrase.numeric_tree {c : Category} (d : Phrase c) (h : NumericTokens d.tokens) :
    d.tree.Numeric := by
  match d with
  | .number value => exact h value List.mem_cons_self
  | .var _ => trivial
  | .apply _ argument | .call _ argument => exact argument.numeric_tree h.tail
  | .paren inner | .abs inner => exact inner.numeric_tree h.tail.left
  | .bare operand => exact operand.numeric_tree h
  | .sign _ operand => exact operand.numeric_tree h.tail
  | .chain first rest => exact rest.numeric_treeFrom (first.numeric_tree h.left) h.right

theorem Tail.numeric_treeFrom {level : Level} (t : Tail level) {left : Expr}
    (hleft : left.Numeric) (h : NumericTokens t.tokens) : (t.treeFrom left).Numeric := by
  match t with
  | .done => exact hleft
  | .more _ _ operand rest =>
    have hoperand := operand.numeric_tree h.tail.left
    exact rest.numeric_treeFrom ⟨hleft, hoperand⟩ h.tail.right

end

/-- The literals of the tree of a text are numbers. -/
theorem numeric_parseText (text : String) : (parseText text).Numeric := by
  have htokens : NumericTokens (tokenize text) := numericTokens_lexemeTokens _
  unfold parseText
  by_cases hinvalid : .invalid ∈ tokenize text
  · rw [parse_of_invalid hinvalid]
    trivial
  have hparse := parse_of_valid hinvalid
  dsimp only at hparse
  split at hparse
  · obtain ⟨d, hd, htree⟩ := derives_of_parse hparse
    rw [hparse, ← htree]
    exact d.numeric_tree (hd.tokens_eq ▸ htokens.writeProducts {})
  · rw [hparse]
    trivial

theorem Formulas.numeric_body {formulas : Formulas} {id : FunctionId} {body : Expr}
    (h : formulas.body id = .ok body) : body.Numeric := by
  obtain ⟨text, -, rfl⟩ := exists_text_of_body h
  exact numeric_parseText text

/-! ## Rules for values -/

theorem Variable.isNaN_value {input : Float} (h : input.isNaN = false) (name : Variable) :
    (name.value input).isNaN = false := by
  cases name with
  | bound => exact h
  | pi => exact (by decide : Float.isNaN 3.141592653589793 = false)
  | e => exact (by decide : Float.isNaN 2.718281828459045 = false)

theorem UnaryOp.isNaN_apply (op : UnaryOp) (value : Float) :
    (op.apply value).isNaN = value.isNaN := by
  cases op with
  | pos => rfl
  | neg => exact isNaN_neg value

/-- A result that comes out of numbers, and is not reported, is a number. -/
theorem isNaN_of_introducesNaN {result : Float} {operands : List Float}
    (hoperands : ∀ operand ∈ operands, operand.isNaN = false)
    (h : introducesNaN result operands = false) : result.isNaN = false := by
  have hnone : operands.any Float.isNaN = false :=
    List.any_eq_false.mpr fun operand hmem => Bool.not_eq_true _ ▸ hoperands operand hmem
  rw [introducesNaN, hnone, Bool.not_false, Bool.and_true] at h
  exact h

/-- Values by the rules are numbers, where the input and the literals are. -/
theorem Yields.isNaN {formulas : Formulas} {frame : Frame} {e : Expr} {value : Float}
    (h : Yields formulas frame e value) (he : e.Numeric) (hinput : frame.input.isNaN = false) :
    value.isNaN = false := by
  induction h with
  | literal value => exact he
  | var name => exact name.isNaN_value hinput
  | unary op _ ih => exact (op.isNaN_apply _).trans (ih he hinput)
  | binary _ _ _ hnumber ihLeft ihRight =>
    refine isNaN_of_introducesNaN (List.forall_mem_cons.mpr ⟨ihLeft he.1 hinput, ?_⟩) hnumber
    exact List.forall_mem_singleton.mpr (ihRight he.2 hinput)
  | apply f _ hnumber ih =>
    exact isNaN_of_introducesNaN (List.forall_mem_singleton.mpr (ih he hinput)) hnumber
  | abs _ ih => exact (isNaN_abs _).trans (ih he hinput)
  | call _ _ _ _ _ hfinite => exact isNaN_of_isFinite hfinite

/-! ## Walks that do not fail -/

section

variable {formulas : Formulas} {frame : Frame} {e : Expr} {before : Progress} {value : Float}

/-- A walk without a failure comes to a value by the rules. -/
theorem yields_of_walk (hbefore : before.Faithful formulas)
    (h : ((evalNode formulas frame e).run before).2.failure = none) :
    before.failure = none ∧
      Yields formulas frame e ((evalNode formulas frame e).run before).1 := by
  obtain ⟨-, hfailed, hfresh⟩ := evalNode_refines formulas frame e before hbefore
  have hnone : before.failure = none := by
    cases hfailure : before.failure with
    | none => rfl
    | some cause => exact nomatch h.symm.trans (hfailed cause hfailure)
  refine ⟨hnone, ?_⟩
  have hstrict := hfresh hnone false
  generalize houtcome : (evalStrict formulas frame e).run (false || before.usedRounding) = outcome
    at hstrict
  rcases outcome with cause | ⟨value, used⟩
  · exact nomatch h.symm.trans hstrict
  · have hvalue : ((evalNode formulas frame e).run before).1 = value := hstrict.1
    rw [hvalue]
    exact yields_of_run frame e houtcome

/-- A value by the rules is what a walk comes to, without a failure. -/
theorem Yields.walk (h : Yields formulas frame e value) (hbefore : before.Faithful formulas)
    (hnone : before.failure = none) :
    ((evalNode formulas frame e).run before).1 = value ∧
      ((evalNode formulas frame e).run before).2.failure = none ∧
      ((evalNode formulas frame e).run before).2.Faithful formulas := by
  obtain ⟨hafter, -, hfresh⟩ := evalNode_refines formulas frame e before hbefore
  obtain ⟨used, hrun⟩ := h.run (false || before.usedRounding)
  have hstrict := hfresh hnone false
  rw [hrun] at hstrict
  exact ⟨hstrict.1, hstrict.2.1, hafter⟩

end

/-! ## Visits -/

/-- A formula that is not found leaves no trace. -/
theorem eq_of_resolve_error {formulas : Formulas} {id : FunctionId} {before kept : Progress}
    {cause : EvalError} (h : (resolve formulas id).run before = (.error cause, kept)) :
    before = kept := by
  simp only [resolve, StateT.run] at h
  split at h
  · cases h
  · split at h
    · cases h
    · exact congrArg Prod.snd h

/-- The walk of a tree in a frame, and the record that it begins with. -/
structure Visit where
  frame : Frame
  tree : Expr
  before : Progress
  deriving DecidableEq, Repr

namespace Visit

/-- The value that the visit comes to. -/
def value (formulas : Formulas) (visit : Visit) : Float :=
  ((evalNode formulas visit.frame visit.tree).run visit.before).1

/-- The record after the visit. -/
def after (formulas : Formulas) (visit : Visit) : Progress :=
  ((evalNode formulas visit.frame visit.tree).run visit.before).2

/-- The tree of the formula `id` and the record after the look at it, or why it is not called. -/
def called (formulas : Formulas) (visit : Visit) (id : FunctionId) :
    Except EvalError (Expr × Progress) :=
  if maxCallDepth < visit.frame.depth then .error (.recursionLimit id)
  else if visit.frame.ownId = some id then .error (.selfReference id)
  else match (resolve formulas id).run visit.before with
    | (.error cause, _) => .error cause
    | (.ok body, kept) => .ok (body, kept)

/-- The visits that a visit makes, in their order. The right operand is visited with the record
that the left one leaves, and the body of a call for the value of its argument, with a record of
its own. -/
def parts (formulas : Formulas) (visit : Visit) : List Visit :=
  match visit.tree with
  | .literal _ | .var _ | .broken => []
  | .unary _ operand | .abs operand => [{ visit with tree := operand }]
  | .apply _ argument => [{ visit with tree := argument }]
  | .binary left _ right =>
    let first : Visit := { visit with tree := left }
    [first, { visit with tree := right, before := first.after formulas }]
  | .call id argument =>
    match visit.called formulas id with
    | .error _ => []
    | .ok (body, kept) =>
      let first : Visit := { visit with tree := argument, before := kept }
      [first, ⟨visit.frame.enter id (first.value formulas), body, {}⟩]

/-- What the visit comes to, given what its parts come to. -/
def ofParts (formulas : Formulas) (visit : Visit) (parts : List (Float × Progress)) :
    Float × Progress :=
  match visit.tree, parts with
  | .literal value, _ => (value, visit.before)
  | .var name, _ => (name.value visit.frame.input, visit.before)
  | .unary op _, [(value, after)] => (op.apply value, after)
  | .abs _, [(value, after)] => (value.abs, after)
  | .apply f _, [(value, after)] =>
    (settle (f.apply value) [value]).run (after.noteRounding f.isRounding)
  | .binary _ op _, [(leftValue, _), (rightValue, after)] =>
    StateT.run (match op.apply leftValue rightValue with
      | .ok result => settle result [leftValue, rightValue]
      | .error cause => fail cause) after
  | .call id _, parts =>
    match visit.called formulas id, parts with
    | .ok _, [(_, after), (result, inner)] => (leave result inner).run after
    | .error cause, _ => (fail cause).run visit.before
    | _, _ => (notANumber, visit.before)
  | _, _ => (fail .brokenExpression).run visit.before

/-- All that a visit comes to is put together from what its parts come to. -/
theorem eq_ofParts (formulas : Formulas) (visit : Visit) :
    (visit.value formulas, visit.after formulas) = visit.ofParts formulas
      ((visit.parts formulas).map fun part => (part.value formulas, part.after formulas)) := by
  obtain ⟨frame, tree, before⟩ := visit
  have hwhole : (value formulas ⟨frame, tree, before⟩, after formulas ⟨frame, tree, before⟩) =
      (evalNode formulas frame tree).run before := rfl
  rw [hwhole]
  cases tree with
  | literal value => rw [evalNode_literal]; rfl
  | var name => rw [evalNode_var]; rfl
  | unary op operand => rw [evalNode_unary]; rfl
  | binary left op right => rw [evalNode_binary]; rfl
  | apply f argument => rw [evalNode_apply]; rfl
  | abs operand => rw [evalNode_abs]; rfl
  | broken => rw [evalNode_broken]; rfl
  | call id argument =>
    by_cases hlt : maxCallDepth < frame.depth
    · have hcalled : called formulas ⟨frame, .call id argument, before⟩ id =
          .error (.recursionLimit id) := if_pos hlt
      rw [evalNode_call_of_lt formulas id argument hlt]
      simp only [ofParts, hcalled]
    have hle := UInt32.not_lt.mp hlt
    by_cases hown : frame.ownId = some id
    · have hcalled : called formulas ⟨frame, .call id argument, before⟩ id =
          .error (.selfReference id) := by rw [called, if_neg hlt, if_pos hown]
      rw [evalNode_call_self formulas id argument hle hown]
      simp only [ofParts, hcalled]
    rw [evalNode_call formulas id argument hle hown, StateT.run_bind]
    rcases hresolve : (resolve formulas id).run before with ⟨cause | body, kept⟩
    · obtain rfl := eq_of_resolve_error hresolve
      have hcalled : called formulas ⟨frame, .call id argument, before⟩ id = .error cause := by
        simp only [called, if_neg hlt, if_neg hown, hresolve]
      simp only [ofParts, hcalled]
      rfl
    · have hcalled : called formulas ⟨frame, .call id argument, before⟩ id = .ok (body, kept) := by
        simp only [called, if_neg hlt, if_neg hown, hresolve]
      simp only [parts, ofParts, hcalled, List.map_cons, List.map_nil]
      rfl

/-- The visit begins with numbers and with references that are filed, and does not fail. -/
structure Clean (formulas : Formulas) (visit : Visit) : Prop where
  numeric : visit.tree.Numeric
  isNaN_input : visit.frame.input.isNaN = false
  faithful : visit.before.Faithful formulas
  failure_after : (visit.after formulas).failure = none

variable {formulas : Formulas} {visit inner : Visit}

theorem Clean.yields (h : visit.Clean formulas) : visit.before.failure = none ∧
    Yields formulas visit.frame visit.tree (visit.value formulas) :=
  yields_of_walk h.faithful h.failure_after

theorem Clean.isNaN_value (h : visit.Clean formulas) : (visit.value formulas).isNaN = false :=
  h.yields.2.isNaN h.numeric h.isNaN_input

theorem clean_of_yields {value : Float} (hnumeric : visit.tree.Numeric)
    (hinput : visit.frame.input.isNaN = false) (hfaithful : visit.before.Faithful formulas)
    (hnone : visit.before.failure = none) (h : Yields formulas visit.frame visit.tree value) :
    visit.Clean formulas where
  numeric := hnumeric
  isNaN_input := hinput
  faithful := hfaithful
  failure_after := (h.walk hfaithful hnone).2.1

/-- The parts of a visit without a failure are without one. -/
theorem Clean.part (h : visit.Clean formulas) (hinner : inner ∈ visit.parts formulas) :
    inner.Clean formulas := by
  obtain ⟨hnone, hyields⟩ := h.yields
  generalize visit.value formulas = result at hyields
  obtain ⟨hnumeric, hinput, hfaithful, -⟩ := h
  obtain ⟨frame, tree, before⟩ := visit
  dsimp only at hnone hyields hnumeric hinput hfaithful
  cases hyields with
  | literal | var => cases hinner
  | unary op hoperand =>
    obtain rfl := List.mem_singleton.mp hinner
    exact clean_of_yields hnumeric hinput hfaithful hnone hoperand
  | abs hoperand =>
    obtain rfl := List.mem_singleton.mp hinner
    exact clean_of_yields hnumeric hinput hfaithful hnone hoperand
  | apply f hargument =>
    obtain rfl := List.mem_singleton.mp hinner
    exact clean_of_yields hnumeric hinput hfaithful hnone hargument
  | binary hleft hright =>
    rcases List.mem_cons.mp hinner with rfl | hinner
    · exact clean_of_yields hnumeric.1 hinput hfaithful hnone hleft
    · obtain rfl := List.mem_singleton.mp hinner
      obtain ⟨-, hnone', hfaithful'⟩ := hleft.walk hfaithful hnone
      exact clean_of_yields hnumeric.2 hinput hfaithful' hnone' hright
  | @call _ id argument body input _ hdepth hown hbody hargument hresult hfinite =>
    obtain ⟨kept, hkept, hfaithful', hfailure, -⟩ := hfaithful.resolve_run id
    have hnone' := hfailure.trans hnone
    have hcalled : called formulas ⟨frame, .call id argument, before⟩ id = .ok (body, kept) := by
      simp only [called, if_neg (UInt32.not_lt.mpr hdepth), if_neg hown, hkept, hbody]
    have hfirst : (⟨frame, argument, kept⟩ : Visit).Clean formulas :=
      clean_of_yields hnumeric hinput hfaithful' hnone' hargument
    simp only [parts, hcalled] at hinner
    rcases List.mem_cons.mp hinner with rfl | hinner
    · exact hfirst
    · obtain rfl := List.mem_singleton.mp hinner
      have hvalue : value formulas ⟨frame, argument, kept⟩ = input :=
        (hargument.walk hfaithful' hnone').1
      exact clean_of_yields (Formulas.numeric_body hbody) hfirst.isNaN_value
        (fun _ _ hkept => nomatch hkept) rfl (hvalue.symm ▸ hresult)

/-- The visit makes the other one on its way, or is the same. -/
def Makes (formulas : Formulas) : Visit → Visit → Prop :=
  Relation.ReflTransGen fun visit inner => inner ∈ visit.parts formulas

/-- So are all the visits that it makes. -/
theorem Clean.run (h : visit.Clean formulas) (hinner : visit.Makes formulas inner) :
    inner.Clean formulas := by
  induction hinner with
  | refl => exact h
  | tail _ hpart ih => exact ih.part hpart

end Visit

/-! ## Whole formulas -/

theorem Context.faithful_of_nil {formulas : Formulas} {context : Context}
    (h : context.references = []) : context.toProgress.Faithful formulas := by
  intro id body hkept
  rw [Progress.reference?, h] at hkept
  cases hkept

/-- An evaluation that succeeds is a visit without a failure. -/
theorem clean_of_evaluate {formulas : Formulas} {e : Expr} {input : Float}
    {ownId : Option FunctionId} (he : e.Numeric) (hinput : input.isNaN = false)
    (h : (evaluate formulas e input ownId).failure = none) :
    Visit.Clean formulas ⟨{ input, ownId }, e, {}⟩ where
  numeric := he
  isNaN_input := hinput
  faithful _ _ hkept := nomatch hkept
  failure_after := by
    rw [evaluate_eq_of_run rfl] at h
    exact (Progress.failure_conclude_eq_none_iff.mp h).1

/-- The literals of texts are numbers. Where those of a tree are, and the input is one, an
evaluation that succeeds comes to numbers at all nodes, in the bodies of calls as well, and a walk
that comes to something else is on record as failed. -/
theorem evaluate_numbers :
    (∀ text, (parseText text).Numeric) ∧
    ∀ (formulas : Formulas) (e : Expr), e.Numeric →
      (∀ (input : Float) (ownId : Option FunctionId), input.isNaN = false →
        (evaluate formulas e input ownId).failure = none →
        ∀ visit, Visit.Makes formulas ⟨{ input, ownId }, e, {}⟩ visit →
          (visit.value formulas).isNaN = false) ∧
      ∀ context : Context, context.input.isNaN = false → context.references = [] →
        (context.evalNode formulas e).1.isNaN = true →
        (context.evalNode formulas e).2.failure.isSome = true := by
  refine ⟨numeric_parseText, fun formulas e he => ⟨?_, ?_⟩⟩
  · intro input ownId hinput hsuccess visit hvisit
    exact ((clean_of_evaluate he hinput hsuccess).run hvisit).isNaN_value
  · intro context hinput hreferences hnan
    cases hfailure : (context.evalNode formulas e).2.failure with
    | some cause => rfl
    | none =>
      obtain ⟨-, hyields⟩ := yields_of_walk (Context.faithful_of_nil hreferences) hfailure
      exact absurd hnan (Bool.eq_false_iff.mp (hyields.isNaN he hinput))

/-- The body of `f0` is visited from that of `f1`, with the value of an argument for its input. The
difference of two infinities is on record. -/
theorem evaluate_numbers_nested :
    let formulas : Formulas := .ofPairs [(0, "x*x + 1"), (1, "f0(x)/2 + |f0(1)|")]
    let e := parseText "2 f1(f0(x))"
    let visit : Visit := ⟨{ input := 10, ownId := some 0, depth := 2 }, parseText "x*x + 1", {}⟩
    e.Numeric ∧ Float.isNaN 3 = false ∧ (evaluate formulas e 3 none).failure = none ∧
      Visit.Makes formulas ⟨{ input := 3 }, e, {}⟩ visit ∧
      (visit.value formulas).isNaN = false ∧
      (let context := Context.start (1 / 0) none
      let difference := parseText "x - x"
      difference.Numeric ∧ context.input.isNaN = false ∧ context.references = [] ∧
        (context.evalNode formulas difference).1.isNaN = true ∧
        (context.evalNode formulas difference).2.failure.isSome = true) := by
  intro formulas e visit
  have he := numeric_parseText "2 f1(f0(x))"
  have hinput : Float.isNaN 3 = false := by decide +kernel
  have hsuccess : (evaluate formulas e 3 none).failure = none := by decide +kernel
  -- The right factor, the body of `f1`, its left side, the call in there, and the body of `f0`.
  let body : Frame := { input := 10, ownId := some 1, depth := 1 }
  let factor : Visit := ⟨{ input := 3 }, parseText "f1(f0(x))", {}⟩
  let outer : Visit := ⟨body, parseText "f0(x)/2 + |f0(1)|", {}⟩
  let left : Visit := ⟨body, parseText "f0(x)/2", {}⟩
  let call : Visit := ⟨body, parseText "f0(x)", {}⟩
  have hvisit : Visit.Makes formulas ⟨{ input := 3 }, e, {}⟩ visit :=
    .head (b := factor) (by decide +kernel) <| .head (b := outer) (by decide +kernel) <|
      .head (b := left) (by decide +kernel) <| .head (b := call) (by decide +kernel) <|
      .single (by decide +kernel)
  obtain ⟨hnumbers, -⟩ := evaluate_numbers.2 formulas e he
  refine ⟨he, hinput, hsuccess, hvisit, hnumbers 3 none hinput hsuccess visit hvisit, ?_⟩
  intro context difference
  have hdifference := numeric_parseText "x - x"
  have hstart : context.input.isNaN = false := by decide +kernel
  have hnan : (context.evalNode formulas difference).1.isNaN = true := by decide +kernel
  obtain ⟨-, hflagged⟩ := evaluate_numbers.2 formulas difference hdifference
  exact ⟨hdifference, hstart, rfl, hnan, hflagged context hstart rfl hnan⟩

end Formulary
