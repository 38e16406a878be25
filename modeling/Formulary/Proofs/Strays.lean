import Formulary.Proofs.Failures
import Formulary.Proofs.References
import Formulary.Proofs.Schedules
import Formulary.Proofs.Separators

/-!
# Letters of the other axis

A formula is written in the letter of its axis. Where it has the letter of the other one, anywhere
and in either case (`Entry.IsMixed`), the text that is filed for it has a `y`, and this letter
stands alone and belongs to no formula. So the text is never read, whatever is around the letter.

* `Entry.IsMixed.invalid_mem_tokenize` : the text that is filed cannot be read.
* `Entry.IsMixed.sampleEntry_eq` : the curve of such an entry has no values.
* `Registry.body_of_mixed` : nor is there a tree to refer to.
* `evaluate_call_of_mixed` : what becomes of it, and of the formulas that refer to it.
-/

namespace Formulary

/-! ## The text that is filed -/

/-- The letters of the other axis. -/
def Axis.foreignLetters : Axis → List Char
  | x => ['y', 'Y']
  | y => ['x', 'X']

/-- The formula has a letter of the other axis. -/
def Entry.IsMixed (entry : Entry) : Prop :=
  ∃ c ∈ entry.formula.toList, c ∈ entry.axis.foreignLetters

/-- The letter `y` is of no formula, in the midst of any text. -/
theorem invalid_mem_tokenize_of_mem {text : String} {c : Char} (hmem : c ∈ text.toList)
    (hc : c ∈ ['y', 'Y']) : .invalid ∈ tokenize text := by
  have hlower : Text.lowerChar c = ['y'] := by
    rcases List.mem_pair.mp hc with rfl | rfl <;> decide +kernel
  have htoken : (lexeme 'y' []).1.toList = [.invalid] := by decide +kernel
  obtain ⟨before, after, hsplit⟩ := List.append_of_mem hmem
  rw [tokenize_eq_flatMap, hsplit, List.flatMap_append, List.flatMap_cons, hlower,
    List.singleton_append, lexemeTokens_append_cons (by decide), htoken]
  simp

namespace Entry

variable {entry : Entry}

theorem IsMixed.invalid_mem_tokenize (h : entry.IsMixed) :
    .invalid ∈ tokenize entry.canonicalFormula := by
  obtain ⟨id, formula, axis⟩ := entry
  obtain ⟨c, hmem, hc⟩ := h
  cases axis with
  | x => exact invalid_mem_tokenize_of_mem hmem hc
  | y =>
    have hswap : swapLetter c ∈ ['y', 'Y'] := by
      rcases List.mem_pair.mp hc with rfl | rfl <;> decide
    refine invalid_mem_tokenize_of_mem ?_ hswap
    simpa [canonicalFormula, swapLetters] using ⟨c, hmem, rfl⟩

theorem IsMixed.parseText_eq (h : entry.IsMixed) : parseText entry.canonicalFormula = .broken := by
  rw [parseText, parse_of_invalid h.invalid_mem_tokenize]

/-- The curve has its samples, and no value. -/
theorem IsMixed.sampleEntry_eq (h : entry.IsMixed) (config : SamplingConfig)
    (formulas : Formulas) (range : SampleRange) :
    sampleEntry config formulas entry range =
      { function := some entry.id
        axis := entry.axis
        samples := (List.range config.samples).map fun i => ⟨range.inputAt i config.samples, none⟩
        usedRounding := false
        broken := true } := by
  rw [sampleEntry, h.parseText_eq, sampleExpr, SamplingTask.curve, if_pos rfl]
  rfl

end Entry

/-! ## References to it -/

namespace Registry

variable {registry : Registry} {entry : Entry}

/-- Where the numbers differ, an entry is looked up by its own. -/
theorem get?_of_mem (hids : (registry.entries.map Entry.id).Nodup)
    (hentry : entry ∈ registry.entries) : registry.get? entry.id = some entry := by
  cases hget : registry.get? entry.id with
  | none => exact absurd rfl (get?_eq_none_iff.mp hget entry hentry)
  | some found =>
    exact congrArg some (List.inj_on_of_nodup_map hids (mem_of_get? hget) hentry (id_of_get? hget))

theorem body_of_mixed (hids : (registry.entries.map Entry.id).Nodup)
    (hentry : entry ∈ registry.entries) (hmixed : entry.IsMixed) :
    registry.formula.body entry.id = .error (.brokenReference entry.id) := by
  have hfiled : registry.formula entry.id = some entry.canonicalFormula := by
    rw [formula, get?_of_mem hids hentry, Option.map_some]
  rw [Formulas.body_of_some hfiled, if_pos (containsInvalid_iff.mpr hmixed.invalid_mem_tokenize)]

end Registry

/-- A formula with the letter of the other axis is never read. Its own curve has no values, and
every formula with a call of it fails, for that reason where the walk comes to the call with no
failure before it, and the call is not too deep and not of the formula itself. -/
theorem evaluate_call_of_mixed (registry : Registry) {entry : Entry}
    (hids : (registry.entries.map Entry.id).Nodup) (hentry : entry ∈ registry.entries)
    (hmixed : entry.IsMixed) :
    .invalid ∈ tokenize entry.canonicalFormula ∧
    (∀ (config : SamplingConfig) (range : SampleRange),
      let curve := sampleEntry config registry.formula entry range
      curve.broken = true ∧ curve.defined = 0) ∧
    ∀ (e : Expr) (input : Float) (ownId : Option FunctionId),
      (entry.id ∈ e.calls → (evaluate registry.formula e input ownId).failure.isSome) ∧
      ∀ (visit : Visit) (argument : Expr),
        Visit.Reaches registry.formula ⟨{ input, ownId }, e, {}⟩ visit →
        visit.tree = .call entry.id argument → visit.frame.depth ≤ maxCallDepth →
        visit.frame.ownId ≠ some entry.id →
        (evaluate registry.formula e input ownId).failure = some (.brokenReference entry.id) := by
  have hbody := Registry.body_of_mixed hids hentry hmixed
  refine ⟨hmixed.invalid_mem_tokenize, fun config range => ?_, fun e input ownId => ⟨?_, ?_⟩⟩
  · intro curve
    have hcurve := hmixed.sampleEntry_eq config registry.formula range
    refine ⟨congrArg Curve.broken hcurve, (congrArg Curve.defined hcurve).trans ?_⟩
    simp [Curve.defined, List.countP_map, Function.comp_def]
  · intro hcall
    rcases failure_evaluate_explained registry.formula e input ownId with
      ⟨hrefs, -⟩ | ⟨cause, -, hcause⟩
    · obtain ⟨-, -, body, hfound, -⟩ := hrefs.of_mem_calls hcall
      cases hbody.symm.trans hfound
    · rw [hcause]
      rfl
  · intro visit argument hreaches htree hdepth hown
    have hready := (Visit.ready_fresh _ _).run hreaches
    exact failure_evaluate_of_reaches hreaches
      (hready.failure?_of_body_error htree hdepth hown hbody)

/-- The walk of the first formula comes to the call in the body of `f2`, past that of `f0`. In the
second formula, the division fails before the call does. -/
theorem evaluate_call_of_mixed_nested :
    let entry : Entry := ⟨1, "cos(Xy)", .y⟩
    let registry : Registry := ⟨[⟨0, "x*x", .x⟩, entry, ⟨2, "2 f1(x)", .x⟩], 3⟩
    (registry.entries.map Entry.id).Nodup ∧ entry ∈ registry.entries ∧ entry.IsMixed ∧
      .invalid ∈ tokenize entry.canonicalFormula ∧
      (sampleEntry {} registry.formula entry ⟨0, 1⟩).broken = true ∧
      (evaluateText registry.formula "f0(3) + f2(x)" 5 none).failure = some (.brokenReference 1) ∧
      entry.id ∈ (parseText "1/0 + f1(x)").calls ∧
      (evaluateText registry.formula "1/0 + f1(x)" 5 none).failure.isSome = true := by
  intro entry registry
  have hids : (registry.entries.map Entry.id).Nodup := by decide
  have hentry : entry ∈ registry.entries := by decide
  have hmixed : entry.IsMixed := ⟨'X', by decide, by decide⟩
  have hcalls : entry.id ∈ (parseText "1/0 + f1(x)").calls := by decide +kernel
  obtain ⟨hinvalid, hcurve, hfails⟩ := evaluate_call_of_mixed registry hids hentry hmixed
  -- The right side, the body of `f2`, and the call in there.
  let square : Visit := ⟨{ input := 5 }, parseText "f0(3)", {}⟩
  let second : Visit := ⟨{ input := 5 }, parseText "f2(x)", square.after registry.formula⟩
  let body : Visit := ⟨{ input := 5, ownId := some 2, depth := 1 }, parseText "2 f1(x)", {}⟩
  let call : Visit := { body with tree := parseText "f1(x)" }
  have hreaches : Visit.Reaches registry.formula
      ⟨{ input := 5 }, parseText "f0(3) + f2(x)", {}⟩ call :=
    .head (b := second) (Visit.leads_of_getElem? 1 (by decide +kernel) (by decide +kernel)) <|
      .head (b := body) (Visit.leads_of_getElem? 1 (by decide +kernel) (by decide +kernel)) <|
        .single (Visit.leads_of_getElem? 1 (by decide +kernel) (by decide +kernel))
  refine ⟨hids, hentry, hmixed, hinvalid, (hcurve {} ⟨0, 1⟩).1, ?_, hcalls,
    (hfails (parseText "1/0 + f1(x)") 5 none).1 hcalls⟩
  exact (hfails (parseText "f0(3) + f2(x)") 5 none).2 call (.var .bound) hreaches
    (by decide +kernel) (by decide) (by decide)

end Formulary
