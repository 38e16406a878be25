import Mathlib.Data.List.Basic
import Mathlib.Logic.Equiv.Basic
import Formulary.Sampling

/-!
# Axes

The axis of a formula is a way to write it. The mirror image of an entry (`Entry.mirror`) is
against the other axis, and has the letters of the axes in each other's place, small letters and
capitals alike. It is filed as the same text in `x`, so whoever refers to the formula reads the
same (`Registry.formula_mirror`), whichever entries of a registry are mirrored. What tells the
two apart is the plane : the curve of the image is the transpose of the curve
(`Registry.getElem?_sampleAll_mirror`), with the same samples and the same segments, and with the
coordinates of its points exchanged.
-/

namespace Formulary

/-! ## Mirror images -/

/-- The other axis. -/
def Axis.other : Axis → Axis
  | x => y
  | y => x

/-- The letters of the axes, exchanged. -/
def letterSwap : Equiv.Perm Char :=
  (Equiv.swap 'x' 'y').trans (Equiv.swap 'X' 'Y')

/-- The entry against the other axis, with the letters exchanged. -/
def Entry.mirror (entry : Entry) : Entry where
  id := entry.id
  formula := String.ofList (entry.formula.toList.map letterSwap)
  axis := entry.axis.other

/-- The registry with the images of the entries at the chosen places. -/
def Registry.mirror (registry : Registry) (chosen : Nat → Bool) : Registry :=
  { registry with
    entries := registry.entries.mapIdx fun i entry => if chosen i then entry.mirror else entry }

theorem letterSwap_apply (c : Char) : letterSwap c = swapLetter c := by
  fun_cases swapLetter c with
  | case5 _ hx hX hy hY =>
    rw [letterSwap, Equiv.trans_apply, Equiv.swap_apply_of_ne_of_ne hx hy,
      Equiv.swap_apply_of_ne_of_ne hX hY]
  | _ => decide

namespace Entry

theorem formula_mirror (entry : Entry) : entry.mirror.formula = swapLetters entry.formula := by
  rw [mirror, swapLetters, List.map_congr_left fun c _ => letterSwap_apply c]

/-- An entry and its image are filed as the same text. -/
theorem canonicalFormula_mirror (entry : Entry) :
    entry.mirror.canonicalFormula = entry.canonicalFormula := by
  obtain ⟨id, formula, axis⟩ := entry
  cases axis with
  | x => exact (congrArg swapLetters (formula_mirror _)).trans (swapLetters_swapLetters formula)
  | y => exact formula_mirror _

end Entry

/-! ## What is filed -/

namespace Registry

variable (registry : Registry) (chosen : Nat → Bool)

/-- What an entry has in common with its image stays the same. -/
theorem map_entries_mirror {α : Type} {f : Entry → α} (h : ∀ entry, f entry.mirror = f entry) :
    (registry.mirror chosen).entries.map f = registry.entries.map f := by
  refine List.ext_getElem? fun i => ?_
  rw [mirror, List.getElem?_map, List.getElem?_mapIdx, List.getElem?_map, Option.map_map]
  congr 1
  funext entry
  rw [Function.comp_apply]
  split
  · exact h entry
  · rfl

/-- A formula is looked up by the number and the text in `x` of each entry. -/
theorem formula_eq_find? (id : FunctionId) :
    registry.formula id =
      ((registry.entries.map fun entry => (entry.id, entry.canonicalFormula)).find?
        (·.1 = id)).map Prod.snd := by
  rw [List.find?_map, Option.map_map]
  rfl

theorem formula_mirror : (registry.mirror chosen).formula = registry.formula := by
  funext id
  rw [formula_eq_find?, formula_eq_find?, map_entries_mirror registry chosen fun entry => by
    rw [entry.canonicalFormula_mirror, Entry.mirror]]

end Registry

/-! ## Curves -/

/-- The curve against the other axis. -/
def Curve.transpose (curve : Curve) : Curve :=
  { curve with axis := curve.axis.other }

theorem Sample.point?_other (axis : Axis) (sample : Sample) :
    sample.point? axis.other = (sample.point? axis).map Prod.swap := by
  rw [point?, point?, Option.map_map]
  cases axis <;> rfl

theorem Curve.points_transpose (curve : Curve) :
    curve.transpose.points = curve.points.map Prod.swap := by
  rw [points, points, List.map_filterMap]
  exact List.filterMap_congr fun sample _ => sample.point?_other curve.axis

/-- The axis has no bearing on the samples. -/
theorem SamplingTask.curve_other (task : SamplingTask) (axis : Axis) (jobs : List (List Nat)) :
    task.curve axis.other jobs = (task.curve axis jobs).transpose := by
  unfold curve
  split <;> rfl

theorem sampleEntry_mirror (config : SamplingConfig) (formulas : Formulas) (entry : Entry)
    (range : SampleRange) :
    sampleEntry config formulas entry.mirror range =
      (sampleEntry config formulas entry range).transpose := by
  rw [sampleEntry, entry.canonicalFormula_mirror]
  exact SamplingTask.curve_other _ _ _

/-- A curve is under the number of its entry, and against its axis. -/
theorem function_axis_sampleEntry (config : SamplingConfig) (formulas : Formulas) (entry : Entry)
    (range : SampleRange) :
    (sampleEntry config formulas entry range).function = some entry.id ∧
      (sampleEntry config formulas entry range).axis = entry.axis := by
  unfold sampleEntry sampleExpr SamplingTask.curve
  dsimp only
  split <;> exact ⟨rfl, rfl⟩

namespace Registry

/-- The curve of an entry is at the place of the entry. -/
theorem getElem?_sampleAll (registry : Registry) (config : SamplingConfig) (range : SampleRange)
    (i : Fin registry.entries.length) : (registry.sampleAll config range)[i]? =
      some (sampleEntry config registry.formula registry.entries[i] range) := by
  refine List.getElem?_map.trans ?_
  rw [List.getElem?_eq_getElem i.isLt]
  rfl

/-- The curves of a registry and those of its mirror image, place by place. -/
theorem getElem?_sampleAll_mirror (registry : Registry) (chosen : Nat → Bool)
    (config : SamplingConfig) (range : SampleRange) (i : Nat) :
    ((registry.mirror chosen).sampleAll config range)[i]? =
      (registry.sampleAll config range)[i]?.map fun curve =>
        if chosen i then curve.transpose else curve := by
  rw [sampleAll, sampleAll, formula_mirror, mirror, List.getElem?_map, List.getElem?_mapIdx,
    List.getElem?_map, Option.map_map, Option.map_map]
  congr 1
  funext entry
  rw [Function.comp_apply, Function.comp_apply]
  split
  · exact sampleEntry_mirror _ _ _ _
  · rfl

end Registry

/-- The two curves are the same except that the planes are each other's transpose. -/
structure Curve.Transposed (curve image : Curve) : Prop where
  function_eq : image.function = curve.function
  axis_eq : image.axis = curve.axis.other
  samples_eq : image.samples = curve.samples
  usedRounding_eq : image.usedRounding = curve.usedRounding
  broken_eq : image.broken = curve.broken
  segments_eq : ∀ tolerance, image.segments tolerance = curve.segments tolerance
  points_eq : image.points = curve.points.map Prod.swap

theorem Curve.transposed_transpose (curve : Curve) : curve.Transposed curve.transpose where
  function_eq := rfl
  axis_eq := rfl
  samples_eq := rfl
  usedRounding_eq := rfl
  broken_eq := rfl
  segments_eq _ := rfl
  points_eq := curve.points_transpose

/-- Whichever entries of a registry are replaced by their images, the formulas are the same, and
all evaluations come out the same. Each entry has its curve in either registry, at the place that
the entry has, and the two are the same, except that the curve of an image lies in the transposed
plane. -/
theorem mirror_formula_and_curves (registry : Registry) (chosen : Nat → Bool) :
    (registry.mirror chosen).entries.map Entry.id = registry.entries.map Entry.id ∧
    (∀ id, (registry.mirror chosen).formula id = registry.formula id) ∧
    (∀ (tree : Expr) (input : Float) (ownId : Option FunctionId),
      evaluate (registry.mirror chosen).formula tree input ownId =
        evaluate registry.formula tree input ownId) ∧
    ∀ (config : SamplingConfig) (range : SampleRange),
      let curves := registry.sampleAll config range
      let images := (registry.mirror chosen).sampleAll config range
      curves.length = registry.entries.length ∧ images.length = registry.entries.length ∧
      ∀ i : Fin registry.entries.length, ∃ curve image : Curve,
        curves[i]? = some curve ∧ images[i]? = some image ∧
        curve = sampleEntry config registry.formula registry.entries[i] range ∧
        curve.function = some registry.entries[i].id ∧ curve.axis = registry.entries[i].axis ∧
        if chosen i then curve.Transposed image else image = curve := by
  have hformula := registry.formula_mirror chosen
  refine ⟨registry.map_entries_mirror chosen fun _ => rfl, congrFun hformula,
    fun tree input ownId => by rw [hformula], fun config range => ?_⟩
  intro curves images
  refine ⟨List.length_map .., ?_, fun i => ?_⟩
  · exact (List.length_map ..).trans List.length_mapIdx
  let curve := sampleEntry config registry.formula registry.entries[i] range
  have hcurve : curves[i]? = some curve := registry.getElem?_sampleAll config range i
  have himage : images[i]? = some (if chosen i then curve.transpose else curve) :=
    (registry.getElem?_sampleAll_mirror chosen config range i).trans (congrArg _ hcurve)
  obtain ⟨hfunction, haxis⟩ :=
    function_axis_sampleEntry config registry.formula registry.entries[i] range
  refine ⟨curve, _, hcurve, himage, rfl, hfunction, haxis, ?_⟩
  by_cases hchosen : chosen i = true
  · rw [if_pos hchosen, if_pos hchosen]
    exact curve.transposed_transpose
  · rw [if_neg hchosen, if_neg hchosen]

end Formulary
