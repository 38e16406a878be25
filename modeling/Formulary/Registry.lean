import Formulary.Formulas

/-!
# The registry

A `Registry` holds the formulas of a plot in the order of their entry. Each has a number, by which
others refer to it, and an axis. A formula against the axis `y` is written in `y`, and it is filed
in `x` : the two letters trade places (`swapLetters`), so that an `x` that strays into it becomes
a `y`, which belongs to no formula (`Entry.canonicalFormula`).

Numbers are given out in rising order and never again. Every operation goes by the number of an
entry, and where numbers have been assigned by hand and two entries share one, the first of them
is meant, except that `remove?` takes out all.
-/

namespace Formulary

/-! ## Axes -/

/-- The axis of the input of a formula. -/
inductive Axis where
  /-- `y` is given by a formula in `x`. -/
  | x
  /-- `x` is given by a formula in `y`. -/
  | y
  deriving DecidableEq, Repr, Inhabited

/-- The letters of the two axes trade places. -/
def swapLetter : Char → Char
  | 'x' => 'y'
  | 'X' => 'Y'
  | 'y' => 'x'
  | 'Y' => 'X'
  | c => c

theorem swapLetter_swapLetter (c : Char) : swapLetter (swapLetter c) = c := by
  fun_cases swapLetter c <;> simp [swapLetter]

/-- The text with the letters of the two axes in each other's place. -/
def swapLetters (text : String) : String :=
  String.ofList (text.toList.map swapLetter)

theorem swapLetters_swapLetters (text : String) : swapLetters (swapLetters text) = text := by
  simp [swapLetters, Function.comp_def, swapLetter_swapLetter]

/-! ## Entries -/

/-- A formula of a registry. -/
structure Entry where
  id : FunctionId
  /-- The text, written in the letter of the axis. -/
  formula : String
  axis : Axis
  deriving DecidableEq, Repr

/-- The text of the formula, written in `x`. -/
def Entry.canonicalFormula (entry : Entry) : String :=
  match entry.axis with
  | .x => entry.formula
  | .y => swapLetters entry.formula

/-! ## Registries -/

/-- The formulas of a plot. -/
structure Registry where
  /-- In the order of their entry. -/
  entries : List Entry := []
  /-- The number of the next one. -/
  nextId : FunctionId := 0
  deriving DecidableEq, Repr

namespace Registry

/-- Enters a formula, and yields its number. -/
def push (registry : Registry) (formula : String) (axis : Axis) : FunctionId × Registry :=
  let id := registry.nextId
  (id, { entries := registry.entries ++ [⟨id, formula, axis⟩], nextId := id + 1 })

/-- The first entry with this number. -/
def get? (registry : Registry) (id : FunctionId) : Option Entry :=
  registry.entries.find? (·.id = id)

/-- What the registry files under each number. -/
def formula (registry : Registry) : Formulas :=
  fun id => (registry.get? id).map Entry.canonicalFormula

/-- Changes the first entry with this number, if there is one. -/
def modify? (registry : Registry) (id : FunctionId) (change : Entry → Entry) : Option Registry :=
  (registry.entries.findIdx? (·.id = id)).map fun i =>
    { registry with entries := registry.entries.modify i change }

/-- Gives the first entry with this number another text, if there is one. -/
def setFormula? (registry : Registry) (id : FunctionId) (formula : String) : Option Registry :=
  registry.modify? id ({ · with formula })

/-- Takes out all entries with this number, if there is one. -/
def remove? (registry : Registry) (id : FunctionId) : Option Registry :=
  if registry.entries.any (·.id = id) then
    some { registry with entries := registry.entries.filter (·.id ≠ id) }
  else none

theorem id_of_get? {registry : Registry} {id : FunctionId} {entry : Entry}
    (h : registry.get? id = some entry) : entry.id = id := by
  simpa using List.find?_some h

theorem mem_of_get? {registry : Registry} {id : FunctionId} {entry : Entry}
    (h : registry.get? id = some entry) : entry ∈ registry.entries :=
  List.mem_of_find?_eq_some h

theorem get?_eq_none_iff {registry : Registry} {id : FunctionId} :
    registry.get? id = none ↔ ∀ entry ∈ registry.entries, entry.id ≠ id := by
  simp [get?]

theorem modify?_isSome (registry : Registry) (id : FunctionId) (change : Entry → Entry) :
    (registry.modify? id change).isSome = (registry.get? id).isSome := by
  rw [Bool.eq_iff_iff]
  simp [modify?, get?]

end Registry

end Formulary
