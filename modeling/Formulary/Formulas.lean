import Formulary.Parser

/-!
# Filed formulas

Formulas that others may refer to are filed under numbers, as texts in the input `x`. All that an
evaluation knows of a file is the text under each number (`Formulas`), and all it needs is the
tree of that text (`Formulas.body`).
-/

namespace Formulary

/-- The text that is filed under each number. -/
abbrev Formulas := FunctionId → Option String

namespace Formulas

/-- Nothing is filed. -/
def empty : Formulas := fun _ => none

/-- The same file, with `text` under the number `id`. -/
def file (formulas : Formulas) (id : FunctionId) (text : String) : Formulas :=
  fun other => if other = id then some text else formulas other

/-- These texts, filed in turn under their numbers. -/
def ofPairs (pairs : List (FunctionId × String)) : Formulas :=
  pairs.foldl (fun formulas (id, text) => formulas.file id text) empty

theorem file_of_ne (formulas : Formulas) {id other : FunctionId} (text : String) (h : other ≠ id) :
    formulas.file id text other = formulas other := if_neg h

/-- The tree of the formula filed under `id`, or why there is none. A text that cannot be read
as an expression has a tree too, the broken one. -/
def body (formulas : Formulas) (id : FunctionId) : Except EvalError Expr :=
  match formulas id with
  | none => .error (.unknownFunction id)
  | some text =>
    let tokens := tokenize text
    if containsInvalid tokens then .error (.brokenReference id) else .ok (parse tokens).1

theorem body_of_none {formulas : Formulas} {id : FunctionId} (h : formulas id = none) :
    formulas.body id = .error (.unknownFunction id) := by
  simp only [body, h]

theorem body_of_some {formulas : Formulas} {id : FunctionId} {text : String}
    (h : formulas id = some text) :
    formulas.body id =
      if containsInvalid (tokenize text) then .error (.brokenReference id)
      else .ok (parseText text) := by
  simp only [body, h]
  rfl

/-- The body of a formula depends on its own text only. -/
theorem body_congr {formulas others : Formulas} {id : FunctionId} (h : formulas id = others id) :
    formulas.body id = others.body id := by
  simp only [body, h]

end Formulas

end Formulary
