import Formulary.Registry

/-!
# Curves

A `Curve` is a formula sampled at a list of inputs, some of which it may have no value for. It is
drawn as line segments (`Curve.segments`) : the samples fall into runs of neighbours that are
connected (`Sample.connectsTo`), and the runs with values are the segments. Two neighbours with
values are connected unless the values are further apart than a tolerance, and where that cannot
be told, because it is no number, they are connected as well.
-/

namespace Formulary

/-- A formula at an input. -/
structure Sample where
  input : Float
  /-- The value there, if there is one. -/
  output : Option Float
  deriving DecidableEq, Repr

/-- A formula sampled over a range of inputs. -/
structure Curve where
  /-- The number of the formula, if it is filed. -/
  function : Option FunctionId
  axis : Axis
  samples : List Sample
  /-- A rounding function was used for some sample. -/
  usedRounding : Bool
  /-- The text is no formula. -/
  broken : Bool
  deriving DecidableEq, Repr

/-- A connected part of a curve. -/
structure Segment where
  /-- The place of its first sample in the curve. -/
  start : Nat
  samples : List Sample
  deriving DecidableEq, Repr

namespace Sample

/-- The point of the plane, if the sample has a value. -/
def point? (axis : Axis) (sample : Sample) : Option (Float × Float) :=
  sample.output.map fun output =>
    match axis with
    | .x => (sample.input, output)
    | .y => (output, sample.input)

/-- The sample and the next one belong to the same run. -/
def connectsTo (tolerance : Float) (sample next : Sample) : Bool :=
  match sample.output, next.output with
  | some p, some q => !((q - p).abs > tolerance)
  | none, none => true
  | _, _ => false

/-- A run is with values throughout, or without any. -/
theorem isSome_eq_of_connectsTo {tolerance : Float} {sample next : Sample}
    (h : sample.connectsTo tolerance next = true) :
    sample.output.isSome = next.output.isSome := by
  unfold connectsTo at h
  split at h <;> simp_all

end Sample

/-- A run of samples with their places in the curve, as a segment if it has values. -/
def Segment.ofRun? : List (Sample × Nat) → Option Segment
  | [] => none
  | (sample, start) :: rest =>
    if sample.output.isSome then some ⟨start, sample :: rest.map Prod.fst⟩ else none

namespace Curve

/-- The number of samples with a value. -/
def defined (curve : Curve) : Nat :=
  curve.samples.countP (·.output.isSome)

/-- The points of the plane that the curve goes through. -/
def points (curve : Curve) : List (Float × Float) :=
  curve.samples.filterMap (·.point? curve.axis)

/-- The runs of connected samples, with their places in the curve. -/
def runs (curve : Curve) (tolerance : Float) : List (List (Sample × Nat)) :=
  curve.samples.zipIdx.splitBy fun (sample, _) (next, _) => sample.connectsTo tolerance next

/-- The connected parts of the curve. -/
def segments (curve : Curve) (tolerance : Float) : List Segment :=
  (curve.runs tolerance).filterMap Segment.ofRun?

end Curve

end Formulary
