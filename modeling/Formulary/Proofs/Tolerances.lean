import Mathlib
import Formulary.Proofs.Segments

/-!
# Tighter tolerances

A tolerance that is no larger cuts a curve at the same places, and maybe at more of them. Neighbours
that are connected under the tighter one are connected under the looser one (`connectsTo_of_le`),
since floats that are no numbers aside, comparison is that of a linear order
(`compare_eq_standing`). So the runs under the tighter tolerance are those that each run under the
looser one falls into by itself, and the same goes for segments.

* `Curve.segments_eq_flatMap` : the tighter segments, as the `pieces` of the looser ones.
* `Segment.isPartOf_of_mem_pieces`, `Segment.exists_pieces_eq_cons` : where the pieces of a segment
  lie, and where the first of them starts.
* `segments_of_tighter` : the two lists of segments.
-/

namespace Formulary

/-! ## The order of floats -/

open Float.Model (UnpackedFloat)
open Float.Model.UnpackedFloat

/-- Where a float stands in the order of numbers : by its sign, then by its exponent, and then by
its mantissa. The two zeros stand in one place. -/
def standing? : UnpackedFloat → Option (ℤ ×ₗ ℤ ×ₗ ℤ)
  | .notANumber => none
  | .infinity .negative => some (toLex (-2, toLex (0, 0)))
  | .finite .negative mantissa exponent _ => some (toLex (-1, toLex (-exponent, -mantissa)))
  | .zero _ => some (toLex (0, toLex (0, 0)))
  | .finite .positive mantissa exponent _ => some (toLex (1, toLex (exponent, mantissa)))
  | .infinity .positive => some (toLex (2, toLex (0, 0)))

theorem compare_natCast (m n : ℕ) : compare (m : ℤ) (n : ℤ) = compare m n := by
  rw [← cmp_eq_compare, ← cmp_eq_compare, Int.natCast_strictMono.cmp_map_eq]

theorem compare_neg_neg (a b : ℤ) : compare (-a) (-b) = compare b a := by
  rw [← cmp_eq_compare, ← cmp_eq_compare]
  exact StrictAnti.cmp_map_eq (fun _ _ => Int.neg_lt_neg) a b

/-- Floats compare as they stand. -/
theorem compare_eq_standing (u v : UnpackedFloat) : u.compare v =
    (standing? u).bind fun a => (standing? v).map fun b => compare a b := by
  cases u with
  | notANumber => rfl
  | infinity s => cases s <;> rcases v with (_ | _) | _ | _ | ⟨_ | _⟩ <;> rfl
  | zero => rcases v with (_ | _) | _ | _ | ⟨_ | _⟩ <;> rfl
  | finite s m e hm =>
    cases v with
    | notANumber | zero => cases s <;> rfl
    | infinity t => cases s <;> cases t <;> rfl
    | finite t n f hn =>
      cases s <;> cases t
      case positive.positive =>
        change some ((compare e f).then (compare m n)) =
          some ((compare e f).then (compare (m : ℤ) n))
        rw [compare_natCast]
      case negative.negative =>
        change some ((compare e f).then (compare m n)).swap =
          some ((compare (-e) (-f)).then (compare (-(m : ℤ)) (-n)))
        rw [Ordering.swap_then, compare_neg_neg, compare_neg_neg, compare_natCast,
          Int.compare_swap, Nat.compare_swap]
      all_goals rfl

theorem float_lt_of_le_of_lt {x y z : Float} (hxy : x ≤ y) (hyz : y < z) : x < z := by
  change decide (x.toModel.unpack.le y.toModel.unpack = true) = true at hxy
  change decide (y.toModel.unpack.lt z.toModel.unpack = true) = true at hyz
  change decide (x.toModel.unpack.lt z.toModel.unpack = true) = true
  rw [decide_eq_true_eq] at hxy hyz ⊢
  rw [UnpackedFloat.le, Option.any_eq_true, compare_eq_standing] at hxy
  rw [UnpackedFloat.lt, beq_iff_eq, compare_eq_standing] at hyz ⊢
  obtain ⟨_, hxy, hle⟩ := hxy
  obtain ⟨a, ha, hxy⟩ := Option.bind_eq_some_iff.mp hxy
  obtain ⟨b, hb, rfl⟩ := Option.map_eq_some_iff.mp hxy
  obtain ⟨b', hb', hyz⟩ := Option.bind_eq_some_iff.mp hyz
  obtain ⟨c, hc, hlt⟩ := Option.map_eq_some_iff.mp hyz
  obtain rfl : b = b' := Option.some.inj (hb.symm.trans hb')
  rw [ha, hc]
  exact congrArg some (Std.TransCmp.lt_of_isLE_of_lt hle hlt)

/-! ## Runs within runs -/

section

variable {tight loose : Float}

theorem connectsTo_of_le (h : tight ≤ loose) {sample next : Sample}
    (hconnects : sample.connectsTo tight next = true) : sample.connectsTo loose next = true := by
  unfold Sample.connectsTo at hconnects ⊢
  split at hconnects
  · rw [Bool.not_eq_true', decide_eq_false_iff_not] at hconnects ⊢
    exact fun hapart => hconnects (float_lt_of_le_of_lt h hapart)
  · exact hconnects
  · exact hconnects

/-- The parts that a segment falls into by itself. -/
def Segment.pieces (tolerance : Float) (segment : Segment) : List Segment :=
  Segment.ofRuns segment.start (segment.samples.splitBy (·.connectsTo tolerance ·))

theorem ofRuns_append (start : Nat) (runs rest : List (List Sample)) :
    Segment.ofRuns start (runs ++ rest) =
      Segment.ofRuns start runs ++ Segment.ofRuns (start + runs.flatten.length) rest := by
  induction runs generalizing start with
  | nil => rfl
  | cons run runs ih =>
    rw [List.cons_append, Segment.ofRuns, Segment.ofRuns, ih, List.append_assoc,
      List.flatten_cons, List.length_append, Nat.add_assoc]

theorem eq_nil_of_values_of_none {run : List Sample}
    (hvalues : ∀ sample ∈ run, sample.output.isSome = true)
    (hnone : ∀ sample ∈ run, sample.output = none) : run = [] :=
  List.eq_nil_iff_forall_not_mem.mpr fun sample hsample => by
    simpa [hnone sample hsample] using hvalues sample hsample

/-- Runs without values are no segments. -/
theorem AreRuns.ofRuns_eq_nil {runs : List (List Sample)} (h : AreRuns tight runs) {start : Nat}
    (hnone : ∀ sample ∈ runs.flatten, sample.output = none) : Segment.ofRuns start runs = [] := by
  induction runs generalizing start with
  | nil => rfl
  | cons run rest ih =>
    rw [List.flatten_cons] at hnone
    rcases h.ofRuns_cases start with ⟨hrun, -⟩ | ⟨-, heq⟩
    · have hnil : run = [] := eq_nil_of_values_of_none hrun fun sample hsample =>
        hnone sample (List.mem_append_left _ hsample)
      exact absurd hnil (h.ne_nil run List.mem_cons_self)
    · rw [heq]
      exact ih h.tail fun sample hsample => hnone sample (List.mem_append_right _ hsample)

/-- Where a run ends under the looser tolerance, one ends under the tighter tolerance. -/
theorem AreRuns.splitBy_flatten_cons (hle : tight ≤ loose) {run : List Sample}
    {rest : List (List Sample)} (h : AreRuns loose (run :: rest)) :
    (run :: rest).flatten.splitBy (·.connectsTo tight ·) =
      run.splitBy (·.connectsTo tight ·) ++ rest.flatten.splitBy (·.connectsTo tight ·) := by
  rw [List.flatten_cons]
  refine List.splitBy_append fun last hlast next hnext => ?_
  cases rest with
  | nil => exact nomatch hnext
  | cons following others =>
    obtain ⟨hne, hne', hapart⟩ := (List.isChain_cons_cons.mp h.apart).1
    rw [List.flatten_cons, List.head?_append_of_ne_nil _ hne',
      List.head?_eq_some_head hne'] at hnext
    obtain rfl := Option.some.inj hnext
    rw [← List.getLast_of_mem_getLast? hlast]
    exact Bool.eq_false_iff.mpr fun hconnects =>
      Bool.eq_false_iff.mp hapart (connectsTo_of_le hle hconnects)

/-- Runs fall into segments under the tighter tolerance as each of them does by itself. -/
theorem AreRuns.ofRuns_splitBy (hle : tight ≤ loose) {runs : List (List Sample)}
    (h : AreRuns loose runs) (start : Nat) :
    Segment.ofRuns start (runs.flatten.splitBy (·.connectsTo tight ·)) =
      (Segment.ofRuns start runs).flatMap (·.pieces tight) := by
  induction runs generalizing start with
  | nil => rfl
  | cons run rest ih =>
    rw [h.splitBy_flatten_cons hle, ofRuns_append, List.flatten_splitBy, ih h.tail]
    rcases h.ofRuns_cases start with ⟨-, heq⟩ | ⟨hrun, heq⟩
    · rw [heq, List.flatMap_cons, Segment.pieces]
    · have hnil : Segment.ofRuns start (run.splitBy (·.connectsTo tight ·)) = [] := by
        refine (areRuns_splitBy tight run).ofRuns_eq_nil ?_
        rwa [List.flatten_splitBy]
      rw [heq, hnil, List.nil_append]

/-- The segments under a tighter tolerance are the pieces that the looser ones fall into. -/
theorem Curve.segments_eq_flatMap (curve : Curve) (hle : tight ≤ loose) :
    curve.segments tight = (curve.segments loose).flatMap (·.pieces tight) := by
  have hruns := (areRuns_splitBy loose curve.samples).ofRuns_splitBy hle 0
  rwa [List.flatten_splitBy, ← curve.segments_eq_ofRuns, ← curve.segments_eq_ofRuns] at hruns

end

/-! ## Pieces -/

/-- The segment is a part of the other one, at its place in there. -/
def Segment.IsPartOf (s t : Segment) : Prop :=
  ∃ before after, t.samples = before ++ s.samples ++ after ∧ s.start = t.start + before.length

section

variable {tolerance : Float}

/-- Each segment is where its run is. -/
theorem AreRuns.isPartOf {runs : List (List Sample)} (h : AreRuns tolerance runs) (start : Nat) :
    ∀ s ∈ Segment.ofRuns start runs, s.IsPartOf ⟨start, runs.flatten⟩ := by
  induction runs generalizing start with
  | nil => exact fun _ hs => nomatch hs
  | cons run rest ih =>
    intro s hs
    rcases h.mem_ofRuns_cons hs with ⟨rfl, -⟩ | hs
    · exact ⟨[], rest.flatten, rfl, rfl⟩
    · obtain ⟨before, after, hsamples, hstart⟩ := ih h.tail _ s hs
      refine ⟨run ++ before, after, ?_, ?_⟩
      · rw [List.flatten_cons, List.append_assoc, List.append_assoc, ← List.append_assoc before]
        exact congrArg (run ++ ·) hsamples
      · rw [hstart, List.length_append, Nat.add_assoc]

theorem Segment.isPartOf_of_mem_pieces {s t : Segment} (h : s ∈ t.pieces tolerance) :
    s.IsPartOf t := by
  have hpart := (areRuns_splitBy tolerance t.samples).isPartOf t.start s h
  rwa [List.flatten_splitBy] at hpart

/-- The first piece of a segment starts where the segment does. -/
theorem Segment.exists_pieces_eq_cons {t : Segment} (hne : t.samples ≠ [])
    (hvalues : ∀ sample ∈ t.samples, sample.output.isSome = true) :
    ∃ first rest, t.pieces tolerance = first :: rest ∧ first.start = t.start := by
  have hruns := areRuns_splitBy tolerance t.samples
  have hflatten := List.flatten_splitBy (·.connectsTo tolerance ·) t.samples
  rw [pieces]
  cases hsplit : t.samples.splitBy (·.connectsTo tolerance ·) with
  | nil => exact absurd (List.splitBy_eq_nil.mp hsplit) hne
  | cons run rest =>
    rw [hsplit] at hruns hflatten
    rcases hruns.ofRuns_cases t.start with ⟨-, heq⟩ | ⟨hnone, -⟩
    · exact ⟨_, _, heq, rfl⟩
    · have hnil : run = [] := eq_nil_of_values_of_none (fun sample hsample =>
        hvalues sample (hflatten ▸ List.mem_append_left _ hsample)) hnone
      exact absurd hnil (hruns.ne_nil run List.mem_cons_self)

end

/-! ## Segments within segments -/

/-- One of the segments ends before the other one starts. -/
def Segment.Apart (s t : Segment) : Prop :=
  s.stop ≤ t.start ∨ t.stop ≤ s.start

instance : Std.Symm Segment.Apart :=
  ⟨fun _ _ => Or.symm⟩

section

variable {curve : Curve} {tolerance : Float} {segments : List Segment} {s t t' : Segment}

theorem Curve.FallsInto.isSome_output (h : curve.FallsInto tolerance segments) (ht : t ∈ segments) :
    ∀ sample ∈ t.samples, sample.output.isSome = true := by
  intro sample hsample
  have hmem : sample ∈ segments.flatMap Segment.samples := List.mem_flatMap_of_mem ht hsample
  rw [h.flatMap_samples] at hmem
  exact (List.mem_filter.mp hmem).2

/-- No samples are part of two segments. -/
theorem Curve.FallsInto.eq_of_isPartOf (h : curve.FallsInto tolerance segments) (ht : t ∈ segments)
    (ht' : t' ∈ segments) (hne : s.samples ≠ []) (hs : s.IsPartOf t) (hs' : s.IsPartOf t') :
    t = t' := by
  have hapart : segments.Pairwise Segment.Apart := h.ordered.imp .inl
  by_contra hdiffer
  have hside := hapart.forall ht ht' hdiffer
  have hlength := List.length_pos_of_ne_nil hne
  obtain ⟨before, after, hsamples, hstart⟩ := hs
  obtain ⟨before', after', hsamples', hstart'⟩ := hs'
  -- The first sample would lie before the end of both of them.
  simp only [Segment.Apart, Segment.stop, hsamples, hsamples', List.length_append] at hside
  omega

theorem sublist_map_flatMap {α β : Type} {f : α → β} {g : α → List α} {l : List α}
    (h : ∀ a ∈ l, ∃ first rest, g a = first :: rest ∧ f first = f a) :
    (l.map f).Sublist ((l.flatMap g).map f) := by
  induction l with
  | nil => exact .slnil
  | cons a l ih =>
    obtain ⟨⟨first, rest, heq, hfirst⟩, hl⟩ := List.forall_mem_cons.mp h
    rw [List.flatMap_cons, heq, List.cons_append, List.map_cons, List.map_cons, hfirst,
      List.map_append]
    exact ((ih hl).trans (List.sublist_append_right ..)).cons_cons _

end

/-- Under a tighter tolerance, each segment is a part of one segment under the looser one, whose
segments still start where they do, so that there are no fewer of them. -/
theorem segments_of_tighter (curve : Curve) {tight loose : Float} (hle : tight ≤ loose) :
    (∀ s ∈ curve.segments tight, ∃! t, t ∈ curve.segments loose ∧ s.IsPartOf t) ∧
      ((curve.segments loose).map Segment.start).Sublist
        ((curve.segments tight).map Segment.start) ∧
      (curve.segments loose).length ≤ (curve.segments tight).length := by
  have htight := curve.fallsInto_segments tight
  have hloose := curve.fallsInto_segments loose
  have hstarts : ((curve.segments loose).map Segment.start).Sublist
      ((curve.segments tight).map Segment.start) := by
    rw [curve.segments_eq_flatMap hle]
    exact sublist_map_flatMap fun t ht =>
      Segment.exists_pieces_eq_cons (hloose.slice t ht).1 (hloose.isSome_output ht)
  refine ⟨fun s hs => ?_, hstarts, ?_⟩
  · have hne := (htight.slice s hs).1
    rw [curve.segments_eq_flatMap hle] at hs
    obtain ⟨t, ht, hpiece⟩ := List.mem_flatMap.mp hs
    have hpart := Segment.isPartOf_of_mem_pieces hpiece
    exact ⟨t, ⟨ht, hpart⟩, fun t' ⟨ht', hpart'⟩ =>
      hloose.eq_of_isPartOf ht' ht hne hpart' hpart⟩
  · simpa only [List.length_map] using hstarts.length_le

/-- A curve of two segments, the first of which falls into three. -/
theorem segments_of_tighter_steps :
    let sample (input : Float) (output : Option Float) : Sample := ⟨input, output⟩
    let curve : Curve :=
      { function := none, axis := .x, usedRounding := true, broken := false
        samples := [sample 0 (some 0), sample 1 (some 1), sample 2 (some 1), sample 3 (some 3),
          sample 4 none, sample 5 (some 9)] }
    let starts (tolerance : Float) := (curve.segments tolerance).map Segment.start
    (0.5 : Float) ≤ 5 ∧ starts 5 = [0, 5] ∧ starts 0.5 = [0, 1, 3, 5] ∧
      (starts 5).Sublist (starts 0.5) ∧
      (let part : Segment := ⟨1, [sample 1 (some 1), sample 2 (some 1)]⟩
      ∃! t, t ∈ curve.segments 5 ∧ part.IsPartOf t) := by
  intro sample curve starts
  have hle : (0.5 : Float) ≤ 5 := by decide
  obtain ⟨hparts, hstarts, -⟩ := segments_of_tighter curve hle
  exact ⟨hle, by decide +kernel, by decide +kernel, hstarts, hparts _ (by decide +kernel)⟩

end Formulary
