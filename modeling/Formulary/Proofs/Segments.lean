import Mathlib
import Formulary.Curve

/-!
# Segments

The segments of a curve are what its samples fall into where it has values : each is a part of the
samples, they follow each other, and between two of them there is a jump or a gap
(`Curve.FallsInto`). Where runs are taken for what they are, lists of samples, `Segment.ofRuns`
puts them in their places, and each of these properties is one induction over the runs.

A `Sweep` comes to the same in one pass. It remembers where the open segment starts, looks back by
one sample, and closes the segment at a gap, at a jump, or at the end.

* `Curve.segments_eq_ofRuns` : the segments, by runs without places.
* `Curve.sweep_from` : what a sweep comes to from any sample on.
* `segments_maximal` : the segments of all curves, for all tolerances.
-/

namespace Formulary

/-! ## Neighbours -/

namespace Sample

/-- Both samples have a value, and the two are not found to be further apart than the tolerance. -/
def IsNear (tolerance : Float) (sample next : Sample) : Prop :=
  ∃ p q, sample.output = some p ∧ next.output = some q ∧ ¬(q - p).abs > tolerance

/-- Both samples have a value, and the two are further apart than the tolerance. -/
def JumpsTo (tolerance : Float) (sample next : Sample) : Prop :=
  ∃ p q, sample.output = some p ∧ next.output = some q ∧ (q - p).abs > tolerance

variable {tolerance : Float} {sample next : Sample}

theorem isNear_of_connectsTo (h : sample.connectsTo tolerance next = true)
    (hsample : sample.output.isSome = true) : sample.IsNear tolerance next := by
  have hnext := isSome_eq_of_connectsTo h ▸ hsample
  obtain ⟨p, hp⟩ := Option.isSome_iff_exists.mp hsample
  obtain ⟨q, hq⟩ := Option.isSome_iff_exists.mp hnext
  refine ⟨p, q, hp, hq, ?_⟩
  simpa only [connectsTo, hp, hq, Bool.not_eq_true', decide_eq_false_iff_not] using h

theorem jumpsTo_of_connectsTo (h : sample.connectsTo tolerance next = false)
    (hsample : sample.output.isSome = true) (hnext : next.output.isSome = true) :
    sample.JumpsTo tolerance next := by
  obtain ⟨p, hp⟩ := Option.isSome_iff_exists.mp hsample
  obtain ⟨q, hq⟩ := Option.isSome_iff_exists.mp hnext
  refine ⟨p, q, hp, hq, ?_⟩
  simpa only [connectsTo, hp, hq, Bool.not_eq_false', decide_eq_true_eq] using h

/-- A run is with values throughout, or without any, as it begins. -/
theorem isSome_eq_of_isChain {rest : List Sample}
    (h : (sample :: rest).IsChain fun p q => p.connectsTo tolerance q) :
    ∀ other ∈ sample :: rest, other.output.isSome = sample.output.isSome := by
  induction rest generalizing sample with
  | nil =>
    intro other hother
    rw [List.mem_singleton.mp hother]
  | cons second rest ih =>
    obtain ⟨hfirst, hrest⟩ := List.isChain_cons_cons.mp h
    intro other hother
    rcases List.mem_cons.mp hother with rfl | hother
    · rfl
    · rw [ih hrest other hother, isSome_eq_of_connectsTo hfirst]

end Sample

/-! ## Runs in their places -/

/-- The place after the last sample. -/
def Segment.stop (segment : Segment) : Nat :=
  segment.start + segment.samples.length

/-- The runs with values, as segments, where the first run starts at the place `start`. -/
def Segment.ofRuns (start : Nat) : List (List Sample) → List Segment
  | [] => []
  | run :: rest =>
    (Segment.ofRun? (run.zipIdx start)).toList ++ Segment.ofRuns (start + run.length) rest

/-- Runs that are connected, each of them up to its end. -/
structure AreRuns (tolerance : Float) (runs : List (List Sample)) : Prop where
  ne_nil : ∀ run ∈ runs, run ≠ []
  connected : ∀ run ∈ runs, run.IsChain fun p q => p.connectsTo tolerance q
  apart : runs.IsChain fun run next =>
    ∃ h h', (run.getLast h).connectsTo tolerance (next.head h') = false

theorem areRuns_splitBy (tolerance : Float) (samples : List Sample) :
    AreRuns tolerance (samples.splitBy (·.connectsTo tolerance ·)) where
  ne_nil _ := List.ne_nil_of_mem_splitBy
  connected _ := List.isChain_of_mem_splitBy
  apart := List.isChain_getLast_head_splitBy _ samples

namespace AreRuns

variable {tolerance : Float} {run : List Sample} {runs rest : List (List Sample)} {start : Nat}

theorem tail (h : AreRuns tolerance (run :: rest)) : AreRuns tolerance rest where
  ne_nil other hother := h.ne_nil other (List.mem_cons_of_mem run hother)
  connected other hother := h.connected other (List.mem_cons_of_mem run hother)
  apart := h.apart.tail

/-- A run is a segment with values throughout, or it is none and has no value anywhere. -/
theorem ofRuns_cases (h : AreRuns tolerance (run :: rest)) (start : Nat) :
    ((∀ sample ∈ run, sample.output.isSome = true) ∧
      Segment.ofRuns start (run :: rest) =
        ⟨start, run⟩ :: Segment.ofRuns (start + run.length) rest) ∨
    ((∀ sample ∈ run, sample.output = none) ∧
      Segment.ofRuns start (run :: rest) = Segment.ofRuns (start + run.length) rest) := by
  have hchain := h.connected run List.mem_cons_self
  match run, h.ne_nil run List.mem_cons_self with
  | first :: others, _ =>
    have hall := Sample.isSome_eq_of_isChain hchain
    cases hfirst : first.output.isSome with
    | true =>
      refine .inl ⟨fun sample hsample => (hall sample hsample).trans hfirst, ?_⟩
      simp [Segment.ofRuns, List.zipIdx_cons, Segment.ofRun?, hfirst]
    | false =>
      refine .inr ⟨fun sample hsample => Option.not_isSome_iff_eq_none.mp ?_, ?_⟩
      · rw [hall sample hsample, hfirst]
        exact Bool.false_ne_true
      · simp [Segment.ofRuns, List.zipIdx_cons, Segment.ofRun?, hfirst]

theorem mem_ofRuns_cons (h : AreRuns tolerance (run :: rest)) {s : Segment}
    (hs : s ∈ Segment.ofRuns start (run :: rest)) :
    (s = ⟨start, run⟩ ∧ ∀ sample ∈ run, sample.output.isSome = true) ∨
      s ∈ Segment.ofRuns (start + run.length) rest := by
  rcases h.ofRuns_cases start with ⟨hrun, heq⟩ | ⟨-, heq⟩
  · rw [heq] at hs
    exact (List.mem_cons.mp hs).imp_left fun hfirst => ⟨hfirst, hrun⟩
  · exact .inr (heq ▸ hs)

theorem le_start (h : AreRuns tolerance runs) :
    ∀ s ∈ Segment.ofRuns start runs, start ≤ s.start := by
  induction runs generalizing start with
  | nil => exact fun _ hs => nomatch hs
  | cons run rest ih =>
    intro s hs
    rcases h.mem_ofRuns_cons hs with ⟨rfl, -⟩ | hs
    · exact Nat.le_refl start
    · exact Nat.le_trans (Nat.le_add_right ..) (ih h.tail s hs)

/-- A segment is the part of the samples from its start on. -/
theorem slice (h : AreRuns tolerance runs) (before : List Sample) :
    ∀ s ∈ Segment.ofRuns before.length runs, s.samples ≠ [] ∧
      s.samples = (before ++ runs.flatten).extract s.start s.stop := by
  induction runs generalizing before with
  | nil => exact fun _ hs => nomatch hs
  | cons run rest ih =>
    intro s hs
    rcases h.mem_ofRuns_cons hs with ⟨rfl, -⟩ | hs
    · refine ⟨h.ne_nil run List.mem_cons_self, ?_⟩
      simp [Segment.stop, List.extract_eq_take_drop]
    · rw [← List.length_append] at hs
      have hrest := ih h.tail (before ++ run) s hs
      rwa [List.append_assoc, ← List.flatten_cons] at hrest

theorem isNear (h : AreRuns tolerance runs) : ∀ s ∈ Segment.ofRuns start runs,
    s.samples.IsChain (Sample.IsNear tolerance) := by
  induction runs generalizing start with
  | nil => exact fun _ hs => nomatch hs
  | cons run rest ih =>
    intro s hs
    rcases h.mem_ofRuns_cons hs with ⟨rfl, hrun⟩ | hs
    · exact (h.connected run List.mem_cons_self).imp_of_mem_imp fun p q hp _ hpq =>
        Sample.isNear_of_connectsTo hpq (hrun p hp)
    · exact ih h.tail s hs

theorem ordered (h : AreRuns tolerance runs) :
    (Segment.ofRuns start runs).Pairwise fun s t => s.stop ≤ t.start := by
  induction runs generalizing start with
  | nil => exact .nil
  | cons run rest ih =>
    rcases h.ofRuns_cases start with ⟨-, heq⟩ | ⟨-, heq⟩
    · rw [heq]
      exact .cons h.tail.le_start (ih h.tail)
    · rw [heq]
      exact ih h.tail

/-- Together, the segments hold the samples with values. -/
theorem flatMap_ofRuns (h : AreRuns tolerance runs) :
    (Segment.ofRuns start runs).flatMap Segment.samples =
      runs.flatten.filter (·.output.isSome) := by
  induction runs generalizing start with
  | nil => rfl
  | cons run rest ih =>
    rw [List.flatten_cons, List.filter_append]
    rcases h.ofRuns_cases start with ⟨hrun, heq⟩ | ⟨hrun, heq⟩
    · rw [heq, List.flatMap_cons, ih h.tail, List.filter_eq_self.mpr hrun]
    · have hnone : run.filter (·.output.isSome) = [] :=
        List.filter_eq_nil_iff.mpr fun sample hsample => by simp [hrun sample hsample]
      rw [heq, ih h.tail, hnone, List.nil_append]

end AreRuns

theorem getElem?_append_getLast {α : Type} (before : List α) {run : List α} (h : run ≠ [])
    (after : List α) :
    (before ++ (run ++ after))[before.length + run.length - 1]? = some (run.getLast h) := by
  obtain ⟨init, last, rfl⟩ := (List.eq_nil_or_concat run).resolve_left h
  simp

theorem getElem?_append_head {α : Type} (before : List α) {run : List α} (h : run ≠ [])
    (after : List α) : (before ++ (run ++ after))[before.length]? = some (run.head h) := by
  obtain ⟨first, rest, rfl⟩ := List.exists_cons_of_ne_nil h
  simp

/-- What is between two segments that follow each other : a jump, or samples without values. -/
inductive Segment.IsCutFrom (tolerance : Float) (samples : List Sample) (s t : Segment) : Prop where
  | jump (p q : Sample) (hstop : s.stop = t.start) (hp : samples[s.stop - 1]? = some p)
    (hq : samples[s.stop]? = some q) (h : p.JumpsTo tolerance q)
  | gap (i : Nat) (p : Sample) (hstop : s.stop ≤ i) (hstart : i < t.start)
    (hp : samples[i]? = some p) (h : p.output = none)

theorem AreRuns.isCutFrom {tolerance : Float} {runs : List (List Sample)}
    (h : AreRuns tolerance runs) (before : List Sample) :
    (Segment.ofRuns before.length runs).IsChain
      (Segment.IsCutFrom tolerance (before ++ runs.flatten)) := by
  induction runs generalizing before with
  | nil => exact .nil
  | cons run rest ih =>
    have hrest := ih h.tail (before ++ run)
    rw [List.append_assoc, ← List.flatten_cons, List.length_append] at hrest
    rcases h.ofRuns_cases before.length with ⟨hrun, heq⟩ | ⟨-, heq⟩
    swap
    · rw [heq]
      exact hrest
    rw [heq]
    refine hrest.cons fun t ht => ?_
    -- The next run tells : it is the next segment after a jump, or a gap.
    cases rest with
    | nil => cases ht
    | cons next others =>
      obtain ⟨hne, hne', hapart⟩ := (List.isChain_cons_cons.mp h.apart).1
      have hlast := getElem?_append_getLast before hne (next :: others).flatten
      have hhead := getElem?_append_head (before ++ run) hne' others.flatten
      rw [List.length_append, List.append_assoc] at hhead
      rcases h.tail.ofRuns_cases (before.length + run.length) with ⟨hnext, heq'⟩ | ⟨hnext, heq'⟩
      · rw [heq'] at ht
        obtain rfl := Option.some.inj ht
        exact .jump _ _ rfl hlast hhead (Sample.jumpsTo_of_connectsTo hapart
          (hrun _ (List.getLast_mem hne)) (hnext _ (List.head_mem hne')))
      · rw [heq'] at ht
        have hle := h.tail.tail.le_start t (List.mem_of_mem_head? ht)
        have hlt : before.length + run.length < t.start :=
          Nat.lt_of_lt_of_le (Nat.lt_add_of_pos_right (List.length_pos_of_ne_nil hne')) hle
        exact .gap _ _ (Nat.le_refl _) hlt hhead (hnext _ (List.head_mem hne'))

/-! ## Segments of curves -/

/-- The runs of places and samples, without the places. -/
theorem ofRuns_eq {runs : List (List (Sample × Nat))} {samples : List Sample} {start : Nat}
    (h : runs.flatten = samples.zipIdx start) :
    runs.filterMap Segment.ofRun? = Segment.ofRuns start (runs.map (·.map Prod.fst)) := by
  induction runs generalizing samples start with
  | nil => rfl
  | cons run rest ih =>
    rw [List.flatten_cons, eq_comm, List.zipIdx_eq_append_iff] at h
    obtain ⟨now, later, -, rfl, hrest⟩ := h
    rw [List.map_cons, Segment.ofRuns, List.zipIdx_map_fst, ← ih hrest]
    cases hrun : Segment.ofRun? (now.zipIdx start) with
    | none => rw [List.filterMap_cons_none hrun]; rfl
    | some segment => rw [List.filterMap_cons_some hrun]; rfl

namespace Curve

variable (curve : Curve) (tolerance : Float)

theorem map_runs : (curve.runs tolerance).map (·.map Prod.fst) =
    curve.samples.splitBy (·.connectsTo tolerance ·) := by
  refine (List.splitBy_eq_iff.mpr ⟨?_, ?_, ?_, ?_⟩).symm
  · rw [← List.map_flatten, runs, List.flatten_splitBy, List.zipIdx_map_fst]
  · intro hnil
    obtain ⟨run, hrun, hempty⟩ := List.mem_map.mp hnil
    exact List.ne_nil_of_mem_splitBy hrun (List.map_eq_nil_iff.mp hempty)
  · intro plain hplain
    obtain ⟨run, hrun, rfl⟩ := List.mem_map.mp hplain
    exact (List.isChain_map Prod.fst).mpr (List.isChain_of_mem_splitBy hrun)
  · refine (List.isChain_map _).mpr ((List.isChain_getLast_head_splitBy _ _).imp ?_)
    rintro run next ⟨hne, hne', hapart⟩
    refine ⟨mt List.map_eq_nil_iff.mp hne, mt List.map_eq_nil_iff.mp hne', ?_⟩
    rw [List.getLast_map, List.head_map]
    exact hapart

/-- The segments are the runs of the samples, in their places. -/
theorem segments_eq_ofRuns : curve.segments tolerance =
    Segment.ofRuns 0 (curve.samples.splitBy (·.connectsTo tolerance ·)) := by
  rw [← map_runs, segments]
  exact ofRuns_eq (List.flatten_splitBy _ _)

end Curve

/-- The curve falls into these segments, which are its samples with values, and there is a jump or a
gap between any two of them. -/
structure Curve.FallsInto (curve : Curve) (tolerance : Float) (segments : List Segment) : Prop where
  slice : ∀ s ∈ segments, s.samples ≠ [] ∧ s.samples = curve.samples.extract s.start s.stop
  ordered : segments.Pairwise fun s t => s.stop ≤ t.start
  flatMap_samples : segments.flatMap Segment.samples = curve.samples.filter (·.output.isSome)
  isNear : ∀ s ∈ segments, s.samples.IsChain (Sample.IsNear tolerance)
  isCutFrom : segments.IsChain (Segment.IsCutFrom tolerance curve.samples)

theorem Curve.fallsInto_segments (curve : Curve) (tolerance : Float) :
    curve.FallsInto tolerance (curve.segments tolerance) := by
  have hruns := areRuns_splitBy tolerance curve.samples
  have hflatten := List.flatten_splitBy (·.connectsTo tolerance ·) curve.samples
  rw [segments_eq_ofRuns]
  refine ⟨?_, hruns.ordered, ?_, hruns.isNear, ?_⟩
  · have hslice := hruns.slice []
    rwa [hflatten] at hslice
  · rw [hruns.flatMap_ofRuns, hflatten]
  · have hcut := hruns.isCutFrom []
    rwa [hflatten] at hcut

/-- The samples with a value, as pairs of an input and an output. -/
theorem filter_isSome_eq_map (samples : List Sample) :
    samples.filter (·.output.isSome) = (samples.filterMap (·.point? .x)).map
      fun (input, output) => ⟨input, some output⟩ := by
  rw [List.map_filterMap, ← List.filterMap_eq_filter]
  refine List.filterMap_congr fun sample _ => ?_
  obtain ⟨input, _ | output⟩ := sample <;> rfl

/-- Against the other axis, the pairs of a point are in the other order. -/
theorem filterMap_point?_y (samples : List Sample) :
    samples.filterMap (·.point? .y) = (samples.filterMap (·.point? .x)).map
      fun (input, output) => (output, input) := by
  rw [List.map_filterMap]
  refine List.filterMap_congr fun sample _ => ?_
  obtain ⟨input, _ | output⟩ := sample <;> rfl

/-! ## Sweeps -/

/-- How far a sweep over the samples has come : the segments that are closed, and the place where
the open one starts. -/
structure Sweep where
  closed : List Segment := []
  start : Option Nat := none

namespace Curve

/-- The samples between two places. -/
def slice (curve : Curve) (start stop : Nat) : Segment :=
  ⟨start, curve.samples.extract start stop⟩

/-- The sweep comes past the next sample. -/
def sweepStep (curve : Curve) (tolerance : Float) (sweep : Sweep) : Sample × Nat → Sweep
  | (sample, i) =>
    match sample.output, sweep.start with
    | none, none => sweep
    | none, some start => ⟨sweep.closed ++ [curve.slice start i], none⟩
    | some _, none => { sweep with start := some i }
    | some output, some start =>
      let previous? := curve.samples[i - 1]?.bind (·.output)
      if previous?.any fun previous => (output - previous).abs > tolerance then
        ⟨sweep.closed ++ [curve.slice start i], some i⟩
      else sweep

/-- The sweep is at the end, where the open segment is closed. -/
def endSweep (curve : Curve) (sweep : Sweep) : List Segment :=
  sweep.closed ++ (sweep.start.map fun start => curve.slice start curve.samples.length).toList

/-- The connected parts of the curve, found in one pass. -/
def sweep (curve : Curve) (tolerance : Float) : List Segment :=
  curve.endSweep (curve.samples.zipIdx.foldl (curve.sweepStep tolerance) {})

end Curve

/-- Where the open segment starts, in a run that starts at a place : there, if it has values. -/
def Sweep.openStart (start : Nat) (run : List Sample) : Option Nat :=
  if (run.head?.bind (·.output)).isSome then some start else none

section

variable {curve : Curve} {tolerance : Float} {before run rest : List Sample}

/-- Closing the open segment of a run makes it the segment of the run. -/
theorem map_slice_openStart (h : curve.samples = before ++ (run ++ rest)) :
    (Sweep.openStart before.length run).map
        (fun start => curve.slice start (before.length + run.length)) =
      Segment.ofRun? (run.zipIdx before.length) := by
  cases run with
  | nil => rfl
  | cons first others =>
    have hslice : curve.slice before.length (before.length + (first :: others).length) =
        ⟨before.length, first :: others⟩ := by
      simp [Curve.slice, h, List.extract_eq_take_drop]
    rw [List.zipIdx_cons, Segment.ofRun?, List.zipIdx_map_fst, Sweep.openStart]
    cases houtput : first.output with
    | none => simp [houtput]
    | some output => simp [houtput, ← hslice]

theorem sweepStep_of_nil (closed : List Segment) (start : Nat) (sample : Sample) (i : Nat) :
    curve.sweepStep tolerance ⟨closed, Sweep.openStart start []⟩ (sample, i) =
      ⟨closed, Sweep.openStart i [sample]⟩ := by
  cases houtput : sample.output <;> simp [Curve.sweepStep, Sweep.openStart, houtput]

/-- The next sample continues a run, or the run comes to its end there. -/
theorem sweepStep_of_run {sample : Sample} (h : curve.samples = before ++ (run ++ sample :: rest))
    (hne : run ≠ []) (hchain : run.IsChain fun p q => p.connectsTo tolerance q)
    (closed : List Segment) :
    curve.sweepStep tolerance ⟨closed, Sweep.openStart before.length run⟩
        (sample, before.length + run.length) =
      if (run.getLast hne).connectsTo tolerance sample then
        ⟨closed, Sweep.openStart before.length run⟩
      else ⟨closed ++ (Segment.ofRun? (run.zipIdx before.length)).toList,
        Sweep.openStart (before.length + run.length) [sample]⟩ := by
  have hprevious : curve.samples[before.length + run.length - 1]? = some (run.getLast hne) := by
    rw [h]
    exact getElem?_append_getLast before hne _
  have hstart : Sweep.openStart before.length run =
      if (run.getLast hne).output.isSome then some before.length else none := by
    obtain ⟨first, others, rfl⟩ := List.exists_cons_of_ne_nil hne
    rw [Sample.isSome_eq_of_isChain hchain _ (List.getLast_mem hne)]
    rfl
  rw [← map_slice_openStart h, hstart, Curve.sweepStep, hprevious, Sample.connectsTo]
  cases hlast : (run.getLast hne).output with
  | none =>
    cases houtput : sample.output with
    | none => simp
    | some output => simp [Sweep.openStart, houtput]
  | some previous =>
    cases houtput : sample.output with
    | none => simp [Sweep.openStart, houtput]
    | some output => simp [Sweep.openStart, houtput, hlast]

/-- From any sample on, a sweep adds the segments of the runs, the first of which is open. -/
theorem Curve.sweep_from (h : curve.samples = before ++ (run ++ rest))
    (hchain : run.IsChain fun p q => p.connectsTo tolerance q) (closed : List Segment) :
    curve.endSweep ((rest.zipIdx (before.length + run.length)).foldl (curve.sweepStep tolerance)
        ⟨closed, Sweep.openStart before.length run⟩) =
      closed ++ Segment.ofRuns before.length
        ((run ++ rest).splitBy (·.connectsTo tolerance ·)) := by
  induction rest generalizing before run closed with
  | nil =>
    have hlength : curve.samples.length = before.length + run.length := by
      rw [h, List.append_nil, List.length_append]
    rw [List.zipIdx_nil, List.foldl_nil, Curve.endSweep, hlength, map_slice_openStart h,
      List.append_nil]
    by_cases hne : run = []
    · rw [hne]
      rfl
    · rw [List.splitBy_of_isChain hne hchain, Segment.ofRuns, Segment.ofRuns, List.append_nil]
  | cons sample rest ih =>
    rw [List.zipIdx_cons, List.foldl_cons]
    by_cases hne : run = []
    · subst hne
      rw [sweepStep_of_nil]
      exact ih h (.singleton sample) closed
    rw [sweepStep_of_run h hne hchain closed]
    by_cases hconnects : (run.getLast hne).connectsTo tolerance sample = true
    · have hopen : Sweep.openStart before.length run =
          Sweep.openStart before.length (run ++ [sample]) := by
        rw [Sweep.openStart, Sweep.openStart, List.head?_append_of_ne_nil _ hne]
      have hlonger : (run ++ [sample]).IsChain fun p q => p.connectsTo tolerance q := by
        refine hchain.append (.singleton sample) fun last hlast next hnext => ?_
        rw [← List.getLast_of_mem_getLast? hlast]
        exact Option.some.inj hnext ▸ hconnects
      have happend : run ++ sample :: rest = (run ++ [sample]) ++ rest := List.append_cons ..
      rw [if_pos hconnects, hopen, happend, ← ih (happend ▸ h) hlonger closed, List.length_append,
        ← Nat.add_assoc]
      rfl
    · have hbreak : ∀ last ∈ run.getLast?, last.connectsTo tolerance sample = false := by
        intro last hlast
        rw [← List.getLast_of_mem_getLast? hlast]
        exact Bool.not_eq_true _ ▸ hconnects
      rw [← List.append_assoc] at h
      rw [if_neg hconnects, List.splitBy_append_cons rest hbreak,
        List.splitBy_of_isChain hne hchain, List.singleton_append, Segment.ofRuns,
        ← List.append_assoc, ← List.length_append]
      exact ih h (.singleton sample) _

end

/-- A sweep finds the segments. -/
theorem Curve.sweep_eq_segments (curve : Curve) (tolerance : Float) :
    curve.sweep tolerance = curve.segments tolerance := by
  have hsamples : curve.samples = [] ++ ([] ++ curve.samples) := rfl
  rw [segments_eq_ofRuns]
  exact sweep_from hsamples .nil []

/-- The segments of a curve are its maximal connected runs, and they hold every sample with a value
once. Their samples are pairs of an input and an output, and these are the points of the curve, the
other way round where it is against the axis `y`. A sweep finds the same segments. -/
theorem segments_maximal (curve : Curve) (tolerance : Float) :
    curve.FallsInto tolerance (curve.segments tolerance) ∧
      ((curve.segments tolerance).map (·.samples.length)).sum = curve.defined ∧
      (∃ pairs : List (Float × Float),
        (curve.segments tolerance).flatMap Segment.samples =
          pairs.map (fun (input, output) => ⟨input, some output⟩) ∧
        curve.points = match curve.axis with
          | .x => pairs
          | .y => pairs.map fun (input, output) => (output, input)) ∧
      curve.sweep tolerance = curve.segments tolerance := by
  have hfalls := curve.fallsInto_segments tolerance
  refine ⟨hfalls, ?_, ⟨curve.samples.filterMap (·.point? .x), ?_, ?_⟩,
    curve.sweep_eq_segments tolerance⟩
  · rw [← List.length_flatMap, hfalls.flatMap_samples, Curve.defined, List.countP_eq_length_filter]
  · rw [hfalls.flatMap_samples, filter_isSome_eq_map]
  · rw [Curve.points]
    cases curve.axis with
    | x => rfl
    | y => exact filterMap_point?_y curve.samples

/-- A jump, a gap, and a sample between the two. -/
example :
    let sample (input : Float) (output : Option Float) : Sample := ⟨input, output⟩
    let curve : Curve :=
      { function := none, axis := .x, usedRounding := false, broken := false
        samples := [sample 0 (some 0), sample 1 (some 1), sample 2 (some 9), sample 3 none,
          sample 4 (some 9)] }
    (curve.segments 5).map (fun s => (s.start, s.stop)) = [(0, 2), (2, 3), (4, 5)] ∧
      curve.sweep 5 = curve.segments 5 := by
  decide +kernel

end Formulary
