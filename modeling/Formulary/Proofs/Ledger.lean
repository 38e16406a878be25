import Mathlib.Data.Set.Card
import Mathlib.Logic.Function.Basic
import Formulary.Proofs.Changes

/-!
# Registries as ordered maps

A run of changes can be told without the list of entries. A `Ledger` counts the formulas that
have been entered, and has under each number the text and the axis that were last written, unless
the formula was taken out. `Ledger.registry` is the registry that such an account amounts to : the
live numbers in rising order, each with what is written under it.

* `Ledger.registry_record` : a change of the registry is a record in the ledger.
* `Ledger.registry_foldl` : so a run from the empty registry comes to what the ledger of the run
  amounts to.
* `Ledger.mirrors_ledger_of_run` : the registry after a run, told by the ledger.

The counter of a registry has 32 bits, so all this holds of runs that enter fewer than `2 ^ 32`
formulas.
-/

namespace Formulary

/-- An account of a run of changes. -/
structure Ledger where
  /-- How many formulas were entered. -/
  pushes : Nat := 0
  /-- What was last written under a number, unless it was taken out. -/
  written : FunctionId → Option (String × Axis) := fun _ => none

namespace Ledger

/-- The ledger after a change. -/
def record (ledger : Ledger) : Change → Ledger
  | .push formula axis =>
    { pushes := ledger.pushes + 1
      written := Function.update ledger.written (.ofNat ledger.pushes) (some (formula, axis)) }
  | .setFormula id formula =>
    { ledger with
      written := Function.update ledger.written id
        ((ledger.written id).map fun (_, axis) => (formula, axis)) }
  | .remove id => { ledger with written := Function.update ledger.written id none }
  | .edit id write =>
    { ledger with written := Function.update ledger.written id ((ledger.written id).map write) }

/-- The numbers given out so far. -/
def issued (ledger : Ledger) : List FunctionId :=
  (List.range ledger.pushes).map UInt32.ofNat

/-- The entry that the ledger has under the number. -/
def get? (ledger : Ledger) (id : FunctionId) : Option Entry :=
  (ledger.written id).map fun (formula, axis) => ⟨id, formula, axis⟩

/-- The registry that the ledger amounts to. -/
def registry (ledger : Ledger) : Registry where
  entries := ledger.issued.filterMap ledger.get?
  nextId := .ofNat ledger.pushes

/-- The numbers have not run out, and nothing is written under one that was not given out. -/
structure Sound (ledger : Ledger) : Prop where
  pushes_lt : ledger.pushes < 2 ^ 32
  toNat_lt : ∀ id, (ledger.written id).isSome → id.toNat < ledger.pushes

variable {ledger : Ledger} {id : FunctionId}

/-! ## Numbers -/

theorem mem_issued_iff (h : ledger.pushes ≤ 2 ^ 32) :
    id ∈ ledger.issued ↔ id.toNat < ledger.pushes := by
  rw [issued, List.mem_map]
  constructor
  · rintro ⟨n, hn, rfl⟩
    have hn := List.mem_range.mp hn
    rwa [UInt32.toNat_ofNat_of_lt' (Nat.lt_of_lt_of_le hn h)]
  · exact fun hid => ⟨id.toNat, List.mem_range.mpr hid, UInt32.ofNat_toNat⟩

theorem pairwise_issued (h : ledger.pushes ≤ 2 ^ 32) : ledger.issued.Pairwise (· < ·) := by
  refine List.pairwise_map.mpr (List.pairwise_lt_range.imp_of_mem fun ha hb hab => ?_)
  have ha := List.mem_range.mp ha
  have hb := List.mem_range.mp hb
  rwa [UInt32.lt_iff_toNat_lt, UInt32.toNat_ofNat_of_lt' (Nat.lt_of_lt_of_le ha h),
    UInt32.toNat_ofNat_of_lt' (Nat.lt_of_lt_of_le hb h)]

theorem nodup_issued (h : ledger.pushes ≤ 2 ^ 32) : ledger.issued.Nodup :=
  (pairwise_issued h).imp UInt32.ne_of_lt

/-! ## Records -/

/-- A record is about the number that the change is about. -/
theorem written_record_of_ne {change : Change} (h : id ≠ change.target ledger.registry) :
    (ledger.record change).written id = ledger.written id := by
  cases change <;> exact Function.update_of_ne h _ _

theorem get?_record_of_ne {change : Change} (h : id ≠ change.target ledger.registry) :
    (ledger.record change).get? id = ledger.get? id := by
  rw [get?, written_record_of_ne h, get?]

theorem pushes_record (ledger : Ledger) (change : Change) :
    (ledger.record change).pushes = ledger.pushes + [change].countP Change.isPush := by
  cases change <;> rfl

theorem pushes_le_record (ledger : Ledger) (change : Change) :
    ledger.pushes ≤ (ledger.record change).pushes :=
  pushes_record ledger change ▸ Nat.le_add_right _ _

namespace Sound

theorem mem_issued (h : ledger.Sound) (hid : (ledger.written id).isSome) : id ∈ ledger.issued :=
  (mem_issued_iff h.pushes_lt.le).mpr (h.toNat_lt id hid)

/-- The next number is none of those given out. -/
theorem ne_of_mem_issued (h : ledger.Sound) (hid : id ∈ ledger.issued) :
    id ≠ .ofNat ledger.pushes := by
  rintro rfl
  have hlt := (mem_issued_iff h.pushes_lt.le).mp hid
  rw [UInt32.toNat_ofNat_of_lt' h.pushes_lt] at hlt
  exact Nat.lt_irrefl _ hlt

/-- A ledger stays sound as long as the numbers last. -/
theorem record (h : ledger.Sound) {change : Change}
    (hpushes : (ledger.record change).pushes < 2 ^ 32) : (ledger.record change).Sound where
  pushes_lt := hpushes
  toNat_lt other hother := by
    by_cases hid : other = change.target ledger.registry
    · subst hid
      cases change with
      | push formula axis =>
        rw [Change.target, registry, UInt32.toNat_ofNat_of_lt' h.pushes_lt]
        exact Nat.lt_succ_self _
      | remove id => simp [Ledger.record, Change.target] at hother
      | setFormula id formula | edit id write =>
        refine h.toNat_lt id ?_
        simpa [Ledger.record, Change.target] using hother
    · rw [written_record_of_ne hid] at hother
      exact Nat.lt_of_lt_of_le (h.toNat_lt other hother) (pushes_le_record ledger change)

/-- Nothing is written under a number that was given out and has nothing under it. -/
theorem written_record_of_none (h : ledger.Sound) {change : Change} (hid : id.toNat < ledger.pushes)
    (hnone : ledger.written id = none) : (ledger.record change).written id = none := by
  by_cases hsame : id = change.target ledger.registry
  · cases change with
    | push formula axis =>
      exact absurd hsame (h.ne_of_mem_issued ((mem_issued_iff h.pushes_lt.le).mpr hid))
    | setFormula other formula | remove other | edit other write =>
      obtain rfl : id = other := hsame
      simp [Ledger.record, hnone]
  · rw [written_record_of_ne hsame, hnone]

end Sound

/-! ## Entries -/

theorem id_of_get? {entry : Entry} (h : ledger.get? id = some entry) : entry.id = id := by
  obtain ⟨⟨formula, axis⟩, -, rfl⟩ := Option.map_eq_some_iff.mp h
  rfl

theorem map_id_entries (ledger : Ledger) :
    ledger.registry.entries.map Entry.id =
      ledger.issued.filter fun id => (ledger.written id).isSome := by
  rw [registry, List.map_filterMap, ← List.filterMap_eq_filter]
  refine List.filterMap_congr fun id _ => ?_
  rw [get?, Option.guard]
  cases ledger.written id <;> rfl

theorem find?_filterMap_get? (ledger : Ledger) (id : FunctionId) (ids : List FunctionId) :
    (ids.filterMap ledger.get?).find? (·.id = id) =
      if id ∈ ids then ledger.get? id else none := by
  induction ids with
  | nil => rfl
  | cons other ids ih =>
    cases hentry : ledger.get? other with
    | none =>
      rw [List.filterMap_cons_none hentry, ih]
      by_cases hid : id = other
      · simp [hid, hentry]
      · simp [hid]
    | some entry =>
      rw [List.filterMap_cons_some hentry]
      by_cases hid : id = other
      · rw [List.find?_cons_of_pos (by simp [id_of_get? hentry, hid]), hid,
          if_pos List.mem_cons_self, hentry]
      · rw [List.find?_cons_of_neg (by simpa [id_of_get? hentry] using Ne.symm hid), ih]
        simp [hid]

theorem get?_registry (h : ledger.Sound) (id : FunctionId) :
    ledger.registry.get? id = ledger.get? id := by
  rw [Registry.get?, registry, find?_filterMap_get?]
  by_cases hid : id ∈ ledger.issued
  · rw [if_pos hid]
  · have hnot : ¬(ledger.written id).isSome := fun hsome => hid (h.mem_issued hsome)
    have hnone : ledger.written id = none := by simpa using hnot
    rw [if_neg hid, get?, hnone, Option.map_none]

/-! ## Changes -/

theorem registry_push (h : ledger.Sound) (formula : String) (axis : Axis) :
    ledger.registry.alter (.push formula axis) = (ledger.record (.push formula axis)).registry := by
  have hissued : (ledger.record (.push formula axis)).issued =
      ledger.issued ++ [.ofNat ledger.pushes] := by
    rw [issued, record, List.range_succ, List.map_append, List.map_singleton, issued]
  have hold : ledger.issued.filterMap (ledger.record (.push formula axis)).get? =
      ledger.issued.filterMap ledger.get? := by
    exact List.filterMap_congr fun id hid => get?_record_of_ne (h.ne_of_mem_issued hid)
  have hwritten : (ledger.record (.push formula axis)).written (.ofNat ledger.pushes) =
      some (formula, axis) := Function.update_self ..
  have hnew : (ledger.record (.push formula axis)).get? (.ofNat ledger.pushes) =
      some ⟨.ofNat ledger.pushes, formula, axis⟩ := by
    rw [get?, hwritten, Option.map_some]
  calc ledger.registry.alter (.push formula axis)
    _ = { entries := ledger.issued.filterMap ledger.get? ++ [⟨.ofNat ledger.pushes, formula, axis⟩]
          nextId := .ofNat ledger.pushes + 1 } := rfl
    _ = (ledger.record (.push formula axis)).registry := by
      rw [registry, hissued, List.filterMap_append, hold, List.filterMap_cons_some hnew,
        List.filterMap_nil, record, UInt32.ofNat_add]
      rfl

theorem registry_edit (h : ledger.Sound) (id : FunctionId)
    (write : String × Axis → String × Axis) :
    ledger.registry.alter (.edit id write) = (ledger.record (.edit id write)).registry := by
  have hnodup : (ledger.registry.entries.map Entry.id).Nodup := by
    rw [map_id_entries]
    exact (nodup_issued h.pushes_lt.le).filter _
  rw [Registry.alter, Registry.alter?, Registry.modify?_getD hnodup, registry, registry,
    List.map_filterMap]
  congr 1
  refine List.filterMap_congr fun other _ => ?_
  by_cases hid : other = id
  · have hwritten : (ledger.record (.edit id write)).written id = (ledger.written id).map write :=
      Function.update_self ..
    rw [hid, get?, get?, hwritten]
    cases ledger.written id with
    | none => rfl
    | some pair => simp [Entry.rewrite]
  · have hkeep : (ledger.record (.edit id write)).get? other = ledger.get? other :=
      get?_record_of_ne hid
    rw [hkeep]
    cases hget : ledger.get? other with
    | none => rfl
    | some entry => simp [id_of_get? hget, hid]

theorem registry_remove (ledger : Ledger) (id : FunctionId) :
    ledger.registry.alter (.remove id) = (ledger.record (.remove id)).registry := by
  rw [Registry.alter, Registry.alter?, Registry.remove?_getD, registry, registry,
    List.filter_filterMap]
  congr 1
  refine List.filterMap_congr fun other _ => ?_
  by_cases hid : other = id
  · have hwritten : (ledger.record (.remove id)).written id = none := Function.update_self ..
    have hnone : (ledger.record (.remove id)).get? id = none := by
      rw [get?, hwritten, Option.map_none]
    rw [hid, hnone]
    cases hget : ledger.get? id with
    | none => rfl
    | some entry => simp [Option.filter, id_of_get? hget]
  · have hkeep : (ledger.record (.remove id)).get? other = ledger.get? other :=
      get?_record_of_ne hid
    rw [hkeep]
    cases hget : ledger.get? other with
    | none => rfl
    | some entry => simp [Option.filter, id_of_get? hget, hid]

/-- A change of the registry is a record in the ledger. -/
theorem registry_record (h : ledger.Sound) (change : Change) :
    ledger.registry.alter change = (ledger.record change).registry := by
  cases change with
  | push formula axis => exact registry_push h formula axis
  | setFormula id formula => exact registry_edit h id fun (_, axis) => (formula, axis)
  | remove id => exact registry_remove ledger id
  | edit id write => exact registry_edit h id write

/-! ## Runs -/

section Runs

variable {changes : List Change}

theorem sound_empty : ({} : Ledger).Sound where
  pushes_lt := by decide
  toNat_lt _ h := nomatch h

theorem pushes_foldl (ledger : Ledger) (changes : List Change) :
    (changes.foldl record ledger).pushes = ledger.pushes + changes.countP Change.isPush := by
  induction changes generalizing ledger with
  | nil => rfl
  | cons change changes ih =>
    rw [List.foldl_cons, ih, pushes_record, Nat.add_assoc, ← List.countP_append,
      List.singleton_append]

theorem pushes_record_lt {change : Change}
    (h : ledger.pushes + (change :: changes).countP Change.isPush < 2 ^ 32) :
    (ledger.record change).pushes + changes.countP Change.isPush < 2 ^ 32 := by
  rwa [pushes_record, Nat.add_assoc, ← List.countP_append, List.singleton_append]

theorem Sound.record_cons (h : ledger.Sound) {change : Change}
    (hpushes : ledger.pushes + (change :: changes).countP Change.isPush < 2 ^ 32) :
    (ledger.record change).Sound :=
  h.record (Nat.lt_of_le_of_lt (Nat.le_add_right _ _) (pushes_record_lt hpushes))

theorem Sound.foldl (h : ledger.Sound)
    (hpushes : ledger.pushes + changes.countP Change.isPush < 2 ^ 32) :
    (changes.foldl Ledger.record ledger).Sound := by
  induction changes generalizing ledger with
  | nil => exact h
  | cons change changes ih => exact ih (h.record_cons hpushes) (pushes_record_lt hpushes)

/-- A run comes to what the ledger of the run amounts to. -/
theorem registry_foldl (h : ledger.Sound)
    (hpushes : ledger.pushes + changes.countP Change.isPush < 2 ^ 32) :
    changes.foldl Registry.alter ledger.registry = (changes.foldl record ledger).registry := by
  induction changes generalizing ledger with
  | nil => rfl
  | cons change changes ih =>
    rw [List.foldl_cons, registry_record h]
    exact ih (h.record_cons hpushes) (pushes_record_lt hpushes)

theorem givenOut_registry (h : ledger.Sound)
    (hpushes : ledger.pushes + changes.countP Change.isPush < 2 ^ 32) :
    ledger.registry.givenOut changes =
      (List.range' ledger.pushes (changes.countP Change.isPush)).map UInt32.ofNat := by
  induction changes generalizing ledger with
  | nil => rfl
  | cons change changes ih =>
    have hafter := ih (h.record_cons hpushes) (pushes_record_lt hpushes)
    rw [← registry_record h, pushes_record] at hafter
    cases change with
    | push formula axis =>
      rw [List.countP_cons_of_pos rfl, List.range'_succ, List.map_cons]
      exact congrArg (UInt32.ofNat ledger.pushes :: ·) hafter
    | setFormula id formula | remove id | edit id write => exact hafter

/-- A number that was taken out stays out. -/
theorem written_foldl_of_none (h : ledger.Sound)
    (hpushes : ledger.pushes + changes.countP Change.isPush < 2 ^ 32)
    (hid : id.toNat < ledger.pushes) (hnone : ledger.written id = none) :
    (changes.foldl record ledger).written id = none := by
  induction changes generalizing ledger with
  | nil => exact hnone
  | cons change changes ih =>
    refine ih (h.record_cons hpushes) (pushes_record_lt hpushes)
      (Nat.lt_of_lt_of_le hid (pushes_le_record ledger change)) (h.written_record_of_none hid hnone)

end Runs

end Ledger

/-! ## Mirrors -/

/-- The ledger of a run. -/
def Ledger.ofRun (changes : List Change) : Ledger :=
  changes.foldl record {}

/-- The registry after a run, which was empty at first. -/
def Registry.ofRun (changes : List Change) : Registry :=
  changes.foldl alter {}

/-- The registry is the ordered map that the ledger tells of. -/
structure Registry.Mirrors (registry : Registry) (ledger : Ledger) : Prop where
  /-- Entries stand in the order of their numbers, which all differ. -/
  pairwise_ids : (registry.entries.map Entry.id).Pairwise (· < ·)
  id_lt : ∀ entry ∈ registry.entries, entry.id < registry.nextId
  get?_eq : ∀ id, registry.get? id =
    (ledger.written id).map fun (formula, axis) => ⟨id, formula, axis⟩
  formula_eq : ∀ id, registry.formula id =
    (ledger.written id).map fun
      | (formula, .x) => formula
      | (formula, .y) => swapLetters formula
  length_entries : registry.entries.length = {id | (ledger.written id).isSome}.ncard
  /-- A change finds its entry if something is written under the number. -/
  isSome_alter?_eq : ∀ change, (registry.alter? change).isSome =
    (change.isPush || (ledger.written (change.target registry)).isSome)
  /-- No other change has any effect. -/
  alter_of_none : ∀ change, change.isPush = false →
    ledger.written (change.target registry) = none → registry.alter change = registry

namespace Ledger

variable {ledger : Ledger} {changes : List Change}

theorem length_registry (h : ledger.Sound) :
    ledger.registry.entries.length = {id | (ledger.written id).isSome}.ncard := by
  have hnodup : (ledger.issued.filter fun id => (ledger.written id).isSome).Nodup :=
    (nodup_issued h.pushes_lt.le).filter _
  have hset : {id | (ledger.written id).isSome} =
      ((ledger.issued.filter fun id => (ledger.written id).isSome).toFinset : Set FunctionId) := by
    ext id
    simpa using h.mem_issued
  rw [hset, Set.ncard_coe_finset, List.toFinset_card_of_nodup hnodup, ← map_id_entries,
    List.length_map]

theorem mirrors_registry (h : ledger.Sound) : ledger.registry.Mirrors ledger := by
  have hget : ∀ id, (ledger.registry.get? id).isSome = (ledger.written id).isSome := fun id => by
    rw [get?_registry h, get?, Option.isSome_map]
  have hfound : ∀ change, (ledger.registry.alter? change).isSome =
      (change.isPush || (ledger.written (change.target ledger.registry)).isSome) := fun change => by
    rw [Registry.isSome_alter?, hget]
  refine ⟨?_, fun entry hentry => ?_, get?_registry h, fun id => ?_, length_registry h, hfound,
    fun change hpush hnone => ?_⟩
  · rw [map_id_entries]
    exact (pairwise_issued h.pushes_lt.le).filter _
  · obtain ⟨id, hid, hentry⟩ := List.mem_filterMap.mp hentry
    have hlt := (mem_issued_iff h.pushes_lt.le).mp hid
    rwa [id_of_get? hentry, UInt32.lt_iff_toNat_lt, registry, UInt32.toNat_ofNat_of_lt' h.pushes_lt]
  · rw [Registry.formula, get?_registry h, get?, Option.map_map]
    congr 1
    funext written
    obtain ⟨formula, axis⟩ := written
    cases axis <;> rfl
  · have hnot := hfound change
    rw [hpush, hnone, Bool.false_or, Option.isSome_none, Option.isSome_eq_false_iff,
      Option.isNone_iff_eq_none] at hnot
    rw [Registry.alter, hnot, Option.getD_none]

theorem givenOut_empty (h : changes.countP Change.isPush < 2 ^ 32) :
    Registry.givenOut {} changes = (ofRun changes).issued := by
  have hgiven := givenOut_registry sound_empty (by rwa [Nat.zero_add])
  rw [issued, ofRun, pushes_foldl, Nat.zero_add, List.range_eq_range']
  exact hgiven

theorem sound_ofRun (h : changes.countP Change.isPush < 2 ^ 32) : (ofRun changes).Sound :=
  sound_empty.foldl (by rwa [Nat.zero_add])

theorem registry_ofRun (h : changes.countP Change.isPush < 2 ^ 32) :
    Registry.ofRun changes = (ofRun changes).registry :=
  registry_foldl sound_empty (by rwa [Nat.zero_add])

/-- What was taken out after it was given out is not there at the end. -/
theorem written_ofRun_of_remove {before after : List Change} {id : FunctionId}
    (h : (before ++ .remove id :: after).countP Change.isPush < 2 ^ 32)
    (hid : id ∈ (ofRun before).issued) :
    (ofRun (before ++ .remove id :: after)).written id = none := by
  have hbefore : before.countP Change.isPush < 2 ^ 32 :=
    Nat.lt_of_le_of_lt (List.sublist_append_left ..).countP_le h
  have hsound := sound_ofRun hbefore
  have hpushes : ((ofRun before).record (.remove id)).pushes + after.countP Change.isPush
      < 2 ^ 32 := by
    refine pushes_record_lt ?_
    rwa [ofRun, pushes_foldl, Nat.add_assoc, ← List.countP_append, Nat.zero_add]
  have hlt : id.toNat < (ofRun before).pushes := (mem_issued_iff hsound.pushes_lt.le).mp hid
  have hnone : ((ofRun before).record (.remove id)).written id = none := Function.update_self ..
  rw [ofRun, List.foldl_append, List.foldl_cons]
  exact written_foldl_of_none (hsound.record hsound.pushes_lt) hpushes hlt hnone

/-- A run of changes makes the registry that its ledger tells of. Numbers rise from one formula
that is entered to the next, none is in use before it is given out, and none comes back after it
is taken out. A change leaves all entries but its own, in their order. -/
theorem mirrors_ledger_of_run (changes : List Change)
    (h : changes.countP Change.isPush < 2 ^ 32) :
    (Registry.ofRun changes).Mirrors (ofRun changes) ∧
    (Registry.givenOut {} changes).Pairwise (· < ·) ∧
    (∀ id ∈ Registry.givenOut {} changes, id < (Registry.ofRun changes).nextId) ∧
    (∀ id ∉ Registry.givenOut {} changes, (Registry.ofRun changes).get? id = none) ∧
    (∀ before id after, changes = before ++ .remove id :: after →
      id ∈ Registry.givenOut {} before → (Registry.ofRun changes).get? id = none) ∧
    ∀ change, ((Registry.ofRun changes).alter change).entries.filter
        (·.id ≠ change.target (Registry.ofRun changes)) =
      (Registry.ofRun changes).entries.filter (·.id ≠ change.target (Registry.ofRun changes)) := by
  have hsound := sound_ofRun h
  have hmirrors := mirrors_registry hsound
  have hissued := givenOut_empty h
  rw [← registry_ofRun h] at hmirrors
  refine ⟨hmirrors, ?_, fun id hid => ?_, fun id hid => ?_, ?_, Registry.filter_entries_alter _⟩
  · rw [hissued]
    exact pairwise_issued hsound.pushes_lt.le
  · rw [hissued, mem_issued_iff hsound.pushes_lt.le] at hid
    rwa [registry_ofRun h, UInt32.lt_iff_toNat_lt, registry,
      UInt32.toNat_ofNat_of_lt' hsound.pushes_lt]
  · have hnone : (ofRun changes).written id = none := by
      simpa [hissued] using mt hsound.mem_issued (hissued ▸ hid)
    rw [hmirrors.get?_eq, hnone, Option.map_none]
  · rintro before id after rfl hid
    have hbefore : before.countP Change.isPush < 2 ^ 32 :=
      Nat.lt_of_le_of_lt (List.sublist_append_left ..).countP_le h
    rw [givenOut_empty hbefore] at hid
    rw [hmirrors.get?_eq, written_ofRun_of_remove h hid, Option.map_none]

/-- A number that was taken out stays out of use when another formula is entered, and the entries
that are left are the second and the third. -/
theorem mirrors_ledger_of_short_run :
    [Change.push "x" .x, .push "2y" .y, .remove 0, .setFormula 1 "f0(y)", .push "x" .x].countP
      Change.isPush < 2 ^ 32 ∧
    (Registry.ofRun [.push "x" .x, .push "2y" .y, .remove 0, .setFormula 1 "f0(y)",
      .push "x" .x]).get? 0 = none ∧
    (Registry.ofRun [.push "x" .x, .push "2y" .y, .remove 0, .setFormula 1 "f0(y)",
      .push "x" .x]).entries = [⟨1, "f0(y)", .y⟩, ⟨2, "x", .x⟩] := by
  refine ⟨by decide, ?_, by decide⟩
  obtain ⟨-, -, -, -, hremoved, -⟩ := mirrors_ledger_of_run [.push "x" .x, .push "2y" .y,
    .remove 0, .setFormula 1 "f0(y)", .push "x" .x] (by decide)
  exact hremoved [.push "x" .x, .push "2y" .y] 0 _ rfl (by decide)

end Ledger

end Formulary
