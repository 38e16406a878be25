import Formulary.Registry

/-!
# Changes of a registry

A `Change` is one thing that the user of a registry may do to it : enter a formula, give an entry
another text, write an entry anew, or take entries out. Each concerns the entries with one number
(`Change.target`), and leaves the others as they are and where they are
(`Registry.filter_entries_alter`). So what is filed under other numbers stays the same
(`Registry.formula_alter_of_ne`). All this holds of any registry, also where entries share a
number.
-/

namespace Formulary

/-- The entry with its text and its axis written anew, in the light of what they were. -/
def Entry.rewrite (write : String × Axis → String × Axis) (entry : Entry) : Entry :=
  let (formula, axis) := write (entry.formula, entry.axis)
  ⟨entry.id, formula, axis⟩

/-- One change of a registry. The number of an entry never changes. -/
inductive Change where
  | push (formula : String) (axis : Axis)
  | setFormula (id : FunctionId) (formula : String)
  | remove (id : FunctionId)
  | edit (id : FunctionId) (write : String × Axis → String × Axis)

namespace Change

/-- The change enters a formula. -/
def isPush : Change → Bool
  | push _ _ => true
  | _ => false

/-- The number that the change is about : a formula that is entered gets the next one. -/
def target (registry : Registry) : Change → FunctionId
  | push _ _ => registry.nextId
  | setFormula id _ | remove id | edit id _ => id

end Change

namespace Registry

/-- The registry after the change, if the change finds its entry. -/
def alter? (registry : Registry) : Change → Option Registry
  | .push formula axis => some (registry.push formula axis).2
  | .setFormula id formula => registry.setFormula? id formula
  | .remove id => registry.remove? id
  | .edit id write => registry.modify? id (·.rewrite write)

/-- The registry after the change, the same one if the change does not find its entry. -/
def alter (registry : Registry) (change : Change) : Registry :=
  (registry.alter? change).getD registry

/-- The numbers that are given out in a run of changes, in turn. -/
def givenOut (registry : Registry) : List Change → List FunctionId
  | [] => []
  | .push formula axis :: changes =>
    (registry.push formula axis).1 :: (registry.push formula axis).2.givenOut changes
  | change :: changes => (registry.alter change).givenOut changes

variable {registry : Registry} {id other : FunctionId}

/-- Where an entry is changed, it is the first with its number, and it stays in its place. -/
theorem modify?_cases (registry : Registry) (id : FunctionId) (change : Entry → Entry) :
    (registry.modify? id change = none ∧ ∀ entry ∈ registry.entries, entry.id ≠ id) ∨
    ∃ before entry after, registry.entries = before ++ entry :: after ∧ entry.id = id ∧
      (∀ earlier ∈ before, earlier.id ≠ id) ∧
      registry.modify? id change =
        some { registry with entries := before ++ change entry :: after } := by
  unfold modify?
  cases hfind : registry.entries.findIdx? (·.id = id) with
  | none =>
    refine .inl ⟨rfl, fun entry hentry => ?_⟩
    simpa using List.findIdx?_eq_none_iff.mp hfind entry hentry
  | some i =>
    obtain ⟨hi, hid, hearlier⟩ := List.findIdx?_eq_some_iff_getElem.mp hfind
    refine .inr ⟨registry.entries.take i, registry.entries[i], registry.entries.drop (i + 1),
      ?_, by simpa using hid, fun earlier h => ?_, ?_⟩
    · simp
    · obtain ⟨j, hj, rfl⟩ := List.mem_take_iff_getElem.mp h
      simpa using hearlier j (Nat.lt_of_lt_of_le hj (Nat.min_le_left _ _))
    · rw [Option.map_some, List.modify_eq_take_cons_drop hi]

theorem filter_entries_modify (registry : Registry) {id : FunctionId} {change : Entry → Entry}
    (hchange : ∀ entry, (change entry).id = entry.id) :
    (((registry.modify? id change).getD registry).entries.filter (·.id ≠ id)) =
      registry.entries.filter (·.id ≠ id) := by
  rcases registry.modify?_cases id change with ⟨hnone, -⟩ | ⟨before, entry, after, h, hid, -, hsome⟩
  · rw [hnone, Option.getD_none]
  · have hsame : (change entry).id = id := (hchange entry).trans hid
    simp [hsome, h, hid, hsame]

/-- Where the numbers differ, all entries with the number are changed. -/
theorem modify?_getD {change : Entry → Entry} (h : (registry.entries.map Entry.id).Nodup) :
    (registry.modify? id change).getD registry =
      { registry with
        entries := registry.entries.map fun entry =>
          if entry.id = id then change entry else entry } := by
  have hkeep : ∀ entries : List Entry, (∀ entry ∈ entries, entry.id ≠ id) →
      (entries.map fun entry => if entry.id = id then change entry else entry) = entries :=
    fun entries hentries =>
      (List.map_congr_left fun entry hentry => if_neg (hentries entry hentry)).trans
        (List.map_id' entries)
  rcases registry.modify?_cases id change with
    ⟨hnone, hne⟩ | ⟨before, entry, after, hsplit, hid, hbefore, hsome⟩
  · rw [hnone, Option.getD_none, hkeep _ hne]
  · have hafter : ∀ later ∈ after, later.id ≠ id := by
      rw [hsplit, List.map_append, List.map_cons] at h
      intro later hlater hsame
      have hnot := (List.nodup_cons.mp (List.nodup_append.mp h).2.1).1
      exact hnot (hid ▸ hsame ▸ List.mem_map_of_mem hlater)
    rw [hsome, Option.getD_some, hsplit, List.map_append, List.map_cons, if_pos hid,
      hkeep _ hbefore, hkeep _ hafter]

theorem remove?_getD (registry : Registry) (id : FunctionId) :
    (registry.remove? id).getD registry =
      { registry with entries := registry.entries.filter (·.id ≠ id) } := by
  unfold remove?
  split
  · rfl
  · rename_i hnone
    have hall : ∀ entry ∈ registry.entries, decide (entry.id ≠ id) = true := by
      simpa using hnone
    rw [Option.getD_none, List.filter_eq_self.mpr hall]

/-- A change finds its entry where the number is in use. -/
theorem isSome_alter? (registry : Registry) (change : Change) :
    (registry.alter? change).isSome =
      (change.isPush || (registry.get? (change.target registry)).isSome) := by
  cases change with
  | push formula axis => rfl
  | setFormula id formula => exact registry.modify?_isSome id _
  | remove id =>
    have hfound : (registry.get? id).isSome = registry.entries.any (·.id = id) := List.isSome_find?
    rw [alter?, Change.target, hfound, remove?]
    cases registry.entries.any (·.id = id) <;> rfl
  | edit id write => exact registry.modify?_isSome id _

/-- A change leaves all entries with other numbers, in their order. -/
theorem filter_entries_alter (registry : Registry) (change : Change) :
    (registry.alter change).entries.filter (·.id ≠ change.target registry) =
      registry.entries.filter (·.id ≠ change.target registry) := by
  cases change with
  | push formula axis =>
    simp [alter, alter?, push, Change.target]
  | setFormula id formula => exact registry.filter_entries_modify fun _ => rfl
  | remove id =>
    rw [alter, alter?, remove?_getD, Change.target, List.filter_filter]
    simp
  | edit id write => exact registry.filter_entries_modify fun _ => rfl

/-- The entries with other numbers do not matter to a lookup. -/
theorem get?_eq_find?_filter (registry : Registry) (h : other ≠ id) :
    registry.get? other = (registry.entries.filter (·.id ≠ id)).find? (·.id = other) := by
  rw [get?, List.find?_filter]
  congr 1
  funext entry
  by_cases hentry : entry.id = other
  · simp [hentry, h]
  · simp [hentry]

theorem get?_alter_of_ne (registry : Registry) {change : Change}
    (h : id ≠ change.target registry) : (registry.alter change).get? id = registry.get? id := by
  rw [get?_eq_find?_filter _ h, get?_eq_find?_filter _ h, filter_entries_alter]

/-- What is filed under other numbers stays as it is. -/
theorem formula_alter_of_ne (registry : Registry) {change : Change}
    (h : id ≠ change.target registry) :
    (registry.alter change).formula id = registry.formula id := by
  rw [formula, formula, get?_alter_of_ne registry h]

end Registry

end Formulary
