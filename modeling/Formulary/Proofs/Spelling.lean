import Formulary.Proofs.Terse

/-!
# Products written by hand

A product may be written with its sign or without, and the pass that writes products out cannot
tell : where it would write a sign, a sign that is there already serves as well. `writeSigns`
writes signs before the tokens at any chosen places, and notes which tokens are such signs
(`noteSigns`), so that they can be taken out again. `Juncture.needsProductAt` says which places the
pass chooses.

* `Juncture.writeProducts_eq_writeSigns` : the pass adds signs at these places, and nothing else.
* `Juncture.writeProducts_writeSigns` : whichever of these signs are there before, the pass comes to
  the same list.
* `parse_writeSigns` : and the parser to the same tree.

After a sign no operand has ended, and one had ended before it. A token that needs the sign does
the same after it, also a bar : it opens an absolute value on both sides of the comparison, and so
the places from there on are the same (`Juncture.next_of_needsProduct`).
-/

namespace Formulary

/-! ## Signs at places -/

/-- The tokens with the sign of a product before each one at a chosen place. The note on a token
says that it is such a sign. -/
def noteSigns (chosen : Nat → Bool) (tokens : List Token) : List (Token × Bool) :=
  (tokens.mapIdx fun i token =>
    (if chosen i then [(.symbol .times, true)] else []) ++ [(token, false)]).flatten

/-- The tokens with the sign of a product before each one at a chosen place. -/
def writeSigns (chosen : Nat → Bool) (tokens : List Token) : List Token :=
  (noteSigns chosen tokens).map Prod.fst

namespace Juncture

/-- The place after the tokens. -/
def after (j : Juncture) (tokens : List Token) : Juncture :=
  tokens.foldl next j

/-- A product is to be written before the token at this place of the list. -/
def needsProductAt (j : Juncture) (tokens : List Token) (i : Nat) : Bool :=
  tokens[i]?.any (j.after (tokens.take i)).needsProduct

end Juncture

section

variable (chosen : Nat → Bool) (token : Token) (rest tokens : List Token)

theorem noteSigns_cons : noteSigns chosen (token :: rest) =
    (if chosen 0 then [(.symbol .times, true)] else []) ++
      (token, false) :: noteSigns (fun i => chosen (i + 1)) rest := by
  simp [noteSigns, List.mapIdx_cons]

theorem writeSigns_cons : writeSigns chosen (token :: rest) =
    (if chosen 0 then [.symbol .times] else []) ++
      token :: writeSigns (fun i => chosen (i + 1)) rest := by
  rw [writeSigns, noteSigns_cons, List.map_append, writeSigns]
  cases chosen 0 <;> rfl

/-- Without the signs that were added, the tokens are what they were. -/
theorem filter_noteSigns :
    ((noteSigns chosen tokens).filter fun entry => !entry.2).map Prod.fst = tokens := by
  induction tokens generalizing chosen with
  | nil => rfl
  | cons token rest ih =>
    rw [noteSigns_cons, List.filter_append, List.filter_cons_of_pos rfl, List.map_append,
      List.map_cons, ih]
    cases chosen 0 <;> rfl

theorem eq_times_of_mem_noteSigns {entry : Token × Bool} (h : entry ∈ noteSigns chosen tokens)
    (hadded : entry.2 = true) : entry.1 = .symbol .times := by
  induction tokens generalizing chosen with
  | nil => cases h
  | cons token rest ih =>
    rw [noteSigns_cons, List.mem_append, List.mem_cons] at h
    rcases h with h | rfl | h
    · obtain ⟨-, rfl⟩ : chosen 0 = true ∧ entry = (.symbol .times, true) := by simpa using h
      rfl
    · cases hadded
    · exact ih _ h

theorem invalid_mem_writeSigns_iff :
    .invalid ∈ writeSigns chosen tokens ↔ .invalid ∈ tokens := by
  induction tokens generalizing chosen with
  | nil => rfl
  | cons token rest ih =>
    rw [writeSigns_cons, List.mem_append, List.mem_cons, List.mem_cons, ih]
    cases chosen 0 <;> simp

end

/-! ## Signs and the pass -/

namespace Juncture

variable (j : Juncture)

/-- The pass adds a sign at each place that needs one, and nothing else. -/
theorem writeProducts_eq_writeSigns (tokens : List Token) :
    j.writeProducts tokens = writeSigns (j.needsProductAt tokens) tokens := by
  induction tokens generalizing j with
  | nil => rfl
  | cons token rest ih =>
    rw [writeProducts_cons, writeSigns_cons, ih]
    rfl

/-- A sign where the pass would write one takes the place of that one. -/
theorem writeProducts_writeSigns {tokens : List Token} {chosen : Nat → Bool}
    (h : ∀ i, chosen i = true → j.needsProductAt tokens i = true) :
    j.writeProducts (writeSigns chosen tokens) = j.writeProducts tokens := by
  induction tokens generalizing j chosen with
  | nil => rfl
  | cons token rest ih =>
    have hrest : (j.next token).writeProducts (writeSigns (fun i => chosen (i + 1)) rest) =
        (j.next token).writeProducts rest := ih (j.next token) fun i hi => h (i + 1) hi
    rw [writeSigns_cons]
    cases hchosen : chosen 0 with
    | false =>
      rw [if_neg Bool.false_ne_true, List.nil_append, writeProducts_cons, writeProducts_cons, hrest]
    | true =>
      have hneeds : j.needsProduct token = true := h 0 hchosen
      have hsign : j.needsProduct (.symbol .times) = false := Bool.and_false _
      rw [if_pos rfl, List.singleton_append, writeProducts_cons_of_not hsign, next_times,
        writeProducts_of_needsProduct hneeds, writeProducts_cons_of_operand_due,
        writeProducts_cons_of_operand_due, next_of_needsProduct hneeds, hrest]

end Juncture

/-- Lists that the pass turns into the same one are read the same, if none of them or all of them
hold text that belongs to no formula. -/
theorem parse_eq_of_writeProducts_eq {tokens others : List Token}
    (hinvalid : .invalid ∈ tokens ↔ .invalid ∈ others)
    (h : writeProducts tokens = writeProducts others) : parse tokens = parse others := by
  by_cases hmem : .invalid ∈ tokens
  · rw [parse_of_invalid hmem, parse_of_invalid (hinvalid.mp hmem)]
  · have hread := parse_of_valid hmem
    rw [h] at hread
    exact hread.trans (parse_of_valid (mt hinvalid.mpr hmem)).symm

/-- Whatever the tokens, the pass adds signs of products to them at certain places, and nothing
else : without the added ones they are what they were. If any of these signs are written by hand
before, the pass comes to the same list, and the parser to the same tree. -/
theorem parse_writeSigns (tokens : List Token) :
    let needed := Juncture.needsProductAt {} tokens
    (writeProducts tokens = writeSigns needed tokens ∧
      ((noteSigns needed tokens).filter fun entry => !entry.2).map Prod.fst = tokens ∧
      ∀ entry ∈ noteSigns needed tokens, entry.2 = true → entry.1 = .symbol .times) ∧
    (∀ chosen : Nat → Bool, (∀ i, chosen i = true → needed i = true) →
      writeProducts (writeSigns chosen tokens) = writeProducts tokens ∧
        parse (writeSigns chosen tokens) = parse tokens) ∧
    writeProducts (writeProducts tokens) = writeProducts tokens := by
  intro needed
  have hwritten : writeProducts tokens = writeSigns needed tokens :=
    Juncture.writeProducts_eq_writeSigns {} tokens
  have hagain : ∀ chosen : Nat → Bool, (∀ i, chosen i = true → needed i = true) →
      writeProducts (writeSigns chosen tokens) = writeProducts tokens :=
    fun _ => Juncture.writeProducts_writeSigns {}
  refine ⟨⟨hwritten, filter_noteSigns needed tokens, fun entry =>
    eq_times_of_mem_noteSigns needed tokens⟩, fun chosen hchosen => ⟨hagain chosen hchosen, ?_⟩, ?_⟩
  · exact parse_eq_of_writeProducts_eq (invalid_mem_writeSigns_iff chosen tokens)
      (hagain chosen hchosen)
  · calc writeProducts (writeProducts tokens)
        = writeProducts (writeSigns needed tokens) := by rw [← hwritten]
      _ = writeProducts tokens := hagain needed fun _ hi => hi

/-- In `2x|x|x)` a product is to be written before the first `x`, before the bar that opens, and
after the one that closes. The second of them is written by hand. -/
theorem parse_writeSigns_bars :
    let x : Token := .var .bound
    let tokens : List Token :=
      [.number 2, x, .symbol .bar, x, .symbol .bar, x, .symbol .closeParen]
    let chosen (i : Nat) : Bool := i == 2
    (∀ i, chosen i = true → Juncture.needsProductAt {} tokens i = true) ∧
      writeSigns chosen tokens = [.number 2, x, .symbol .times, .symbol .bar, x, .symbol .bar, x,
        .symbol .closeParen] ∧
      writeProducts (writeSigns chosen tokens) = [.number 2, .symbol .times, x, .symbol .times,
        .symbol .bar, x, .symbol .bar, .symbol .times, x, .symbol .closeParen] ∧
      parse (writeSigns chosen tokens) = parse tokens := by
  intro x tokens chosen
  have hchosen : ∀ i, chosen i = true → Juncture.needsProductAt {} tokens i = true := by
    intro i hi
    obtain rfl : i = 2 := beq_iff_eq.mp hi
    rfl
  obtain ⟨hwritten, hparse⟩ := (parse_writeSigns tokens).2.1 chosen hchosen
  exact ⟨hchosen, rfl, hwritten.trans rfl, hparse⟩

end Formulary
