import Formulary.Proofs.Cuts

/-!
# Separators

Most characters stand alone : a lexeme of several characters is made of digits, points and the
letters of functions, and any other character is a lexeme on its own (`isJoining`). A text may be
cut there, and its two sides have nothing to do with each other.

* `Cut.append` : the cuts of the two sides, put together.
* `lexemeTokens_append_cons` : the tokens of the two sides, and between them those of the character.
* `tokenize_eq_flatMap` : so the context of a capital sigma has no bearing on the tokens. In lower
  case it is one of two letters, and both stand alone and belong to no formula.
* `tokenize_append_separator` : blanks and symbols, in a text that is not yet in lower case.
-/

namespace Formulary

open Text

/-! ## Characters that stand alone -/

/-- The characters that lexemes of several characters are made of. -/
def isJoining (c : Char) : Bool :=
  Numeral.isPart c || MathFunction.all.any (·.letters.contains c)

section Characters

variable {c : Char}

theorem isPart_of_not_joining (h : isJoining c = false) : Numeral.isPart c = false :=
  (Bool.or_eq_false_iff.mp h).1

theorem not_mem_letters_of_not_joining (h : isJoining c = false) (f : MathFunction) :
    c ∉ f.letters := by
  have hall := List.any_eq_false.mp (Bool.or_eq_false_iff.mp h).2 f f.mem_all
  simpa using hall

/-- Digits are parts of numerals. -/
theorem isDigit_of_not_joining (h : isJoining c = false) : c.isDigit = false :=
  (Bool.or_eq_false_iff.mp (isPart_of_not_joining h)).1

theorem isJoining_of_isBlank (h : isBlank c = true) : isJoining c = false := by
  have hletters (f : MathFunction) : f.letters.all (!isBlank ·) = true := by cases f <;> decide
  refine Bool.or_eq_false_iff.mpr ⟨?_, List.any_eq_false.mpr fun f _ => ?_⟩
  · refine Bool.eq_false_iff.mpr fun hpart => ?_
    exact Bool.noConfusion (h.symm.trans (isBlank_of_isPart hpart))
  · rw [List.contains_iff_mem]
    intro hmem
    have hnot := List.all_eq_true.mp (hletters f) c hmem
    rw [h] at hnot
    cases hnot

theorem Symbol.isJoining_char (sign : Symbol) : isJoining sign.char = false := by
  cases sign <;> decide

end Characters

namespace Lexeme

variable {c d : Char} {text after rest : List Char} {l : Lexeme}

/-- A lexeme that has a character that stands alone is that character. -/
theorem text_eq_singleton (hc : isJoining c = false) (h : l.IsRegular after) (hmem : c ∈ l.text) :
    l.text = [c] := by
  cases l with
  | blank d | symbol d | var d => exact congrArg (fun d => [d]) (List.mem_singleton.mp hmem).symm
  | function f => exact absurd hmem (not_mem_letters_of_not_joining hc f)
  | reference digits =>
    rcases List.mem_cons.mp hmem with rfl | hdigit
    · exact absurd hc (by decide)
    · exact nomatch (isDigit_of_not_joining hc).symm.trans (h.forall_mem c hdigit)
  | numeral run => exact nomatch (isPart_of_not_joining hc).symm.trans (h.forall_mem c hmem)
  | stray d => exact h.elim

/-- A run ends before such a character as it ends before the end of the text. -/
theorem isRun_append_iff {p : Char → Bool} {run : List Char} (hc : p c = false) :
    IsRun p run (after ++ c :: rest) ↔ IsRun p run after := by
  have hhead : (∀ d ∈ (after ++ c :: rest).head?, p d = false) ↔
      ∀ d ∈ after.head?, p d = false := by
    cases after with
    | nil => simp [hc]
    | cons d after => rfl
  exact ⟨fun h => ⟨h.ne_nil, h.forall_mem, hhead.mp h.forall_head⟩,
    fun h => ⟨h.ne_nil, h.forall_mem, hhead.mpr h.forall_head⟩⟩

theorem isRegular_append_iff (hc : isJoining c = false) :
    l.IsRegular (after ++ c :: rest) ↔ l.IsRegular after := by
  cases l with
  | reference digits => exact isRun_append_iff (isDigit_of_not_joining hc)
  | numeral run => exact isRun_append_iff (isPart_of_not_joining hc)
  | _ => exact Iff.rfl

/-- No lexeme that begins before such a character goes on beyond it. -/
theorem exists_eq_append (hc : isJoining c = false) (h : l.IsRegular after)
    (htext : l.text ++ after = d :: text ++ c :: rest) :
    ∃ left, l.text ++ left = d :: text ∧ after = left ++ c :: rest := by
  rcases List.append_eq_append_iff.mp htext with ⟨left, hleft, hafter⟩ | ⟨more, hmore, hrest⟩
  · exact ⟨left, hleft.symm, hafter⟩
  · cases more with
    | nil => exact ⟨[], by rw [hmore, List.append_nil, List.append_nil], hrest.symm⟩
    | cons e more =>
      obtain ⟨rfl, -⟩ := List.cons.inj hrest
      have hsingle := text_eq_singleton hc h (by rw [hmore]; simp)
      simp [hmore] at hsingle

/-- What fits in front of the end of a text fits in front of a character that stands alone. -/
theorem Fits.append (hc : isJoining c = false) (h : l.Fits after) (rest : List Char) :
    l.Fits (after ++ c :: rest) := by
  cases l with
  | stray d =>
    intro other rest' hother hsame
    obtain ⟨left, hleft, rfl⟩ := exists_eq_append hc hother hsame
    exact h other left ((isRegular_append_iff hc).mp hother) hleft
  | _ =>
    refine IsRegular.fits ((isRegular_append_iff hc).mpr ?_)
    exact h

end Lexeme

/-! ## The two sides -/

section Sides

variable {c : Char} {text rest : List Char}

theorem Cut.append {lexemes more : List Lexeme} (hc : isJoining c = false)
    (htext : Cut text lexemes) (hrest : Cut (c :: rest) more) :
    Cut (text ++ c :: rest) (lexemes ++ more) := by
  induction htext with
  | nil => exact hrest
  | cons first hfirst _ ih =>
    rw [List.append_assoc]
    exact .cons first (hfirst.append hc rest) ih

theorem functionAhead_of_not_joining (hc : isJoining c = false) (rest : List Char) :
    functionAhead (c :: rest) = none := by
  cases hahead : functionAhead (c :: rest) with
  | none => rfl
  | some found =>
    obtain ⟨f, after⟩ := found
    have htext := eq_append_of_functionAhead hahead
    have hmem : c ∈ f.letters := by
      cases f <;>
      · obtain ⟨rfl, -⟩ := List.cons.inj htext
        exact List.mem_cons_self
    exact absurd hmem (not_mem_letters_of_not_joining hc f)

/-- The lexeme at a character that stands alone is the same whatever comes after it. -/
theorem lexeme_of_not_joining (hc : isJoining c = false) (rest : List Char) :
    lexeme c rest = ((lexeme c []).1, rest) := by
  have hf : (c == 'f') = false := by
    refine beq_eq_false_iff_ne.mpr ?_
    rintro rfl
    exact absurd hc (by decide)
  simp only [lexeme, isPart_of_not_joining hc, hf, functionAhead_of_not_joining hc, Bool.false_and,
    Bool.false_eq_true, if_false]
  cases isBlank c <;> cases Symbol.ofChar? c <;> cases Variable.ofChar? c <;> rfl

/-- The tokens of a text are those of the two sides of a character that stands alone, with its own
between them. -/
theorem lexemeTokens_append_cons (hc : isJoining c = false) (text rest : List Char) :
    lexemeTokens (text ++ c :: rest) =
      lexemeTokens text ++ (lexeme c []).1.toList ++ lexemeTokens rest := by
  obtain ⟨lexemes, htext⟩ := exists_cut text
  obtain ⟨more, hrest⟩ := exists_cut (c :: rest)
  rw [(htext.append hc hrest).lexemeTokens_eq, List.filterMap_append, ← htext.lexemeTokens_eq,
    ← hrest.lexemeTokens_eq, lexemeTokens_cons, lexeme_of_not_joining hc, List.append_assoc]

end Sides

/-! ## Lower case -/

/-- A capital sigma in any context yields the same tokens. -/
theorem lexemeTokens_append_lowerFrom (text : List Char) (afterCased : Bool) (cs : List Char) :
    lexemeTokens (text ++ lowerFrom afterCased cs) =
      lexemeTokens (text ++ cs.flatMap lowerChar) := by
  induction cs generalizing text afterCased with
  | nil => rfl
  | cons c rest ih =>
    rw [lowerFrom, List.flatMap_cons]
    by_cases hc : c = 'Σ'
    · subst hc
      have hrest (afterCased : Bool) : lexemeTokens (lowerFrom afterCased rest) =
          lexemeTokens (rest.flatMap lowerChar) := ih [] afterCased
      have hlower : lowerChar 'Σ' = ['σ'] := by decide +kernel
      rw [if_pos rfl, hlower, List.singleton_append, List.singleton_append,
        lexemeTokens_append_cons (c := 'σ') (by decide), ← hrest]
      -- The small sigma is one letter or the other, and there is no telling them apart.
      have hfinal : (lexeme 'ς' []).1 = (lexeme 'σ' []).1 := by decide +kernel
      split
      · rw [lexemeTokens_append_cons (c := 'ς') (by decide), hfinal]
      · exact lexemeTokens_append_cons (c := 'σ') (by decide) text _
    · rw [if_neg hc, ← List.append_assoc, ih, List.append_assoc]

/-- The tokens of a text are those of its characters, each in lower case on its own. -/
theorem tokenize_eq_flatMap (text : String) :
    tokenize text = lexemeTokens (text.toList.flatMap lowerChar) :=
  lexemeTokens_append_lowerFrom [] false text.toList

theorem lowerChar_of_isWhitespace {c : Char} (h : isWhitespace c = true) : lowerChar c = [c] := by
  have hall : ∀ range ∈ whitespaceRanges,
      ∀ n ∈ List.range' range.first (range.last + 1 - range.first),
        lowerChar (Char.ofNat n) = [Char.ofNat n] := by
    decide +kernel
  obtain ⟨range, hrange, hholds⟩ := List.any_eq_true.mp h
  simp only [CodeRange.holds, Bool.and_eq_true, decide_eq_true_eq] at hholds
  have hc := hall range hrange c.toNat (List.mem_range'_1.mpr (by omega))
  rwa [Char.ofNat_toNat] at hc

/-- A character between the operands of a formula : a blank, or a symbol. -/
def IsSeparator (c : Char) : Prop :=
  (c = '\x00' ∨ isWhitespace c = true) ∨ ∃ sign : Symbol, c = sign.char

namespace IsSeparator

variable {c : Char}

theorem isJoining_eq (h : IsSeparator c) : isJoining c = false := by
  rcases h with hblank | ⟨sign, rfl⟩
  · exact isJoining_of_isBlank (isBlank_iff.mpr hblank)
  · exact sign.isJoining_char

theorem lowerChar_eq (h : IsSeparator c) : lowerChar c = [c] := by
  rcases h with (rfl | hspace) | ⟨sign, rfl⟩
  · decide
  · exact lowerChar_of_isWhitespace hspace
  · cases sign <;> decide

/-- The tokens of a separator are those of the lexeme that it is. -/
theorem tokenize_singleton (h : IsSeparator c) :
    tokenize (String.singleton c) = (lexeme c []).1.toList := by
  rw [tokenize_eq_flatMap, String.toList_singleton, List.flatMap_singleton, h.lowerChar_eq,
    lexemeTokens_cons, lexeme_of_not_joining h.isJoining_eq, lexemeTokens_nil, List.append_nil]

end IsSeparator

/-- A text may be cut at any separator. Its tokens are those of the left side, of the separator and
of the right side, each read on its own, with nothing for a blank and one symbol otherwise. -/
theorem tokenize_append_separator (left right : String) {c : Char} (h : IsSeparator c) :
    tokenize (left ++ String.singleton c ++ right) =
      tokenize left ++ tokenize (String.singleton c) ++ tokenize right ∧
    (c = '\x00' ∨ isWhitespace c = true → tokenize (String.singleton c) = []) ∧
    ∀ sign : Symbol, c = sign.char → tokenize (String.singleton c) = [.symbol sign] := by
  refine ⟨?_, fun hblank => ?_, ?_⟩
  · have hlower : (left ++ String.singleton c ++ right).toList.flatMap lowerChar =
        left.toList.flatMap lowerChar ++ c :: right.toList.flatMap lowerChar := by
      simp only [String.toList_append, String.toList_singleton, List.flatMap_append,
        List.flatMap_cons, h.lowerChar_eq, List.append_assoc, List.singleton_append]
    rw [tokenize_eq_flatMap, hlower, lexemeTokens_append_cons h.isJoining_eq,
      ← tokenize_eq_flatMap, ← tokenize_eq_flatMap, h.tokenize_singleton]
  · rw [h.tokenize_singleton, lexeme, if_pos (isBlank_iff.mpr hblank)]
    rfl
  · rintro sign rfl
    rw [h.tokenize_singleton]
    cases sign <;> rfl

/-- The sigma at the end of the left side becomes another letter before the right side than it is
on its own, since a caret is looked past there, and yet the tokens are the same. -/
theorem tokenize_append_separator_sigma :
    IsSeparator '^' ∧
      lowerCase ("AΣ" ++ String.singleton '^' ++ "Co1.2.") ≠
        lowerCase "AΣ" ++ lowerCase (String.singleton '^') ++ lowerCase "Co1.2." ∧
      tokenize ("AΣ" ++ String.singleton '^' ++ "Co1.2.") =
        [.invalid, .invalid] ++ [.symbol .power] ++ [.invalid, .invalid, .invalid] := by
  have h : IsSeparator '^' := .inr ⟨.power, rfl⟩
  obtain ⟨happend, -, hsign⟩ := tokenize_append_separator "AΣ" "Co1.2." h
  have hleft : tokenize "AΣ" = [.invalid, .invalid] := by decide +kernel
  have hright : tokenize "Co1.2." = [.invalid, .invalid, .invalid] := by decide +kernel
  refine ⟨h, by decide +kernel, ?_⟩
  rw [happend, hleft, hright, hsign .power rfl]

end Formulary
