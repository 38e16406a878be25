import Formulary.Numeral
import Formulary.Text.LowerCase
import Formulary.Token

/-!
# Lexemes

`tokenize` reads a text, in lower case, from left to right as consecutive lexemes. A lexeme is
a blank, which yields no token, a symbol, a value name, a numeral, a reference (`f` and the
digits of a number), the letters of a function, or, where none of these begins, a single
character that is invalid. Numerals and references extend to the right as far as they can, and
one that writes no number is invalid as a whole. Nothing needs to stand between two lexemes.

Reading never fails and always moves on (`length_lexeme_le`) : an invalid lexeme is a token like
any other, and the text after it is read all the same.
-/

namespace Formulary

open Text

/-- A character between lexemes : white space, or NUL. -/
def isBlank (c : Char) : Bool :=
  c == '\x00' || isWhitespace c

/-- The token of a run of digits or points. -/
def numeralToken (run : List Char) : Token :=
  match Numeral.value? run with
  | some value => .number value
  | none => .invalid

/-- The token of `f` and these digits. Numbers from `2 ^ 32` on are filed nowhere. -/
def referenceToken (digits : List Char) : Token :=
  let id := Nat.ofDigitChars 10 digits 0
  if id < UInt32.size then .reference (UInt32.ofNat id) else .invalid

/-- The function whose letters the text begins with, and the text after them. -/
def functionAhead (text : List Char) : Option (MathFunction × List Char) :=
  MathFunction.all.findSome? fun f => (f.letters.isPrefixOf? text).map (f, ·)

/-- The lexeme at the head of the text `c :: rest` : its token, if it has one, and the text
after it. -/
def lexeme (c : Char) (rest : List Char) : Option Token × List Char :=
  if isBlank c then (none, rest)
  else match Symbol.ofChar? c with
  | some sign => (some (.symbol sign), rest)
  | none => match Variable.ofChar? c with
  | some name => (some (.var name), rest)
  | none =>
    if Numeral.isPart c then
      (some (numeralToken (c :: rest.takeWhile Numeral.isPart)), rest.dropWhile Numeral.isPart)
    else if c == 'f' && rest.head?.any Char.isDigit then
      (some (referenceToken (rest.takeWhile Char.isDigit)), rest.dropWhile Char.isDigit)
    else match functionAhead (c :: rest) with
    | some (f, after) => (some (.function f), after)
    | none => (some .invalid, rest)

theorem append_of_isPrefixOf? {letters text after : List Char}
    (h : letters.isPrefixOf? text = some after) : text = letters ++ after := by
  induction letters generalizing text with
  | nil => exact Option.some.inj h
  | cons c letters ih =>
    cases text with
    | nil => cases h
    | cons d text =>
      have hstep : (c :: letters).isPrefixOf? (d :: text) =
          if c == d then letters.isPrefixOf? text else none := rfl
      simp only [hstep, beq_iff_eq, Option.ite_none_right_eq_some] at h
      obtain ⟨rfl, h⟩ := h
      rw [ih h, List.cons_append]

/-- A function ahead is spelt out by its letters. -/
theorem eq_append_of_functionAhead {text after : List Char} {f : MathFunction}
    (h : functionAhead text = some (f, after)) : text = f.letters ++ after := by
  obtain ⟨g, -, hg⟩ := List.exists_of_findSome?_eq_some h
  obtain ⟨rest, hrest, heq⟩ := Option.map_eq_some_iff.mp hg
  obtain ⟨rfl, rfl⟩ := Prod.mk.inj heq
  exact append_of_isPrefixOf? hrest

/-- A lexeme takes at least its first character. -/
theorem length_lexeme_le (c : Char) (rest : List Char) :
    (lexeme c rest).2.length ≤ rest.length := by
  have hdrop (p : Char → Bool) := (List.dropWhile_sublist (l := rest) p).length_le
  unfold lexeme
  split
  · exact Nat.le_refl _
  split
  · exact Nat.le_refl _
  split
  · exact Nat.le_refl _
  split
  · exact hdrop _
  split
  · exact hdrop _
  split
  · next f after h =>
    have hlen := congrArg List.length (eq_append_of_functionAhead h)
    cases f <;> simp [MathFunction.letters] at hlen ⊢ <;> omega
  · exact Nat.le_refl _

/-- The tokens of the lexemes of a text in lower case. -/
def lexemeTokens : List Char → List Token
  | [] => []
  | c :: rest => (lexeme c rest).1.toList ++ lexemeTokens (lexeme c rest).2
termination_by text => text.length
decreasing_by exact Nat.lt_succ_of_le (length_lexeme_le c rest)

/-- The tokens of a text. -/
def tokenize (text : String) : List Token :=
  lexemeTokens (lowerCase text)

@[simp] theorem lexemeTokens_nil : lexemeTokens [] = [] := by
  rw [lexemeTokens]

theorem lexemeTokens_cons (c : Char) (rest : List Char) :
    lexemeTokens (c :: rest) = (lexeme c rest).1.toList ++ lexemeTokens (lexeme c rest).2 := by
  rw [lexemeTokens]

end Formulary
