import Mathlib.Data.List.TakeWhile
import Formulary.Lexeme

/-!
# How a text is cut

A `Lexeme` is a piece of a text, with the kind that it is of. `Lexeme.text` is what it is written
with, `Lexeme.token?` is the token that it stands for, and `Lexeme.Fits` says in front of which
texts it may stand : a run goes on for as long as it can, and a stray character is left where
nothing else begins. A `Cut` of a text is a way to read it, from left to right, as lexemes with
nothing between them. None of this mentions the reader.

* `Lexeme.exists_fits_ahead` : the lexeme that the reader takes is one that fits.
* `Lexeme.eq_ahead_of_fits` : no other fits.
* `tokenize_eq_of_cut` : a text has a single cut, and its tokens are those of the lexemes.
-/

namespace Formulary

open Text

/-! ## Lexemes -/

/-- The character that the symbol is written with. -/
def Symbol.char : Symbol → Char
  | plus => '+'
  | minus => '-'
  | times => '*'
  | divide => '/'
  | power => '^'
  | openParen => '('
  | closeParen => ')'
  | bar => '|'

/-- The character that the value is written with. -/
def Variable.char : Variable → Char
  | bound => 'x'
  | pi => 'π'
  | e => 'e'

/-- A piece of a text. -/
inductive Lexeme where
  /-- A character between the others. -/
  | blank (c : Char)
  | symbol (sign : Symbol)
  | var (name : Variable)
  | function (f : MathFunction)
  /-- The letter `f` with digits after it. -/
  | reference (digits : List Char)
  /-- Digits and points. -/
  | numeral (run : List Char)
  /-- A character that belongs to no formula. -/
  | stray (c : Char)
  deriving DecidableEq, Repr

/-- The characters of `run` are of a class that the text after them does not go on with. -/
structure IsRun (p : Char → Bool) (run after : List Char) : Prop where
  ne_nil : run ≠ []
  forall_mem : ∀ c ∈ run, p c = true
  forall_head : ∀ c ∈ after.head?, p c = false

/-- The value of digits with one point at most : all of them as a whole number, and a tenth for
each one after the point. -/
def decimalValue (run : List Char) : Float :=
  Float.ofScientific (Nat.ofDigitChars 10 (run.filter Char.isDigit) 0) true
    (run.dropWhile (· != '.')).tail.length

namespace Lexeme

/-- The characters of the lexeme. -/
def text : Lexeme → List Char
  | blank c | stray c => [c]
  | symbol sign => [sign.char]
  | var name => [name.char]
  | function f => f.letters
  | reference digits => 'f' :: digits
  | numeral run => run

/-- The token of the lexeme. -/
def token? : Lexeme → Option Token
  | blank _ => none
  | symbol sign => some (.symbol sign)
  | var name => some (.var name)
  | function f => some (.function f)
  | reference digits =>
    let id := Nat.ofDigitChars 10 digits 0
    some (if id < UInt32.size then .reference (.ofNat id) else .invalid)
  | numeral run =>
    some (if run.count '.' ≤ 1 then .number (decimalValue ('0' :: run)) else .invalid)
  | stray _ => some .invalid

/-- The lexeme is no stray character, and may stand in front of the text. -/
def IsRegular (after : List Char) : Lexeme → Prop
  | blank c => c = '\x00' ∨ isWhitespace c = true
  | symbol _ | var _ | function _ => True
  | reference digits => IsRun Char.isDigit digits after
  | numeral run => IsRun (fun c => c.isDigit || c == '.') run after
  | stray _ => False

/-- The lexeme may stand in front of the text. -/
def Fits (after : List Char) : Lexeme → Prop
  | stray c => ∀ (other : Lexeme) (rest : List Char), other.IsRegular rest →
    other.text ++ rest ≠ c :: after
  | regular => regular.IsRegular after

end Lexeme

/-- The text is made up of these lexemes, each one in front of those after it. -/
inductive Cut : List Char → List Lexeme → Prop where
  | nil : Cut [] []
  | cons {after : List Char} {lexemes : List Lexeme} (first : Lexeme) (hfirst : first.Fits after)
    (hafter : Cut after lexemes) : Cut (first.text ++ after) (first :: lexemes)

/-! ## Runs -/

namespace IsRun

variable {p : Char → Bool} {c : Char} {run after rest : List Char}

theorem of_takeWhile (h : rest.takeWhile p ≠ []) :
    IsRun p (rest.takeWhile p) (rest.dropWhile p) where
  ne_nil := h
  forall_mem _ := List.mem_takeWhile_imp
  forall_head d hd := by
    have hnot := List.head?_dropWhile_not p rest
    rw [hd] at hnot
    exact hnot

theorem cons_takeWhile (h : p c = true) (rest : List Char) :
    IsRun p (c :: rest.takeWhile p) (rest.dropWhile p) := by
  have htake : (c :: rest).takeWhile p = c :: rest.takeWhile p := List.takeWhile_cons_of_pos h
  have hdrop : (c :: rest).dropWhile p = rest.dropWhile p := List.dropWhile_cons_of_pos h
  rw [← htake, ← hdrop]
  exact of_takeWhile (htake ▸ List.cons_ne_nil _ _)

theorem takeWhile_append (h : IsRun p run after) : (run ++ after).takeWhile p = run := by
  have hafter : after.takeWhile p = [] := by
    cases after with
    | nil => rfl
    | cons d after => rw [List.takeWhile_cons, h.forall_head d rfl]; rfl
  rw [List.takeWhile_append_of_pos h.forall_mem, hafter, List.append_nil]

end IsRun

/-! ## Characters -/

section Characters

variable {c : Char}

theorem Symbol.ofChar?_eq_some_iff {sign : Symbol} : ofChar? c = some sign ↔ c = sign.char := by
  refine ⟨fun h => ?_, fun h => ?_⟩
  · unfold ofChar? at h
    split at h <;> cases h <;> rfl
  · subst h
    cases sign <;> rfl

theorem Variable.ofChar?_eq_some_iff {name : Variable} : ofChar? c = some name ↔ c = name.char := by
  refine ⟨fun h => ?_, fun h => ?_⟩
  · unfold ofChar? at h
    split at h <;> cases h <;> rfl
  · subst h
    cases name <;> rfl

theorem isBlank_iff : isBlank c = true ↔ c = '\x00' ∨ isWhitespace c = true := by
  simp [isBlank]

/-- No numeral begins with a blank. -/
theorem isBlank_of_isPart (h : Numeral.isPart c = true) : isBlank c = false := by
  have hc : 46 ≤ c.toNat ∧ c.toNat ≤ 57 := by
    rcases Bool.or_eq_true .. ▸ h with hdigit | hpoint
    · simp only [Char.isDigit, ge_iff_le, Bool.and_eq_true, decide_eq_true_eq,
        UInt32.le_iff_toNat_le] at hdigit
      exact ⟨Nat.le_trans (by decide) hdigit.1, hdigit.2⟩
    · rw [beq_iff_eq] at hpoint
      subst hpoint
      decide
  rw [Bool.eq_false_iff, ne_eq, isBlank_iff]
  rintro (rfl | hspace)
  · exact absurd hc.1 (by decide)
  · simp only [isWhitespace, inRanges, whitespaceRanges, CodeRange.holds, List.any_cons,
      List.any_nil, Bool.or_false, Bool.or_eq_true, Bool.and_eq_true, decide_eq_true_eq] at hspace
    omega

theorem symbolOfChar?_of_isPart (h : Numeral.isPart c = true) : Symbol.ofChar? c = none := by
  cases hsign : Symbol.ofChar? c with
  | none => rfl
  | some sign =>
    obtain rfl := Symbol.ofChar?_eq_some_iff.mp hsign
    cases sign <;> exact absurd h (by decide)

theorem variableOfChar?_of_isPart (h : Numeral.isPart c = true) : Variable.ofChar? c = none := by
  cases hname : Variable.ofChar? c with
  | none => rfl
  | some name =>
    obtain rfl := Variable.ofChar?_eq_some_iff.mp hname
    cases name <;> exact absurd h (by decide)

end Characters

/-! ## Numerals -/

namespace Numeral

variable {run whole : List Char}

theorem bne_point (h : '.' ∉ whole) : ∀ c ∈ whole, (c != '.') = true := by
  intro c hc
  rw [bne_iff_ne]
  rintro rfl
  exact h hc

theorem filter_isDigit (h : ∀ c ∈ run, isPart c = true) (hpoint : '.' ∉ run) :
    run.filter Char.isDigit = run := by
  refine List.filter_eq_self.mpr fun c hc => ?_
  have hne : (c == '.') = false := by simpa using bne_point hpoint c hc
  have hpart := h c hc
  rwa [isPart, hne, Bool.or_false] at hpart

/-- What stands before and after the first point. -/
theorem span_append_point (h : '.' ∉ whole) (fraction : List Char) :
    (whole ++ '.' :: fraction).takeWhile (· != '.') = whole ∧
      (whole ++ '.' :: fraction).dropWhile (· != '.') = '.' :: fraction := by
  have hne := bne_point h
  rw [List.takeWhile_append_of_pos hne, List.dropWhile_append_of_pos hne]
  exact ⟨List.append_nil whole, rfl⟩

/-- A run with one point at most has the value of its digits, and no other run has any. -/
theorem value?_eq_decimalValue (h : ∀ c ∈ run, isPart c = true) :
    value? run = if run.count '.' ≤ 1 then some (decimalValue ('0' :: run)) else none := by
  have hzero : decimalValue ('0' :: run) = decimalValue run := rfl
  rw [hzero]
  by_cases hpoint : '.' ∈ run
  · obtain ⟨whole, fraction, rfl, hwhole⟩ := List.eq_append_cons_of_mem hpoint
    obtain ⟨htake, hdrop⟩ := span_append_point hwhole fraction
    have hcount : (whole ++ '.' :: fraction).count '.' = fraction.count '.' + 1 := by
      rw [List.count_append, List.count_eq_zero.mpr hwhole, List.count_cons_self, Nat.zero_add]
    by_cases hfraction : '.' ∈ fraction
    · have hpos := List.count_pos_iff.mpr hfraction
      rw [if_neg (by omega), value?_eq_none_iff]
      omega
    · have hdigits : (whole ++ '.' :: fraction).filter Char.isDigit = whole ++ fraction := by
        have hparts := List.forall_mem_append.mp h
        rw [List.filter_append, filter_isDigit hparts.1 hwhole,
          List.filter_cons_of_neg (by decide),
          filter_isDigit (fun c hc => hparts.2 c (List.mem_cons_of_mem _ hc)) hfraction]
      rw [if_pos (by rw [hcount, List.count_eq_zero.mpr hfraction]), decimalValue, hdigits, hdrop]
      simp only [value?, htake, hdrop, List.contains_eq_mem, hfraction, decide_false,
        Bool.false_eq_true, if_false, decimal, List.tail_cons]
  · rw [if_pos (by rw [List.count_eq_zero.mpr hpoint]; exact Nat.zero_le 1),
      value?_of_not_mem hpoint, decimal, decimalValue, filter_isDigit h hpoint, List.append_nil,
      List.dropWhile_eq_nil_iff.mpr (bne_point hpoint)]
    rfl

end Numeral

theorem numeralToken_eq {run : List Char} (h : ∀ c ∈ run, Numeral.isPart c = true) :
    numeralToken run =
      if run.count '.' ≤ 1 then .number (decimalValue ('0' :: run)) else .invalid := by
  rw [numeralToken, Numeral.value?_eq_decimalValue h]
  by_cases hcount : run.count '.' ≤ 1
  · rw [if_pos hcount, if_pos hcount]
  · rw [if_neg hcount, if_neg hcount]

/-! ## The lexeme that is read -/

/-- The lexeme that the reader takes at the head of the text `c :: rest`. -/
def Lexeme.ahead (c : Char) (rest : List Char) : Lexeme :=
  if isBlank c then .blank c
  else match Symbol.ofChar? c with
  | some sign => .symbol sign
  | none => match Variable.ofChar? c with
  | some name => .var name
  | none =>
    if Numeral.isPart c then .numeral (c :: rest.takeWhile Numeral.isPart)
    else if c == 'f' && rest.head?.any Char.isDigit then .reference (rest.takeWhile Char.isDigit)
    else match functionAhead (c :: rest) with
    | some (f, _) => .function f
    | none => .stray c

namespace Lexeme

variable {c : Char} {rest after : List Char} {l : Lexeme}

theorem ahead_of_digit (h : rest.head?.any Char.isDigit = true) :
    ahead 'f' rest = .reference (rest.takeWhile Char.isDigit) := by
  have hahead : ahead 'f' rest =
      if rest.head?.any Char.isDigit then .reference (rest.takeWhile Char.isDigit)
      else match functionAhead ('f' :: rest) with
      | some (f, _) => .function f
      | none => .stray 'f' := rfl
  rw [hahead, if_pos h]

theorem ahead_of_isPart (h : Numeral.isPart c = true) :
    ahead c rest = .numeral (c :: rest.takeWhile Numeral.isPart) := by
  simp only [ahead, isBlank_of_isPart h, symbolOfChar?_of_isPart h, variableOfChar?_of_isPart h, h,
    Bool.false_eq_true, if_false, if_true]

/-- A lexeme that is regular is the one that is read : its first character gives it away, or its
first two if it begins with an `f`. -/
theorem eq_ahead_of_isRegular (h : l.IsRegular after) (htext : l.text ++ after = c :: rest) :
    l = ahead c rest := by
  cases l with
  | blank d =>
    obtain ⟨rfl, rfl⟩ := List.cons.inj htext
    rw [ahead, if_pos (isBlank_iff.mpr h)]
  | symbol sign =>
    obtain ⟨rfl, rfl⟩ := List.cons.inj htext
    cases sign <;> rfl
  | var name =>
    obtain ⟨rfl, rfl⟩ := List.cons.inj htext
    cases name <;> rfl
  | function f =>
    cases f <;>
    · obtain ⟨rfl, rfl⟩ := List.cons.inj htext
      rfl
  | reference digits =>
    obtain ⟨rfl, hrest⟩ : 'f' = c ∧ digits ++ after = rest := List.cons.inj htext
    subst hrest
    obtain ⟨d, digits, rfl⟩ := List.exists_cons_of_ne_nil h.ne_nil
    have hdigit : (d :: digits ++ after).head?.any Char.isDigit = true :=
      h.forall_mem d List.mem_cons_self
    rw [ahead_of_digit hdigit, h.takeWhile_append]
  | numeral run =>
    obtain ⟨d, run, rfl⟩ := List.exists_cons_of_ne_nil h.ne_nil
    obtain ⟨rfl, hrest⟩ : d = c ∧ run ++ after = rest := List.cons.inj htext
    subst hrest
    have hpart : Numeral.isPart d = true := h.forall_mem d List.mem_cons_self
    have hrun : (d :: (run ++ after)).takeWhile Numeral.isPart = d :: run := h.takeWhile_append
    rw [List.takeWhile_cons_of_pos hpart] at hrun
    rw [ahead_of_isPart hpart, hrun]
  | stray d => exact h.elim

/-- The reader takes the lexeme ahead off the text, one that is regular if there is any. -/
theorem lexeme_eq (c : Char) (rest : List Char) :
    ∃ after, lexeme c rest = ((ahead c rest).token?, after) ∧
      (ahead c rest).text ++ after = c :: rest ∧
      ((ahead c rest).IsRegular after ∨ ahead c rest = .stray c) := by
  fun_cases ahead c rest with
  | case1 hblank =>
    refine ⟨rest, ?_, rfl, .inl (isBlank_iff.mp hblank)⟩
    rw [lexeme, if_pos hblank, token?]
  | case2 hblank sign hsign =>
    refine ⟨rest, ?_, ?_, .inl trivial⟩
    · rw [lexeme, if_neg hblank, hsign, token?]
    · exact congrArg (· :: rest) (Symbol.ofChar?_eq_some_iff.mp hsign).symm
  | case3 hblank hsign name hname =>
    refine ⟨rest, ?_, ?_, .inl trivial⟩
    · rw [lexeme, if_neg hblank, hsign, hname, token?]
    · exact congrArg (· :: rest) (Variable.ofChar?_eq_some_iff.mp hname).symm
  | case4 hblank hsign hname hpart =>
    have hrun := IsRun.cons_takeWhile hpart rest
    refine ⟨rest.dropWhile Numeral.isPart, ?_, ?_, .inl hrun⟩
    · rw [lexeme, if_neg hblank, hsign, hname]
      simp only [hpart, if_true, token?, numeralToken_eq hrun.forall_mem]
    · exact congrArg (c :: ·) List.takeWhile_append_dropWhile
  | case5 hblank hsign hname hpart hreference =>
    obtain ⟨hf, hdigit⟩ := Bool.and_eq_true_iff.mp hreference
    obtain rfl : c = 'f' := beq_iff_eq.mp hf
    have hrun : IsRun Char.isDigit (rest.takeWhile Char.isDigit) (rest.dropWhile Char.isDigit) := by
      cases rest with
      | nil => exact absurd hdigit (by decide)
      | cons d rest =>
        have hd : d.isDigit = true := hdigit
        rw [List.takeWhile_cons_of_pos hd, List.dropWhile_cons_of_pos hd]
        exact .cons_takeWhile hd rest
    refine ⟨rest.dropWhile Char.isDigit, ?_, ?_, .inl hrun⟩
    · rw [lexeme, if_neg hblank, hsign, hname]
      simp only [hpart, hreference, if_true, Bool.false_eq_true, if_false]
      rfl
    · exact congrArg ('f' :: ·) List.takeWhile_append_dropWhile
  | case6 hblank hsign hname hpart hreference f after hfunction =>
    refine ⟨after, ?_, (eq_append_of_functionAhead hfunction).symm, .inl trivial⟩
    rw [lexeme, if_neg hblank, hsign, hname]
    simp only [hpart, hreference, hfunction, token?, Bool.false_eq_true, if_false]
  | case7 hblank hsign hname hpart hreference hfunction =>
    refine ⟨rest, ?_, rfl, .inr rfl⟩
    rw [lexeme, if_neg hblank, hsign, hname]
    simp only [hpart, hreference, hfunction, token?, Bool.false_eq_true, if_false]

theorem IsRegular.fits (h : l.IsRegular after) : l.Fits after := by
  cases l with
  | stray d => exact h.elim
  | _ => exact h

/-- Where the reader takes a stray character, nothing else begins. -/
theorem fits_stray (h : ahead c rest = .stray c) : (stray c).Fits rest := by
  intro other rest' hother hsame
  rw [eq_ahead_of_isRegular hother hsame, h] at hother
  exact hother

/-- The lexeme ahead is taken off the text, and fits. -/
theorem exists_fits_ahead (c : Char) (rest : List Char) :
    ∃ after, lexeme c rest = ((ahead c rest).token?, after) ∧
      (ahead c rest).text ++ after = c :: rest ∧ (ahead c rest).Fits after := by
  obtain ⟨after, hlexeme, htext, hregular | hstray⟩ := lexeme_eq c rest
  · exact ⟨after, hlexeme, htext, hregular.fits⟩
  · refine ⟨after, hlexeme, htext, ?_⟩
    rw [hstray] at htext ⊢
    obtain ⟨-, rfl⟩ := List.cons.inj htext
    exact fits_stray hstray

theorem eq_ahead_of_fits (h : l.Fits after) (htext : l.text ++ after = c :: rest) :
    l = ahead c rest := by
  cases l with
  | stray d =>
    obtain ⟨left, -, hahead, hregular | hstray⟩ := lexeme_eq c rest
    · exact absurd (hahead.trans htext.symm) (h _ _ hregular)
    · obtain ⟨rfl, -⟩ := List.cons.inj htext
      exact hstray.symm
  | _ => exact eq_ahead_of_isRegular h htext

/-- A lexeme that fits is the one that is read. -/
theorem lexeme_of_fits (h : l.Fits after) (htext : l.text ++ after = c :: rest) :
    lexeme c rest = (l.token?, after) := by
  obtain ⟨left, hlexeme, hahead, -⟩ := lexeme_eq c rest
  rw [← eq_ahead_of_fits h htext] at hlexeme hahead
  rw [hlexeme, List.append_cancel_left (hahead.trans htext.symm)]

theorem text_ne_nil (h : l.Fits after) : l.text ≠ [] := by
  cases l with
  | function f => cases f <;> exact List.cons_ne_nil _ _
  | numeral run => exact h.ne_nil
  | _ => exact List.cons_ne_nil _ _

theorem exists_cons_of_fits (h : l.Fits after) : ∃ c rest, l.text ++ after = c :: rest :=
  List.exists_cons_of_ne_nil (List.append_ne_nil_of_left_ne_nil (text_ne_nil h) after)

end Lexeme

/-! ## Cuts -/

namespace Cut

variable {text : List Char} {lexemes others : List Lexeme}

theorem unique (h : Cut text lexemes) (hother : Cut text others) : others = lexemes := by
  induction h generalizing others with
  | nil =>
    generalize hnil : ([] : List Char) = text at hother
    cases hother with
    | nil => rfl
    | cons first hfirst _ =>
      obtain ⟨c, rest, hcons⟩ := first.exists_cons_of_fits hfirst
      exact nomatch hnil.trans hcons
  | @cons after lexemes first hfirst _ ih =>
    obtain ⟨c, rest, hcons⟩ := first.exists_cons_of_fits hfirst
    generalize htext : first.text ++ after = text at hother
    cases hother with
    | nil => exact nomatch hcons.symm.trans htext
    | @cons after' others first' hfirst' hafter' =>
      obtain rfl : first' = first :=
        (Lexeme.eq_ahead_of_fits hfirst' (htext.symm.trans hcons)).trans
          (Lexeme.eq_ahead_of_fits hfirst hcons).symm
      obtain rfl := List.append_cancel_left htext
      rw [ih hafter']

theorem lexemeTokens_eq (h : Cut text lexemes) :
    lexemeTokens text = lexemes.filterMap Lexeme.token? := by
  induction h with
  | nil => exact lexemeTokens_nil
  | cons first hfirst _ ih =>
    obtain ⟨c, rest, hcons⟩ := first.exists_cons_of_fits hfirst
    rw [hcons, lexemeTokens_cons, Lexeme.lexeme_of_fits hfirst hcons, ih]
    cases h : first.token? <;> simp [h]

theorem flatten_text (h : Cut text lexemes) : (lexemes.map Lexeme.text).flatten = text := by
  induction h with
  | nil => rfl
  | cons first _ _ ih => rw [List.map_cons, List.flatten_cons, ih]

theorem text_ne_nil (h : Cut text lexemes) : ∀ l ∈ lexemes, l.text ≠ [] := by
  induction h with
  | nil => exact fun _ hl => nomatch hl
  | cons first hfirst _ ih =>
    exact List.forall_mem_cons.mpr ⟨Lexeme.text_ne_nil hfirst, ih⟩

end Cut

theorem exists_cut (text : List Char) : ∃ lexemes, Cut text lexemes := by
  match text with
  | [] => exact ⟨[], .nil⟩
  | c :: rest =>
    obtain ⟨after, hlexeme, htext, hfits⟩ := Lexeme.exists_fits_ahead c rest
    have hlength : after.length ≤ rest.length := by
      simpa only [hlexeme] using length_lexeme_le c rest
    obtain ⟨lexemes, hcut⟩ := exists_cut after
    exact ⟨Lexeme.ahead c rest :: lexemes, htext ▸ .cons _ hfits hcut⟩
termination_by text.length
decreasing_by exact Nat.lt_succ_of_le hlength

/-- A text is cut into lexemes in exactly one way, with nothing lost and nothing read twice, and
its tokens are those of the lexemes. Wherever the reader is, it takes a lexeme that fits. -/
theorem tokenize_eq_of_cut (text : String) :
    (∃! lexemes, Cut (lowerCase text) lexemes) ∧
    (∀ lexemes, Cut (lowerCase text) lexemes →
      tokenize text = lexemes.filterMap Lexeme.token? ∧
        (lexemes.map Lexeme.text).flatten = lowerCase text ∧ ∀ l ∈ lexemes, l.text ≠ []) ∧
    ∀ c rest, ∃ l : Lexeme, l.Fits (lexeme c rest).2 ∧ l.token? = (lexeme c rest).1 ∧
      l.text ++ (lexeme c rest).2 = c :: rest ∧ l.text ≠ [] := by
  refine ⟨?_, fun lexemes h => ⟨h.lexemeTokens_eq, h.flatten_text, h.text_ne_nil⟩, fun c rest => ?_⟩
  · obtain ⟨lexemes, h⟩ := exists_cut (lowerCase text)
    exact ⟨lexemes, h, fun others hothers => h.unique hothers⟩
  · obtain ⟨after, hlexeme, htext, hfits⟩ := Lexeme.exists_fits_ahead c rest
    rw [hlexeme]
    exact ⟨_, hfits, rfl, htext, Lexeme.text_ne_nil hfits⟩

/-- Neither `cos` nor `f7.5` is there to read : two stray letters, and a numeral right after a
reference. -/
theorem tokenize_eq_of_cut_adjacent :
    Cut (lowerCase "COF7.5") [.stray 'c', .stray 'o', .reference ['7'], .numeral ['.', '5']] ∧
    tokenize "COF7.5" = [.invalid, .invalid, .reference 7, .number 0.5] := by
  have hnumeral : Cut ['.', '5'] [.numeral ['.', '5']] :=
    .cons (.numeral ['.', '5']) ⟨List.cons_ne_nil _ _, by simp, by simp⟩ .nil
  have hreference : Cut ['f', '7', '.', '5'] [.reference ['7'], .numeral ['.', '5']] :=
    .cons (.reference ['7']) ⟨List.cons_ne_nil _ _, by simp, by simp⟩ hnumeral
  have hcut : Cut (lowerCase "COF7.5")
      [.stray 'c', .stray 'o', .reference ['7'], .numeral ['.', '5']] := by
    have htext : lowerCase "COF7.5" = ['c', 'o', 'f', '7', '.', '5'] := by decide +kernel
    rw [htext]
    exact .cons (.stray 'c') (Lexeme.fits_stray rfl)
      (.cons (.stray 'o') (Lexeme.fits_stray rfl) hreference)
  have htokens := ((tokenize_eq_of_cut "COF7.5").2.1 _ hcut).1
  exact ⟨hcut, htokens.trans (by decide +kernel)⟩

end Formulary
