/-!
# Numerals

A numeral is a run of ASCII digits and points. Its value (`Numeral.value?`) is the float nearest
to the decimal it writes, with a missing part read as zero : `.5` is a half, `5.` is five and a
lone point is zero. A run with two points has none. There is no sign and no exponent, and a
decimal beyond the largest float reads as infinity.
-/

namespace Formulary.Numeral

/-- A character that numerals are made of. -/
def isPart (c : Char) : Bool :=
  c.isDigit || c == '.'

/-- The float nearest to the decimal with these digits before and after the point. -/
def decimal (whole fraction : List Char) : Float :=
  Float.ofScientific (Nat.ofDigitChars 10 (whole ++ fraction) 0) true fraction.length

/-- The value of a run of digits and points, if it has at most one point. -/
def value? (run : List Char) : Option Float :=
  let whole := run.takeWhile (· != '.')
  match run.dropWhile (· != '.') with
  | [] => some (decimal whole [])
  | _ :: fraction => if fraction.contains '.' then none else some (decimal whole fraction)

/-- A run without a point is a whole number. -/
theorem value?_of_not_mem {run : List Char} (h : '.' ∉ run) :
    value? run = some (decimal run []) := by
  have hne : ∀ c ∈ run, (c != '.') = true := fun c hc => by
    simpa using fun (e : c = '.') => h (e ▸ hc)
  have htake : run.takeWhile (· != '.') = run := by
    simpa using @List.takeWhile_append_of_pos _ _ run [] hne
  have hdrop : run.dropWhile (· != '.') = [] := by
    simpa using @List.dropWhile_append_of_pos _ _ run [] hne
  simp [value?, htake, hdrop]

/-- A run has no value iff it has two points or more. -/
theorem value?_eq_none_iff {run : List Char} : value? run = none ↔ 2 ≤ run.count '.' := by
  induction run with
  | nil => decide
  | cons c rest ih =>
    by_cases hc : c = '.'
    · subst hc
      simp [value?, ← List.count_pos_iff, Nat.pos_iff_ne_zero]
    · have hcount : (c :: rest).count '.' = rest.count '.' := by simp [hc]
      rw [hcount, ← ih]
      simp only [value?, List.takeWhile_cons, List.dropWhile_cons, bne_iff_ne, ne_eq, hc,
        not_false_eq_true, if_true]
      cases rest.dropWhile (· != '.') with
      | nil => simp
      | cons d fraction => simp only; split <;> simp

end Formulary.Numeral
