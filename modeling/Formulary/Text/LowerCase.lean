import Formulary.Text.CaseTable

/-!
# Lower case

`lowerCase` maps a text to lower case by the full Unicode rules. A character is mapped on its
own (`lowerChar`), to one character or, for `İ`, to two; only a capital sigma depends on the
characters around it. It becomes `ς` at the end of a word and `σ` elsewhere, where marks and
signs that carry no case are looked past on both sides.

The text is read once. `afterCased` says whether the characters already read end in one with
case, the ignorable ones looked past; `casedAhead` answers the same for those to come.
-/

namespace Formulary.Text

/-- Looked past when the neighbours of a capital sigma are examined. -/
def isCaseIgnorable (c : Char) : Bool :=
  inRanges ignorableRanges c

/-- A letter with case, and not looked past. -/
def isCased (c : Char) : Bool :=
  inRanges casedRanges c

/-- The lower case of a single character that does not depend on its neighbours. -/
def lowerChar (c : Char) : List Char :=
  if c.toNat < 0x80 then [c.toLower]
  else if c = 'İ' then ['i', '\u0307']
  else match lowerRuns.find? (·.maps c) with
    | some run => [run.lower c]
    | none => [c]

/-- The first character that is not looked past has case. -/
def casedAhead : List Char → Bool
  | [] => false
  | c :: rest => if isCaseIgnorable c then casedAhead rest else isCased c

/-- The lower case of a text whose characters before it end in a cased one iff `afterCased`. -/
def lowerFrom (afterCased : Bool) : List Char → List Char
  | [] => []
  | c :: rest =>
    let mapped :=
      if c = 'Σ' then [if afterCased && !casedAhead rest then 'ς' else 'σ'] else lowerChar c
    mapped ++ lowerFrom (if isCaseIgnorable c then afterCased else isCased c) rest

/-- The characters of a text in lower case. -/
def lowerCase (text : String) : List Char :=
  lowerFrom false text.toList

end Formulary.Text
