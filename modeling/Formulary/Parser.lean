import Formulary.Expr
import Formulary.Juxtaposition
import Formulary.Lexeme

/-!
# From tokens to trees

The operators stand on three levels : `+` and `-`, then `*` and `/`, then `^`. On each level
operands form a chain that groups to the left (`chain`), and the operand of a chain is a chain of
the next tighter level. Below them stand signs (`signed`), which bind tighter than any operator,
and primaries (`primary`) : numbers, value names, a function or reference with one primary as its
argument, brackets and absolute values.

A `Parser` is the state of reading : the tokens ahead, the depth of nesting, and whether a rule
has been broken. Nothing mends a broken parser, and a formula is read only by one that is not
broken at the end and has no token ahead (`Parser.parse`). Nesting is bounded : signs, arguments,
brackets and bars count one level each, and so does every operator of a chain, since it makes
the tree one node deeper on the left.
-/

namespace Formulary

/-- The deepest nesting that a formula may have. -/
def maxNesting : Nat := 256

/-! ## Levels -/

/-- The levels of the operators between two operands. -/
inductive Level where
  | additive
  | multiplicative
  | power
  deriving DecidableEq, Repr

/-- The number of levels that are tighter. -/
def Level.rank : Level → Nat
  | additive => 2
  | multiplicative => 1
  | power => 0

def BinaryOp.level : BinaryOp → Level
  | add | sub => .additive
  | mul | div => .multiplicative
  | pow => .power

/-- The operator of this level that a token writes. -/
def Level.op? (level : Level) : Token → Option BinaryOp
  | .symbol sign => sign.binaryOp?.filter (·.level = level)
  | _ => none

/-! ## The state of reading -/

/-- How far a formula has been read. -/
structure Parser where
  /-- The tokens ahead. -/
  rest : List Token
  /-- The levels of nesting entered and not left. -/
  depth : Nat := 0
  /-- A rule has been broken. -/
  broken : Bool := false
  depth_le : depth ≤ maxNesting := by decide

namespace Parser

/-- A rule is broken here. -/
def fail (p : Parser) : Parser :=
  { p with broken := true }

/-- The next token, and the state after it. -/
def next? (p : Parser) : Option (Token × Parser) :=
  match p.rest with
  | [] => none
  | token :: rest => some (token, { p with rest })

/-- The state after the symbol `sign`, if that is the next token. -/
def expect? (p : Parser) (sign : Symbol) : Option Parser :=
  match p.next? with
  | some (token, q) => if token = .symbol sign then some q else none
  | none => none

/-- One level deeper, if there is one. -/
def descend? (p : Parser) : Option Parser :=
  if h : p.depth < maxNesting then some { p with depth := p.depth + 1, depth_le := h } else none

/-- One level up. -/
def ascend (p : Parser) : Parser :=
  { p with depth := p.depth - 1, depth_le := Nat.le_trans (Nat.sub_le _ _) p.depth_le }

/-- Back at the depth of `q`. -/
def atDepthOf (p q : Parser) : Parser :=
  { p with depth := q.depth, depth_le := q.depth_le }

theorem rest_eq_of_next? {p q : Parser} {token : Token} (h : p.next? = some (token, q)) :
    p.rest = token :: q.rest := by
  unfold next? at h
  split at h
  · simp at h
  · next hrest => obtain ⟨rfl, rfl⟩ := Prod.mk.inj (Option.some.inj h); exact hrest

theorem length_of_next? {p q : Parser} {token : Token} (h : p.next? = some (token, q)) :
    p.rest.length = q.rest.length + 1 := by
  rw [rest_eq_of_next? h, List.length_cons]

theorem rest_eq_of_expect? {p q : Parser} {sign : Symbol} (h : p.expect? sign = some q) :
    p.rest = .symbol sign :: q.rest := by
  unfold expect? at h
  split at h
  · next hnext =>
    obtain ⟨hsign, hq⟩ := Option.ite_none_right_eq_some.mp h
    rw [rest_eq_of_next? hnext, hsign, Option.some.inj hq]
  · simp at h

theorem rest_eq_of_descend? {p q : Parser} (h : p.descend? = some q) : q.rest = p.rest := by
  unfold descend? at h
  split at h
  · rw [← Option.some.inj h]
  · simp at h

/-! ## Reading -/

/-- What reading from `p` yields : a tree, and the state after it, which has no more tokens
ahead than `p`. -/
structure Parsed (p : Parser) where
  tree : Expr
  state : Parser
  length_le : state.rest.length ≤ p.rest.length

/-- What `read` yields one level deeper, or a broken rule where nesting ends. -/
def nested (p : Parser) (read : (q : Parser) → q.rest = p.rest → Parsed q) : Parsed p :=
  match h : p.descend? with
  | none => ⟨.broken, p.fail, Nat.le_refl _⟩
  | some q =>
    let inner := read q (rest_eq_of_descend? h)
    ⟨inner.tree, inner.state.ascend, rest_eq_of_descend? h ▸ inner.length_le⟩

/-- `inner` up to the symbol that has to close it. -/
def Parsed.closedBy {p : Parser} (inner : Parsed p) (sign : Symbol) (wrap : Expr → Expr) :
    Parsed p :=
  match h : inner.state.expect? sign with
  | some q =>
    ⟨wrap inner.tree, q, by
      have := congrArg List.length (rest_eq_of_expect? h)
      have := inner.length_le
      simp_all only [List.length_cons]
      omega⟩
  | none => ⟨.broken, inner.state.fail, inner.length_le⟩

/-- The same reading from the token before. -/
def Parsed.past {p q : Parser} {token : Token} (h : p.next? = some (token, q))
    (read : Parsed q) (wrap : Expr → Expr) : Parsed p :=
  ⟨wrap read.tree, read.state, by
    have := length_of_next? h
    have := read.length_le
    omega⟩

mutual

/-- A chain of operands of this level, grouped to the left. -/
def chain (level : Level) (p : Parser) : Parsed p :=
  let first := operand level p
  let whole := chainFrom level first.tree first.state
  ⟨whole.tree, whole.state.atDepthOf p, Nat.le_trans whole.length_le first.length_le⟩
termination_by p.rest.length * 8 + (level.rank * 2 + 3)
decreasing_by
  · omega
  · exact Nat.lt_of_le_of_lt (Nat.mul_le_mul_right 8 (Parsed.length_le _)) (by omega)

/-- An operand of a chain of this level. -/
def operand (level : Level) (p : Parser) : Parsed p :=
  match level with
  | .additive => chain .multiplicative p
  | .multiplicative => chain .power p
  | .power => signed p
termination_by p.rest.length * 8 + (level.rank * 2 + 2)
decreasing_by all_goals simp only [Level.rank]; omega

/-- The rest of a chain of this level that begins with `left`. Each operator nests its right
operand, and all that follows in the chain, one level deeper. -/
def chainFrom (level : Level) (left : Expr) (p : Parser) : Parsed p :=
  if p.broken then ⟨left, p, Nat.le_refl _⟩
  else match h : p.next? with
  | none => ⟨left, p, Nat.le_refl _⟩
  | some (token, q) =>
    match level.op? token with
    | none => ⟨left, p, Nat.le_refl _⟩
    | some op =>
      match hdeep : q.descend? with
      | none => Parsed.past h ⟨left, q.fail, Nat.le_refl _⟩ id
      | some deeper =>
        let right := operand level deeper
        let whole := chainFrom level (.binary left op right.tree) right.state
        Parsed.past h ⟨whole.tree, whole.state,
          rest_eq_of_descend? hdeep ▸ Nat.le_trans whole.length_le right.length_le⟩ id
termination_by p.rest.length * 8
decreasing_by
  · have := length_of_next? h
    have := congrArg List.length (rest_eq_of_descend? hdeep)
    cases level <;> simp only [Level.rank] <;> omega
  · have := length_of_next? h
    have := congrArg List.length (rest_eq_of_descend? hdeep)
    exact Nat.lt_of_le_of_lt (Nat.mul_le_mul_right 8 (Parsed.length_le _)) (by omega)

/-- A primary with any number of signs before it. -/
def signed (p : Parser) : Parsed p :=
  match h : p.next? with
  | some (.symbol sign, q) =>
    match sign.unaryOp? with
    | some op => Parsed.past h (q.nested fun r _ => signed r) (.unary op)
    | none => primary p
  | _ => primary p
termination_by p.rest.length * 8 + 1
decreasing_by
  · next hr => rw [hr]; have := length_of_next? h; omega
  all_goals omega

/-- A number, a value name, a function or reference with its argument, a bracket or an absolute
value. -/
def primary (p : Parser) : Parsed p :=
  if p.broken then ⟨.broken, p, Nat.le_refl _⟩
  else match h : p.next? with
  | none => ⟨.broken, p.fail, Nat.le_refl _⟩
  | some (token, q) =>
    match token with
    | .number value => Parsed.past h ⟨.literal value, q, Nat.le_refl _⟩ id
    | .var name => Parsed.past h ⟨.var name, q, Nat.le_refl _⟩ id
    | .function f => Parsed.past h (q.nested fun r _ => primary r) (.apply f)
    | .reference id => Parsed.past h (q.nested fun r _ => primary r) (.call id)
    | .symbol .openParen =>
      Parsed.past h ((q.nested fun r _ => chain .additive r).closedBy .closeParen id) id
    | .symbol .bar =>
      Parsed.past h ((q.nested fun r _ => chain .additive r).closedBy .bar .abs) id
    | _ => Parsed.past h ⟨.broken, q.fail, Nat.le_refl _⟩ id
termination_by p.rest.length * 8
decreasing_by
  all_goals
    next hr =>
      rw [hr]
      have := length_of_next? h
      have : Level.additive.rank = 2 := rfl
      omega

end

/-- The state before the tokens of a formula. It is broken from the start if a part of the text
is invalid. -/
def ofTokens (tokens : List Token) : Parser :=
  if containsInvalid tokens then { rest := tokens, broken := true }
  else { rest := writeProducts tokens }

/-- The tree of the tokens ahead, all of them, and the state after them. The tree is `broken` if
the state is. -/
def parse (p : Parser) : Expr × Parser :=
  if p.broken then (.broken, p)
  else
    let read := p.chain .additive
    let last := if read.state.rest.isEmpty then read.state else read.state.fail
    (if last.broken then .broken else read.tree, last)

end Parser

/-- The tree of a list of tokens, and whether it is broken. -/
def parse (tokens : List Token) : Expr × Bool :=
  let (tree, last) := (Parser.ofTokens tokens).parse
  (tree, last.broken)

/-- The tree of a text, `broken` if the text is no formula. -/
def parseText (text : String) : Expr :=
  (parse (tokenize text)).1

/-- The tree of a text, or why it has none. -/
def parseFormula (text : String) : Except ParseError Expr :=
  let tokens := tokenize text
  if containsInvalid tokens then .error .invalidText
  else match parse tokens with
    | (_, true) => .error .malformed
    | (tree, false) => .ok tree

end Formulary
