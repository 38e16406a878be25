import Formulary.Proofs.Reading
import Formulary.Proofs.Runs

/-!
# Reading as a machine

The functions of the parser are given by recursion on the tokens ahead, and a `Parser` cannot be
nested too deeply by its type. Here the same functions are taken apart into steps, on a `Cursor`
that nothing bounds : it keeps all tokens and counts those that have been read, and its depth goes
up and down by hand. A step looks at the point of the function that it is in and changes at most one
number or the flag. What a function has called before, and what it knows itself, waits in a list
(`Waiting`) : the depth that a chain began at, its tree so far, a level that has been entered.

* `Descent.comesTo_read` : from a cursor that stands where a parser does, the machine comes to what
  the parser yields.
-/

namespace Formulary

/-! ## Cursors -/

/-- How far a list of tokens has been read. All tokens stay in place, and nothing bounds the
numbers. -/
structure Cursor where
  tokens : List Token
  /-- The tokens that have been read. -/
  position : Nat := 0
  /-- The levels of nesting entered and not left. -/
  depth : Nat := 0
  /-- A rule has been broken. -/
  broken : Bool := false
  deriving DecidableEq, Repr

namespace Cursor

/-- The token ahead. -/
def peek? (k : Cursor) : Option Token :=
  k.tokens[k.position]?

/-- The symbol ahead, if it is one of these. -/
def symbol? (k : Cursor) (signs : List Symbol) : Option Symbol :=
  match k.peek? with
  | some (.symbol sign) => if sign ∈ signs then some sign else none
  | _ => none

/-- The token ahead is read. -/
def move (k : Cursor) : Cursor :=
  { k with position := k.position + 1 }

/-- A rule is broken. -/
def fail (k : Cursor) : Cursor :=
  { k with broken := true }

/-- One level deeper. -/
def descend (k : Cursor) : Cursor :=
  { k with depth := k.depth + 1 }

/-- One level up. -/
def ascend (k : Cursor) : Cursor :=
  { k with depth := k.depth - 1 }

/-- At another depth. -/
def atDepth (k : Cursor) (depth : Nat) : Cursor :=
  { k with depth }

end Cursor

/-! ## The machine -/

/-- The symbols of the operators of a level. -/
def Level.signs : Level → List Symbol
  | additive => [.plus, .minus]
  | multiplicative => [.times, .divide]
  | power => [.power]

/-- What encloses a chain. -/
inductive Enclosure where
  | paren
  | bars
  deriving DecidableEq, Repr

/-- The symbol that closes it. -/
def Enclosure.closing : Enclosure → Symbol
  | paren => .closeParen
  | bars => .bar

/-- What it makes of the tree of the chain. -/
def Enclosure.wrap : Enclosure → Expr → Expr
  | paren => id
  | bars => .abs

/-- Where reading is. -/
inductive Point where
  /-- A phrase is to be read. -/
  | read (c : Category)
  /-- A phrase is to be read one level deeper. -/
  | nest (c : Category)
  /-- A chain that began at the depth `entry` has been read up to here, as the tree `left`. -/
  | chain (level : Level) (left : Expr) (entry : Nat)
  /-- The same, and an operator of the chain has just been read. -/
  | operator (level : Level) (left : Expr) (entry : Nat) (sign : Symbol)
  /-- A chain ends. -/
  | leave (tree : Expr) (entry : Nat)
  /-- A phrase has been read. -/
  | value (tree : Expr)
  /-- No phrase can be read. -/
  | refuse
  deriving DecidableEq, Repr

/-- What waits for a phrase to be read. -/
inductive Waiting where
  /-- The phrase is the first operand of a chain that began at the depth `entry`. -/
  | first (level : Level) (entry : Nat)
  /-- The phrase is the operand after an operator. -/
  | right (level : Level) (left : Expr) (op : BinaryOp) (entry : Nat)
  /-- The phrase is nested. -/
  | ascend
  | unary (op : UnaryOp)
  | apply (f : MathFunction)
  | call (id : FunctionId)
  | close (enclosure : Enclosure)
  deriving DecidableEq, Repr

/-- A reading in progress : the point that it is at, the cursor, and what waits, the next first. -/
structure Descent where
  point : Point
  cursor : Cursor
  waiting : List Waiting := []
  deriving DecidableEq, Repr

namespace Descent

/-- Before a phrase is read. -/
def start (c : Category) (k : Cursor) : Descent :=
  ⟨.read c, k, []⟩

/-- A token has been read where a primary begins. -/
def take (k : Cursor) (waiting : List Waiting) : Token → Descent
  | .number value => ⟨.value (.literal value), k, waiting⟩
  | .var name => ⟨.value (.var name), k, waiting⟩
  | .function f => ⟨.nest .primary, k, .apply f :: waiting⟩
  | .reference id => ⟨.nest .primary, k, .call id :: waiting⟩
  | .symbol .openParen => ⟨.nest (.chain .additive), k, .close .paren :: waiting⟩
  | .symbol .bar => ⟨.nest (.chain .additive), k, .close .bars :: waiting⟩
  | _ => ⟨.refuse, k, waiting⟩

/-- A phrase is to be read. -/
def read (k : Cursor) (waiting : List Waiting) : Category → Descent
  | .chain level => ⟨.read level.operand, k, .first level k.depth :: waiting⟩
  | .signed =>
    match k.symbol? [.plus, .minus] with
    | none => ⟨.read .primary, k, waiting⟩
    | some sign =>
      match sign.unaryOp? with
      | none => ⟨.refuse, k.move, waiting⟩
      | some op => ⟨.nest .signed, k.move, .unary op :: waiting⟩
  | .primary =>
    if k.broken then ⟨.value .broken, k, waiting⟩
    else match k.peek? with
      | none => ⟨.refuse, k, waiting⟩
      | some token => take k.move waiting token

/-- A phrase has been read, and what waited for it goes on. -/
def resume (k : Cursor) (waiting : List Waiting) (tree : Expr) : Waiting → Descent
  | .first level entry => ⟨.chain level tree entry, k, waiting⟩
  | .right level left op entry => ⟨.chain level (.binary left op tree) entry, k, waiting⟩
  | .ascend => ⟨.value tree, k.ascend, waiting⟩
  | .unary op => ⟨.value (.unary op tree), k, waiting⟩
  | .apply f => ⟨.value (.apply f tree), k, waiting⟩
  | .call id => ⟨.value (.call id tree), k, waiting⟩
  | .close enclosure =>
    match k.symbol? [enclosure.closing] with
    | none => ⟨.refuse, k, waiting⟩
    | some _ => ⟨.value (enclosure.wrap tree), k.move, waiting⟩

/-- One step, unless the reading is at its end. -/
def step (d : Descent) : Option Descent :=
  match d.point with
  | .read c => some (read d.cursor d.waiting c)
  | .nest c =>
    if d.cursor.depth < maxNesting then some ⟨.read c, d.cursor.descend, .ascend :: d.waiting⟩
    else some ⟨.refuse, d.cursor, d.waiting⟩
  | .chain level left entry =>
    if d.cursor.broken then some ⟨.leave left entry, d.cursor, d.waiting⟩
    else match d.cursor.symbol? level.signs with
      | none => some ⟨.leave left entry, d.cursor, d.waiting⟩
      | some sign => some ⟨.operator level left entry sign, d.cursor.move, d.waiting⟩
  | .operator level left entry sign =>
    match sign.binaryOp? with
    | none => some ⟨.leave left entry, d.cursor.fail, d.waiting⟩
    | some op =>
      if d.cursor.depth < maxNesting then
        some ⟨.read level.operand, d.cursor.descend, .right level left op entry :: d.waiting⟩
      else some ⟨.leave left entry, d.cursor.fail, d.waiting⟩
  | .leave tree entry => some ⟨.value tree, d.cursor.atDepth entry, d.waiting⟩
  | .refuse => some ⟨.value .broken, d.cursor.fail, d.waiting⟩
  | .value tree =>
    match d.waiting with
    | [] => none
    | next :: waiting => some (resume d.cursor waiting tree next)

/-- The reading after `n` steps, or at its end if that comes first. -/
abbrev run (n : Nat) (d : Descent) : Descent :=
  runFor step n d

end Descent

/-! ## Cursors and parsers -/

namespace Cursor

/-- The cursor stands where the parser does. -/
structure At (k : Cursor) (p : Parser) : Prop where
  rest_eq : k.tokens.drop k.position = p.rest
  depth_eq : k.depth = p.depth
  broken_eq : k.broken = p.broken

/-- The parser that stands where the cursor does. -/
def parser (k : Cursor) (h : k.depth ≤ maxNesting) : Parser :=
  ⟨k.tokens.drop k.position, k.depth, k.broken, h⟩

theorem at_self (k : Cursor) (h : k.depth ≤ maxNesting) : k.At (k.parser h) :=
  ⟨rfl, rfl, rfl⟩

variable {k : Cursor} {p : Parser} {token : Token} {sign : Symbol} {signs : List Symbol}

theorem At.peek?_eq (h : k.At p) : k.peek? = p.rest.head? := by
  rw [← h.rest_eq, List.head?_drop, peek?]

theorem At.peek?_before (h : k.At (p.before token)) : k.peek? = some token :=
  h.peek?_eq

theorem At.unbroken (h : k.At p) (hp : p.broken = false) : ¬k.broken = true := by
  rw [h.broken_eq, hp]
  exact Bool.false_ne_true

theorem At.move (h : k.At (p.before token)) : k.move.At p where
  rest_eq := by
    have hrest : k.tokens.drop k.position = token :: p.rest := h.rest_eq
    rw [Cursor.move, ← List.tail_drop, hrest, List.tail_cons]
  depth_eq := h.depth_eq
  broken_eq := h.broken_eq

theorem At.fail (h : k.At p) : k.fail.At p.fail :=
  ⟨h.rest_eq, h.depth_eq, rfl⟩

theorem At.descend (h : k.At p) (hdepth : p.depth < maxNesting) :
    k.descend.At (p.deeper hdepth) :=
  ⟨h.rest_eq, congrArg (· + 1) h.depth_eq, h.broken_eq⟩

theorem At.ascend (h : k.At p) : k.ascend.At p.ascend :=
  ⟨h.rest_eq, congrArg (· - 1) h.depth_eq, h.broken_eq⟩

theorem At.atDepth (h : k.At p) (q : Parser) : (k.atDepth q.depth).At (p.atDepthOf q) :=
  ⟨h.rest_eq, rfl, h.broken_eq⟩

theorem symbol?_of_mem (h : k.peek? = some (.symbol sign)) (hsign : sign ∈ signs) :
    k.symbol? signs = some sign := by
  simp only [symbol?, h, if_pos hsign]

theorem symbol?_of_none (h : ∀ sign ∈ signs, k.peek? ≠ some (.symbol sign)) :
    k.symbol? signs = none := by
  unfold symbol?
  split
  · next sign hpeek => exact if_neg fun hsign => h sign hsign hpeek
  · rfl

end Cursor

/-! ## The machine comes to what the parser yields -/

theorem BinaryOp.symbol_mem_signs (op : BinaryOp) : op.symbol ∈ op.level.signs := by
  cases op <;> decide

theorem BinaryOp.binaryOp?_symbol (op : BinaryOp) : op.symbol.binaryOp? = some op := by
  cases op <;> rfl

theorem UnaryOp.symbol_mem_signs (op : UnaryOp) : op.symbol ∈ [Symbol.plus, .minus] := by
  cases op <;> decide

theorem UnaryOp.unaryOp?_symbol (op : UnaryOp) : op.symbol.unaryOp? = some op := by
  cases op <;> rfl

theorem exists_unaryOp_of_mem {sign : Symbol} (h : sign ∈ [Symbol.plus, .minus]) :
    ∃ op : UnaryOp, op.symbol = sign := by
  simp only [List.mem_cons, List.not_mem_nil, or_false] at h
  rcases h with rfl | rfl
  · exact ⟨.pos, rfl⟩
  · exact ⟨.neg, rfl⟩

theorem exists_op?_of_mem {level : Level} {sign : Symbol} (h : sign ∈ level.signs) :
    ∃ op, level.op? (.symbol sign) = some op := by
  cases level <;> cases sign <;> first | exact ⟨_, rfl⟩ | exact absurd h (by decide)

theorem Parser.before_of_rest {p : Parser} {token : Token} {rest : List Token}
    (h : p.rest = token :: rest) : before { p with rest } token = p := by
  obtain ⟨_, depth, broken, hdepth⟩ := p
  subst h
  rfl

namespace Descent

open Formulary.Parser

variable {p : Parser} {k : Cursor} {waiting : List Waiting} {point : Point}

/-- Wherever a cursor stands where `p` does, the machine comes from the point to the tree and the
state that the parser yields. -/
def ComesTo (point : Point) (result : Expr → Point) (out : Parsed p) : Prop :=
  ∀ (k : Cursor) (waiting : List Waiting), k.At p → ∃ last : Cursor, last.At out.state ∧
    Reaches step ⟨point, k, waiting⟩ ⟨result out.tree, last, waiting⟩

theorem comesTo_refuse : ComesTo .refuse .value (p := p) ⟨.broken, p.fail, Nat.le_refl _⟩ :=
  fun k _ hk => ⟨k.fail, hk.fail, .single rfl⟩

/-- A step that leaves the cursor is taken first. -/
theorem ComesTo.head {next : Point} {result : Expr → Point} {out : Parsed p}
    (h : ComesTo next result out)
    (hstep : ∀ (k : Cursor) (waiting : List Waiting), k.At p →
      step ⟨point, k, waiting⟩ = some ⟨next, k, waiting⟩) : ComesTo point result out := by
  intro k waiting hk
  obtain ⟨last, hlast, hreach⟩ := h k waiting hk
  exact ⟨last, hlast, .head (hstep k waiting hk) hreach⟩

theorem comesTo_nest {c : Category} {read : (q : Parser) → q.rest = p.rest → Parsed q}
    (h : ∀ q hq, ComesTo (.read c) .value (read q hq)) :
    ComesTo (.nest c) .value (p.nested read) := by
  by_cases hdepth : p.depth < maxNesting
  · intro k waiting hk
    obtain ⟨htree, hstate⟩ := nested_of_lt read hdepth
    obtain ⟨last, hlast, hreach⟩ :=
      h (p.deeper hdepth) rfl k.descend (.ascend :: waiting) (hk.descend hdepth)
    rw [htree, hstate]
    exact ⟨last.ascend, hlast.ascend, .head (if_pos (hk.depth_eq ▸ hdepth)) (hreach.tail rfl)⟩
  · rw [nested_of_not_lt read hdepth]
    exact comesTo_refuse.head fun k waiting hk => if_neg (hk.depth_eq ▸ hdepth)

/-- A token is read, then a phrase, and the tree of the phrase is wrapped. -/
theorem ComesTo.past {out : Parsed p} (h : ComesTo point .value out) {token : Token}
    (hnext : (p.before token).next? = some (token, p)) {c : Category} (next : Waiting)
    {wrap : Expr → Expr}
    (hstep : ∀ (k : Cursor) (waiting : List Waiting), k.At (p.before token) →
      step ⟨.read c, k, waiting⟩ = some ⟨point, k.move, next :: waiting⟩)
    (hresume : ∀ (k : Cursor) (waiting : List Waiting) (tree : Expr),
      resume k waiting tree next = ⟨.value (wrap tree), k, waiting⟩) :
    ComesTo (.read c) .value (out.past hnext wrap) := by
  intro k waiting hk
  obtain ⟨last, hlast, hreach⟩ := h k.move (next :: waiting) hk.move
  have hlast_step := congrArg some (hresume last waiting out.tree)
  exact ⟨last, hlast, .head (hstep k waiting hk) (hreach.tail hlast_step)⟩

theorem reaches_closed {inner : Parsed p} (h : ComesTo point .value inner) (enclosure : Enclosure)
    (hk : k.At p) (waiting : List Waiting) : ∃ last : Cursor,
      last.At (inner.closedBy enclosure.closing enclosure.wrap).state ∧
        Reaches step ⟨point, k, .close enclosure :: waiting⟩
          ⟨.value (inner.closedBy enclosure.closing enclosure.wrap).tree, last, waiting⟩ := by
  obtain ⟨last, hlast, hreach⟩ := h k (.close enclosure :: waiting) hk
  by_cases hrest : ∃ rest, inner.state.rest = .symbol enclosure.closing :: rest
  · obtain ⟨rest, hrest⟩ := hrest
    obtain ⟨htree, hstate⟩ := closedBy_of_rest enclosure.wrap hrest
    rw [← before_of_rest hrest] at hlast
    have hsymbol : last.symbol? [enclosure.closing] = some enclosure.closing :=
      Cursor.symbol?_of_mem hlast.peek?_before (List.mem_singleton_self _)
    have hresume : resume last waiting inner.tree (.close enclosure) =
        ⟨.value (enclosure.wrap inner.tree), last.move, waiting⟩ := by
      simp only [resume, hsymbol]
    rw [htree, hstate]
    exact ⟨last.move, hlast.move, hreach.tail (congrArg some hresume)⟩
  · have hsymbol : last.symbol? [enclosure.closing] = none := by
      refine Cursor.symbol?_of_none fun sign hsign hpeek => hrest ?_
      obtain rfl := List.mem_singleton.mp hsign
      obtain ⟨rest, heq⟩ := List.head?_eq_some_iff.mp (hlast.peek?_eq ▸ hpeek)
      exact ⟨rest, heq⟩
    rw [closedBy_of_ne enclosure.wrap fun rest heq => hrest ⟨rest, heq⟩]
    have hresume : resume last waiting inner.tree (.close enclosure) =
        ⟨.refuse, last, waiting⟩ := by
      simp only [resume, hsymbol]
    exact ⟨last.fail, hlast.fail, (hreach.tail (congrArg some hresume)).tail rfl⟩

/-! ### Steps where a token is ahead -/

theorem step_primary {token : Token} (hk : k.At (p.before token)) (hp : p.broken = false) :
    step ⟨.read .primary, k, waiting⟩ = some (take k.move waiting token) := by
  have hbroken := hk.unbroken hp
  simp only [step, read, if_neg hbroken, hk.peek?_before]

/-- No primary begins with the token. -/
theorem take_of_other {token : Token} (htoken : token.startsOperand = false)
    (hbar : token ≠ .symbol .bar) : take k waiting token = ⟨.refuse, k, waiting⟩ := by
  cases token with
  | symbol sign =>
    cases sign with
    | openParen => cases htoken
    | bar => exact absurd rfl hbar
    | _ => rfl
  | invalid => rfl
  | _ => cases htoken

theorem step_sign (op : UnaryOp) (hk : k.At (p.before (.symbol op.symbol))) :
    step ⟨.read .signed, k, waiting⟩ = some ⟨.nest .signed, k.move, .unary op :: waiting⟩ := by
  have hsign := Cursor.symbol?_of_mem hk.peek?_before op.symbol_mem_signs
  simp only [step, read, hsign, op.unaryOp?_symbol]

theorem step_noSign (hk : k.At p)
    (h : ∀ (op : UnaryOp) (more : List Token), p.rest ≠ .symbol op.symbol :: more) :
    step ⟨.read .signed, k, waiting⟩ = some ⟨.read .primary, k, waiting⟩ := by
  have hnone : k.symbol? [.plus, .minus] = none := by
    refine Cursor.symbol?_of_none fun sign hsign hpeek => ?_
    obtain ⟨op, rfl⟩ := exists_unaryOp_of_mem hsign
    obtain ⟨more, hrest⟩ := List.head?_eq_some_iff.mp (hk.peek?_eq ▸ hpeek)
    exact h op more hrest
  simp only [step, read, hnone]

theorem step_chain {level : Level} {op : BinaryOp} {token : Token} (left : Expr) (entry : Nat)
    (hk : k.At (p.before token)) (hp : p.broken = false) (hop : level.op? token = some op) :
    step ⟨.chain level left entry, k, waiting⟩ =
      some ⟨.operator level left entry op.symbol, k.move, waiting⟩ := by
  obtain ⟨rfl, rfl⟩ := eq_symbol_of_op? hop
  have hbroken := hk.unbroken hp
  have hsign := Cursor.symbol?_of_mem hk.peek?_before op.symbol_mem_signs
  simp only [step, if_neg hbroken, hsign]

/-- Where no operator of its level is ahead, a chain ends. -/
theorem step_chain_of_ends {level : Level} (left : Expr) (entry : Nat) (hk : k.At p)
    (hp : p.broken = false)
    (h : ∀ token, p.rest.head? = some token → level.op? token = none) :
    step ⟨.chain level left entry, k, waiting⟩ = some ⟨.leave left entry, k, waiting⟩ := by
  have hbroken := hk.unbroken hp
  have hnone : k.symbol? level.signs = none := by
    refine Cursor.symbol?_of_none fun sign hsign hpeek => ?_
    obtain ⟨op, hop⟩ := exists_op?_of_mem hsign
    exact nomatch hop.symm.trans (h _ (hk.peek?_eq ▸ hpeek))
  simp only [step, if_neg hbroken, hnone]

/-- The operand of an operator is read one level deeper. -/
theorem step_operator {level : Level} (op : BinaryOp) (left : Expr) (entry : Nat) (hk : k.At p)
    (h : p.depth < maxNesting) :
    step ⟨.operator level left entry op.symbol, k, waiting⟩ =
      some ⟨.read level.operand, k.descend, .right level left op entry :: waiting⟩ := by
  simp only [step, op.binaryOp?_symbol, if_pos (hk.depth_eq ▸ h)]

theorem step_operator_of_not_lt {level : Level} (op : BinaryOp) (left : Expr) (entry : Nat)
    (hk : k.At p) (h : ¬p.depth < maxNesting) :
    step ⟨.operator level left entry op.symbol, k, waiting⟩ =
      some ⟨.leave left entry, k.fail, waiting⟩ := by
  simp only [step, op.binaryOp?_symbol, if_neg (hk.depth_eq ▸ h)]

/-! ### The whole way -/

/-- From a cursor that stands where a parser does, the machine comes to what the parser yields. -/
theorem comesTo_read (c : Category) (p : Parser) : ComesTo (.read c) .value (Parser.read c p) := by
  refine reading_induction (fun c p => ComesTo (.read c) .value (Parser.read c p))
    (fun level left p => ∀ entry,
      ComesTo (.chain level left entry) (.leave · entry) (chainFrom level left p))
    ?chain ?chainBroken ?chainEnd ?chainDeep ?chainMore ?sign ?bare ?broken ?nothing ?number ?var
    ?function ?reference ?paren ?bar ?other c p
  case chain =>
    intro level p ihFirst ihRest k waiting hk
    obtain ⟨between, hbetween, hfirst⟩ := ihFirst k (.first level k.depth :: waiting) hk
    obtain ⟨last, hlast, hrest⟩ := ihRest k.depth between waiting hbetween
    rw [Parser.read, tree_chain, state_chain]
    refine ⟨last.atDepth k.depth, ?_, .head rfl (hfirst.trans (.head rfl (hrest.tail rfl)))⟩
    rw [hk.depth_eq]
    exact hlast.atDepth p
  case chainBroken =>
    intro level left p hbroken entry k waiting hk
    rw [chainFrom_of_broken left hbroken]
    exact ⟨k, hk, .single (if_pos (hk.broken_eq.trans hbroken))⟩
  case chainEnd =>
    intro level left p hp hends entry k waiting hk
    rw [chainFrom_of_ends left hends]
    exact ⟨k, hk, .single (step_chain_of_ends left entry hk hp hends)⟩
  case chainDeep =>
    intro op left p hp hdepth entry k waiting hk
    have hop := op?_symbol (rfl : op.level = op.level)
    obtain ⟨htree, hstate⟩ := chainFrom_before_of_not_lt left hp hop hdepth
    rw [htree, hstate]
    exact ⟨k.move.fail, hk.move.fail, .head (step_chain left entry hk hp hop)
      (.single (step_operator_of_not_lt op left entry hk.move hdepth))⟩
  case chainMore =>
    intro op left p hdepth hp right ihRight ihRest entry k waiting hk
    have hop := op?_symbol (rfl : op.level = op.level)
    obtain ⟨htree, hstate⟩ := chainFrom_before left hp hop hdepth
    obtain ⟨between, hbetween, hright⟩ := ihRight k.move.descend
      (.right op.level left op entry :: waiting) (hk.move.descend hdepth)
    obtain ⟨last, hlast, hrest⟩ := ihRest entry between waiting hbetween
    rw [htree, hstate]
    exact ⟨last, hlast, .head (step_chain left entry hk hp hop)
      (.head (step_operator op left entry hk.move hdepth) (hright.trans (.head rfl hrest)))⟩
  case sign =>
    intro op p ih
    rw [Parser.read, signed_before_sign]
    exact (comesTo_nest ih).past _ (.unary op) (fun _ _ => step_sign op) fun _ _ _ => rfl
  case bare =>
    intro p hsign ih
    rw [Parser.read, signed_eq_primary hsign]
    exact ih.head fun _ _ hk => step_noSign hk hsign
  case broken =>
    intro p hbroken k waiting hk
    rw [Parser.read, primary_of_broken hbroken]
    exact ⟨k, hk, .single (congrArg some (if_pos (hk.broken_eq.trans hbroken)))⟩
  case nothing =>
    intro p hp hrest
    rw [Parser.read, primary_of_nil hp hrest]
    refine comesTo_refuse.head fun k waiting hk => ?_
    have hpeek : k.peek? = none := by rw [hk.peek?_eq, hrest, List.head?_nil]
    simp only [step, read, if_neg (hk.unbroken hp), hpeek]
  case number =>
    intro value p hp k waiting hk
    rw [Parser.read, primary_before _ hp]
    exact ⟨k.move, hk.move, .single (step_primary hk hp)⟩
  case var =>
    intro name p hp k waiting hk
    rw [Parser.read, primary_before _ hp]
    exact ⟨k.move, hk.move, .single (step_primary hk hp)⟩
  case function =>
    intro f p hp ih
    rw [Parser.read, primary_before _ hp]
    exact (comesTo_nest ih).past _ (.apply f) (fun _ _ hk => step_primary hk hp) fun _ _ _ => rfl
  case reference =>
    intro id p hp ih
    rw [Parser.read, primary_before _ hp]
    exact (comesTo_nest ih).past _ (.call id) (fun _ _ hk => step_primary hk hp) fun _ _ _ => rfl
  case paren =>
    intro p hp ih k waiting hk
    rw [Parser.read, primary_before _ hp]
    obtain ⟨last, hlast, hreach⟩ := reaches_closed (comesTo_nest ih) .paren hk.move waiting
    exact ⟨last, hlast, .head (step_primary hk hp) hreach⟩
  case bar =>
    intro p hp ih k waiting hk
    rw [Parser.read, primary_before _ hp]
    obtain ⟨last, hlast, hreach⟩ := reaches_closed (comesTo_nest ih) .bars hk.move waiting
    exact ⟨last, hlast, .head (step_primary hk hp) hreach⟩
  case other =>
    intro token p hp htoken hbar k waiting hk
    obtain ⟨last, hlast, hreach⟩ := comesTo_refuse k.move waiting hk.move
    have hfirst : step ⟨.read .primary, k, waiting⟩ = some ⟨.refuse, k.move, waiting⟩ :=
      (step_primary hk hp).trans (congrArg some (take_of_other htoken hbar))
    rw [Parser.read, primary_before_of_other hp htoken hbar]
    exact ⟨last, hlast, .head hfirst hreach⟩

end Descent

end Formulary
