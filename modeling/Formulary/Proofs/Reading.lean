import Formulary.Proofs.ParserSteps

/-!
# The parser reads its grammar

`Parsed.Covers` says that what is read off a state is a list of tokens, as a tree, in a place
where nesting leaves room for its cost. Each step of the parser passes it on (`Covers.past`,
`Covers.nested`, `Covers.closedBy`, `Covers.chain`, `CoversTail.more`), and both directions are
assembled from these steps. `read_sound` goes by the recursion of the parser : whatever it reads
without breaking a rule is a phrase. `read_covers` goes by the phrase : where a phrase is ahead
that nesting leaves room for, the parser reads it.

The main result, `parse_eq_iff_derives`, says that a list of tokens is accepted iff the grammar
derives it at a cost of at most `maxNesting`, as the tree of its only derivation, and that
everything else is broken.
-/

namespace Formulary

namespace Parser

variable {p : Parser}

/-! ## What reading covers -/

/-- From `p` on, `tokens` are read off, as the tree `tree`, and no rule is broken. -/
structure Parsed.Reads (out : Parsed p) (tokens : List Token) (tree : Expr) : Prop where
  unbroken_before : p.broken = false
  unbroken : out.state.broken = false
  rest_eq : p.rest = tokens ++ out.state.rest
  tree_eq : out.tree = tree

/-- Nothing else is read off. -/
theorem Parsed.Reads.rest_of {out : Parsed p} {tokens rest : List Token} {tree : Expr}
    (h : out.Reads tokens tree) (hrest : p.rest = tokens ++ rest) : out.state.rest = rest :=
  List.append_cancel_left (h.rest_eq.symm.trans hrest)

/-- The same, where there is room for `cost` more levels and all levels entered are left. -/
structure Parsed.Covers (out : Parsed p) (tokens : List Token) (tree : Expr) (cost : Nat) : Prop
    extends out.Reads tokens tree where
  depth_eq : out.state.depth = p.depth
  cost_le : p.depth + cost ≤ maxNesting

namespace Parsed

variable {tokens : List Token} {tree : Expr} {cost : Nat}

theorem covers_nil (hp : p.broken = false) (tree : Expr) :
    Covers (p := p) ⟨tree, p, Nat.le_refl _⟩ [] tree 0 where
  unbroken_before := hp
  unbroken := hp
  rest_eq := rfl
  tree_eq := rfl
  depth_eq := rfl
  cost_le := p.depth_le

theorem Covers.past {out : Parsed p} (h : out.Covers tokens tree cost) {token : Token}
    (hnext : (p.before token).next? = some (token, p)) (wrap : Expr → Expr) :
    (out.past hnext wrap).Covers (token :: tokens) (wrap tree) cost where
  unbroken_before := h.unbroken_before
  unbroken := h.unbroken
  rest_eq := congrArg (token :: ·) h.rest_eq
  tree_eq := congrArg wrap h.tree_eq
  depth_eq := h.depth_eq
  cost_le := h.cost_le

theorem Covers.closedBy {out : Parsed p} (h : out.Covers tokens tree cost) {sign : Symbol}
    {rest : List Token} (hrest : out.state.rest = .symbol sign :: rest) (wrap : Expr → Expr) :
    (out.closedBy sign wrap).Covers (tokens ++ [.symbol sign]) (wrap tree) cost := by
  obtain ⟨htree, hstate⟩ := closedBy_of_rest wrap hrest
  constructor
  · constructor
    · exact h.unbroken_before
    · rw [hstate]; exact h.unbroken
    · rw [hstate, h.rest_eq, hrest, List.append_assoc]; rfl
    · rw [htree, h.tree_eq]
  · rw [hstate]; exact h.depth_eq
  · exact h.cost_le

theorem of_closedBy {out : Parsed p} {sign : Symbol} {wrap : Expr → Expr}
    (h : (out.closedBy sign wrap).state.broken = false) :
    out.state.broken = false ∧ ∃ rest, out.state.rest = .symbol sign :: rest := by
  by_cases hrest : ∃ rest, out.state.rest = .symbol sign :: rest
  · obtain ⟨rest, hrest⟩ := hrest
    rw [(closedBy_of_rest wrap hrest).2] at h
    exact ⟨h, rest, hrest⟩
  · rw [closedBy_of_ne wrap fun rest heq => hrest ⟨rest, heq⟩] at h
    exact nomatch h

section Nested

variable {read : (q : Parser) → q.rest = p.rest → Parsed q}

theorem Covers.nested {hdepth : p.depth < maxNesting}
    (h : (read (p.deeper hdepth) rfl).Covers tokens tree cost) :
    (p.nested read).Covers tokens tree (1 + cost) := by
  obtain ⟨htree, hstate⟩ := nested_of_lt read hdepth
  constructor
  · constructor
    · exact h.unbroken_before
    · rw [hstate]; exact h.unbroken
    · rw [hstate]; exact h.rest_eq
    · rw [htree, h.tree_eq]
  · rw [hstate]
    exact congrArg (· - 1) h.depth_eq
  · have hcost : p.depth + 1 + cost ≤ maxNesting := h.cost_le
    omega

theorem of_nested (h : (p.nested read).state.broken = false) :
    ∃ hdepth : p.depth < maxNesting, (read (p.deeper hdepth) rfl).state.broken = false := by
  by_cases hdepth : p.depth < maxNesting
  · rw [(nested_of_lt read hdepth).2] at h
    exact ⟨hdepth, h⟩
  · rw [nested_of_not_lt read hdepth] at h
    exact nomatch h

/-- Where nesting leaves room for the cost, there is a level to enter. -/
theorem covers_nested (hroom : p.depth + (1 + cost) ≤ maxNesting)
    (h : ∀ hdepth : p.depth < maxNesting, p.depth + 1 + cost ≤ maxNesting →
      (read (p.deeper hdepth) rfl).Covers tokens tree cost) :
    (p.nested read).Covers tokens tree (1 + cost) := by
  have hdepth : p.depth < maxNesting := by omega
  exact .nested (h hdepth (by omega))

end Nested

/-- From `p` on, the tail `t` of a chain is read off, after `left`. -/
structure CoversTail {level : Level} (out : Parsed p) (left : Expr) (t : Tail level) : Prop
    extends out.Reads t.tokens (t.treeFrom left) where
  cost_le : p.depth + t.costFrom 1 ≤ maxNesting

section Chain

variable {level : Level} {left : Expr}

theorem Covers.chain {d : Phrase level.operand} {t : Tail level}
    (hfirst : (read level.operand p).Covers d.tokens d.tree d.cost)
    (hrest : (chainFrom level d.tree (read level.operand p).state).CoversTail d.tree t) :
    (chain level p).Covers (Phrase.chain d t).tokens (Phrase.chain d t).tree
      (Phrase.chain d t).cost := by
  constructor
  · constructor
    · exact hfirst.unbroken_before
    · rw [state_chain, hfirst.tree_eq]; exact hrest.unbroken
    · rw [state_chain, hfirst.tree_eq, hfirst.rest_eq, hrest.rest_eq, ← List.append_assoc]; rfl
    · rw [tree_chain, hfirst.tree_eq]; exact hrest.tree_eq
  · rw [state_chain]; rfl
  · have hd := hfirst.cost_le
    have ht := hrest.cost_le
    rw [hfirst.depth_eq] at ht
    simp only [Phrase.cost]
    omega

theorem coversTail_done (hp : p.broken = false) (left : Expr) :
    CoversTail (p := p) ⟨left, p, Nat.le_refl _⟩ left (.done : Tail level) where
  unbroken_before := hp
  unbroken := hp
  rest_eq := rfl
  tree_eq := rfl
  cost_le := p.depth_le

theorem CoversTail.more {op : BinaryOp} {hop : op.level = level} {hdepth : p.depth < maxNesting}
    {d : Phrase level.operand} {t : Tail level}
    (hright : (read level.operand (p.deeper hdepth)).Covers d.tokens d.tree d.cost)
    (hrest : (chainFrom level (.binary left op d.tree)
      (read level.operand (p.deeper hdepth)).state).CoversTail (.binary left op d.tree) t) :
    (chainFrom level left (p.before (.symbol op.symbol))).CoversTail left
      (.more op hop d t) := by
  obtain ⟨htree, hstate⟩ :=
    chainFrom_before (p := p) left hright.unbroken_before (op?_symbol hop) hdepth
  rw [hright.tree_eq] at htree hstate
  constructor
  · constructor
    · exact hright.unbroken_before
    · rw [hstate]; exact hrest.unbroken
    · rw [hstate]
      refine congrArg (Token.symbol op.symbol :: ·) (hright.rest_eq.trans ?_)
      rw [hrest.rest_eq]
      exact (List.append_assoc _ _ _).symm
    · rw [htree]; exact hrest.tree_eq
  · have hd : p.depth + 1 + d.cost ≤ maxNesting := hright.cost_le
    have hdepth_eq : (read level.operand (p.deeper hdepth)).state.depth = p.depth + 1 :=
      hright.depth_eq
    have ht := hrest.cost_le
    have hsucc : max 1 (t.costFrom 2) = t.costFrom 1 + 1 := t.max_costFrom_succ 1
    simp only [Tail.costFrom]
    change p.depth + max (1 + d.cost) (t.costFrom 2) ≤ maxNesting
    omega

end Chain

end Parsed

/-! ## What is read is a phrase -/

/-- What is read where no rule is broken is a phrase of the category. -/
def Sound (c : Category) (out : Parsed p) : Prop :=
  out.state.broken = false → ∃ d : Phrase c, out.Covers d.tokens d.tree d.cost

/-- The same for the tail of a chain. -/
def SoundTail (level : Level) (left : Expr) (out : Parsed p) : Prop :=
  out.state.broken = false → ∃ t : Tail level, out.CoversTail left t

theorem Sound.nested {c : Category} {read : (q : Parser) → q.rest = p.rest → Parsed q}
    (h : ∀ q hq, Sound c (read q hq)) (hunbroken : (p.nested read).state.broken = false) :
    ∃ d : Phrase c, (p.nested read).Covers d.tokens d.tree (1 + d.cost) := by
  obtain ⟨hdepth, hin⟩ := Parsed.of_nested hunbroken
  obtain ⟨d, hd⟩ := h (p.deeper hdepth) rfl hin
  exact ⟨d, hd.nested⟩

/-- Whatever is read without breaking a rule is a phrase. -/
theorem read_sound (c : Category) (p : Parser) : Sound c (read c p) := by
  refine reading_induction (fun c p => Sound c (read c p))
    (fun level left p => SoundTail level left (chainFrom level left p))
    ?chain ?chainBroken ?chainEnd ?chainDeep ?chainMore ?sign ?bare ?broken ?nothing ?number ?var
    ?function ?reference ?paren ?bar ?other c p
  case chain =>
    intro level p ihFirst ihRest h
    rw [read, state_chain] at h
    obtain ⟨t, ht⟩ := ihRest h
    obtain ⟨d, hd⟩ := ihFirst ht.unbroken_before
    rw [hd.tree_eq] at ht
    exact ⟨.chain d t, .chain hd ht⟩
  case chainBroken =>
    intro level left p hbroken h
    rw [chainFrom_of_broken left hbroken, hbroken] at h
    exact nomatch h
  case chainEnd =>
    intro level left p hp hends _
    rw [chainFrom_of_ends left hends]
    exact ⟨.done, Parsed.coversTail_done hp left⟩
  case chainDeep =>
    intro op left p hp hdepth h
    rw [(chainFrom_before_of_not_lt left hp (op?_symbol rfl) hdepth).2] at h
    exact nomatch h
  case chainMore =>
    intro op left p hdepth hp right ihRight ihRest h
    rw [(chainFrom_before left hp (op?_symbol rfl) hdepth).2] at h
    obtain ⟨t, ht⟩ := ihRest h
    obtain ⟨d, hd⟩ := ihRight ht.unbroken_before
    rw [hd.tree_eq] at ht
    exact ⟨.more op rfl d t, .more hd ht⟩
  case sign =>
    intro op p ih h
    rw [read, signed_before_sign] at h ⊢
    obtain ⟨d, hd⟩ := Sound.nested ih h
    exact ⟨.sign op d, hd.past _ _⟩
  case bare =>
    intro p hsign ih h
    rw [read, signed_eq_primary hsign] at h ⊢
    obtain ⟨d, hd⟩ := ih h
    exact ⟨.bare d, hd⟩
  case broken =>
    intro p hbroken h
    rw [read, primary_of_broken hbroken, hbroken] at h
    exact nomatch h
  case nothing =>
    intro p hp hrest h
    rw [read, primary_of_nil hp hrest] at h
    exact nomatch h
  case number =>
    intro value p hp h
    rw [read, primary_before _ hp] at h ⊢
    exact ⟨.number value, (Parsed.covers_nil h _).past _ _⟩
  case var =>
    intro name p hp h
    rw [read, primary_before _ hp] at h ⊢
    exact ⟨.var name, (Parsed.covers_nil h _).past _ _⟩
  case function =>
    intro f p hp ih h
    rw [read, primary_before _ hp] at h ⊢
    obtain ⟨d, hd⟩ := Sound.nested ih h
    exact ⟨.apply f d, hd.past _ _⟩
  case reference =>
    intro id p hp ih h
    rw [read, primary_before _ hp] at h ⊢
    obtain ⟨d, hd⟩ := Sound.nested ih h
    exact ⟨.call id d, hd.past _ _⟩
  case paren =>
    intro p hp ih h
    rw [read, primary_before _ hp] at h ⊢
    obtain ⟨hin, rest, hrest⟩ := Parsed.of_closedBy h
    obtain ⟨d, hd⟩ := Sound.nested ih hin
    exact ⟨.paren d, (hd.closedBy hrest _).past _ _⟩
  case bar =>
    intro p hp ih h
    rw [read, primary_before _ hp] at h ⊢
    obtain ⟨hin, rest, hrest⟩ := Parsed.of_closedBy h
    obtain ⟨d, hd⟩ := Sound.nested ih hin
    exact ⟨.abs d, (hd.closedBy hrest _).past _ _⟩
  case other =>
    intro token p hp htoken hbar h
    rw [read, primary_before_of_other hp htoken hbar] at h
    exact nomatch h

/-! ## Each phrase is read -/

mutual

/-- A phrase ahead is read, where nesting leaves room for it. -/
theorem read_covers {c : Category} (d : Phrase c) {p : Parser} {rest : List Token}
    (hp : p.broken = false) (hrest : p.rest = d.tokens ++ rest) (hends : c.Ends rest)
    (hcost : p.depth + d.cost ≤ maxNesting) : (read c p).Covers d.tokens d.tree d.cost := by
  match d with
  | .number value =>
    obtain ⟨q, rfl, -, hq⟩ := exists_eq_before hp hrest
    rw [read, primary_before _ hq]
    exact (Parsed.covers_nil hq _).past _ _
  | .var name =>
    obtain ⟨q, rfl, -, hq⟩ := exists_eq_before hp hrest
    rw [read, primary_before _ hq]
    exact (Parsed.covers_nil hq _).past _ _
  | .apply f argument =>
    obtain ⟨q, rfl, hrest, hq⟩ := exists_eq_before hp hrest
    have hargument : (q.nested fun r _ => primary r).Covers argument.tokens argument.tree _ :=
      Parsed.covers_nested hcost fun _ hroom => read_covers argument hq hrest trivial hroom
    rw [read, primary_before _ hq]
    exact hargument.past _ _
  | .call id argument =>
    obtain ⟨q, rfl, hrest, hq⟩ := exists_eq_before hp hrest
    have hargument : (q.nested fun r _ => primary r).Covers argument.tokens argument.tree _ :=
      Parsed.covers_nested hcost fun _ hroom => read_covers argument hq hrest trivial hroom
    rw [read, primary_before _ hq]
    exact hargument.past _ _
  | .paren inner =>
    obtain ⟨q, rfl, hrest, hq⟩ := exists_eq_before hp hrest
    have hrest' := hrest.trans (List.append_assoc _ _ _)
    have hinner : (q.nested fun r _ => chain .additive r).Covers inner.tokens inner.tree _ :=
      Parsed.covers_nested hcost fun _ hroom =>
        read_covers inner hq hrest' (Category.ends_closeParen _ _) hroom
    have hclose := hinner.rest_of hrest'
    rw [read, primary_before _ hq]
    exact (hinner.closedBy hclose _).past _ _
  | .abs inner =>
    obtain ⟨q, rfl, hrest, hq⟩ := exists_eq_before hp hrest
    have hrest' := hrest.trans (List.append_assoc _ _ _)
    have hinner : (q.nested fun r _ => chain .additive r).Covers inner.tokens inner.tree _ :=
      Parsed.covers_nested hcost fun _ hroom =>
        read_covers inner hq hrest' (Category.ends_bar _ _) hroom
    have hclose := hinner.rest_of hrest'
    rw [read, primary_before _ hq]
    exact (hinner.closedBy hclose _).past _ _
  | .bare operand =>
    have hoperand := read_covers operand hp hrest trivial hcost
    rw [read, signed_eq_primary fun op more => hrest ▸ operand.tokens_append_ne_sign op rest more]
    exact hoperand
  | .sign op operand =>
    obtain ⟨q, rfl, hrest, hq⟩ := exists_eq_before hp hrest
    have hoperand : (q.nested fun r _ => signed r).Covers operand.tokens operand.tree _ :=
      Parsed.covers_nested hcost fun _ hroom => read_covers operand hq hrest trivial hroom
    rw [read, signed_before_sign]
    exact hoperand.past _ _
  | .chain first tail =>
    have hroom : p.depth + max first.cost (tail.costFrom 1) ≤ maxNesting := hcost
    have hrest' := hrest.trans (List.append_assoc _ _ _)
    have hfirst := read_covers first hp hrest' (tail.ends_operand hends) (by omega)
    refine .chain hfirst (chainFrom_covers tail hfirst.unbroken (hfirst.rest_of hrest') hends ?_)
    rw [hfirst.depth_eq]
    omega

/-- The tail of a chain ahead is read, where nesting leaves room for it. -/
theorem chainFrom_covers {level : Level} (t : Tail level) {left : Expr} {p : Parser}
    {rest : List Token} (hp : p.broken = false) (hrest : p.rest = t.tokens ++ rest)
    (hends : (Category.chain level).Ends rest) (hcost : p.depth + t.costFrom 1 ≤ maxNesting) :
    (chainFrom level left p).CoversTail left t := by
  match t with
  | .done =>
    rw [chainFrom_of_ends left (hrest ▸ fun _ => op?_eq_none_of_ends hends)]
    exact Parsed.coversTail_done hp left
  | .more op hop operand tail =>
    obtain ⟨q, rfl, hrest, hq⟩ := exists_eq_before hp hrest
    have hroom : q.depth + max (1 + operand.cost) (tail.costFrom 2) ≤ maxNesting := hcost
    have hsucc : max 1 (tail.costFrom 2) = tail.costFrom 1 + 1 := tail.max_costFrom_succ 1
    have hdepth : q.depth < maxNesting := by omega
    have hrest' := hrest.trans (List.append_assoc _ _ _)
    have hright := read_covers operand (p := q.deeper hdepth) hq hrest' (tail.ends_operand hends)
      (by change q.depth + 1 + _ ≤ _; omega)
    refine .more hright (chainFrom_covers tail hright.unbroken (hright.rest_of hrest') hends ?_)
    rw [hright.depth_eq]
    change q.depth + 1 + _ ≤ _
    omega

end

end Parser

/-! ## Formulas -/

/-- `d` derives the tokens of a formula, once its products are written out, and nesting leaves
room for it. -/
structure Derives (tokens : List Token) (d : Derivation) : Prop where
  valid : .invalid ∉ tokens
  tokens_eq : d.tokens = writeProducts tokens
  cost_le : d.cost ≤ maxNesting

theorem parse_of_invalid {tokens : List Token} (h : .invalid ∈ tokens) :
    parse tokens = (.broken, true) := by
  simp [parse, Parser.ofTokens, Parser.parse, containsInvalid_iff.mpr h]

/-- A chain is read, and it is the formula if it takes all tokens and breaks no rule. -/
theorem parse_of_valid {tokens : List Token} (h : .invalid ∉ tokens) :
    let read := Parser.chain .additive { rest := writeProducts tokens }
    parse tokens =
      if read.state.rest = [] ∧ read.state.broken = false then (read.tree, false)
      else (.broken, true) := by
  have hstart : Parser.ofTokens tokens = { rest := writeProducts tokens } :=
    if_neg fun hinvalid => h (containsInvalid_iff.mp hinvalid)
  rw [parse, hstart, Parser.parse]
  generalize Parser.chain .additive { rest := writeProducts tokens } = read
  by_cases hrest : read.state.rest = []
  · cases hbroken : read.state.broken <;> simp [hrest, hbroken]
  · simp [Parser.fail, hrest]

theorem parse_of_derives {tokens : List Token} {d : Derivation} (h : Derives tokens d) :
    parse tokens = (d.tree, false) := by
  have hread := Parser.read_covers d (p := { rest := writeProducts tokens }) rfl
    (by rw [List.append_nil, h.tokens_eq]) (Category.ends_nil _) (by simpa using h.cost_le)
  have hrest : (Parser.read _ _).state.rest = [] :=
    hread.rest_of (by rw [List.append_nil, h.tokens_eq])
  rw [parse_of_valid h.valid]
  simp only [Parser.read] at hread hrest
  rw [if_pos ⟨hrest, hread.unbroken⟩, hread.tree_eq]

theorem derives_of_parse {tokens : List Token} {tree : Expr} (h : parse tokens = (tree, false)) :
    ∃ d, Derives tokens d ∧ d.tree = tree := by
  have hvalid : .invalid ∉ tokens := fun hinvalid => by simp [parse_of_invalid hinvalid] at h
  rw [parse_of_valid hvalid] at h
  split at h
  · next hread =>
    obtain ⟨d, hd⟩ := Parser.read_sound (.chain .additive) _ hread.2
    rw [Parser.read] at hd
    have htokens := hd.rest_eq
    rw [hread.1, List.append_nil] at htokens
    exact ⟨d, ⟨hvalid, htokens.symm, by simpa using hd.cost_le⟩,
      hd.tree_eq.symm.trans (congrArg Prod.fst h)⟩
  · simp at h

/-- The parser accepts what the grammar derives, and nothing else. -/
theorem parse_eq_iff_derives :
    (∀ tokens tree, parse tokens = (tree, false) ↔ ∃ d, Derives tokens d ∧ d.tree = tree) ∧
      (∀ d d' : Derivation, d.tokens = d'.tokens ↔ d = d') ∧
      ∀ tokens, parse tokens = (.broken, true) ↔ ¬∃ d, Derives tokens d := by
  refine ⟨fun tokens tree => ⟨derives_of_parse, ?_⟩, fun d d' => ⟨Phrase.tokens_injective, ?_⟩,
    fun tokens => ⟨?_, ?_⟩⟩
  · rintro ⟨d, hd, rfl⟩
    exact parse_of_derives hd
  · rintro rfl
    rfl
  · rintro hbroken ⟨d, hd⟩
    simp [parse_of_derives hd] at hbroken
  · intro hnone
    by_cases hinvalid : .invalid ∈ tokens
    · exact parse_of_invalid hinvalid
    · have hparse := parse_of_valid hinvalid
      simp only at hparse
      split at hparse
      · exact absurd ((derives_of_parse hparse).imp fun d hd => hd.1) hnone
      · exact hparse

end Formulary
