import Formulary.Proofs.Descent
import Formulary.Proofs.References

/-!
# Reading keeps its balance

A level is entered in two places of the parser and left in two others, with a broken rule possible
in between. What keeps the depth in balance is that each thing that waits knows the depth to go back
to, so that all of them in turn come out at the depth of the beginning (`Unwinds`). The rest is in
order at each moment as well (`InOrder`) : the bounds of the cursor, and that a tree in hand is
whole, with at least one token read for it, unless a rule is broken.

* `Descent.leads_of_step`, `Descent.inOrder_step` : what each step keeps.
* `reading_in_order` : what holds throughout a reading, and at its end.
-/

namespace Formulary

/-! ## No step back -/

/-- The cursor `b` is in the same tokens, has read all that `a` has, and is broken if `a` is. -/
structure Cursor.Leads (a b : Cursor) : Prop where
  tokens_eq : b.tokens = a.tokens
  position_le : a.position ≤ b.position
  broken_of : a.broken = true → b.broken = true

namespace Cursor

theorem leads_refl (k : Cursor) : k.Leads k :=
  ⟨rfl, Nat.le_refl _, id⟩

theorem Leads.trans {a b c : Cursor} (h : a.Leads b) (h' : b.Leads c) : a.Leads c where
  tokens_eq := h'.tokens_eq.trans h.tokens_eq
  position_le := Nat.le_trans h.position_le h'.position_le
  broken_of hbroken := h'.broken_of (h.broken_of hbroken)

theorem leads_move (k : Cursor) : k.Leads k.move :=
  ⟨rfl, Nat.le_succ _, id⟩

theorem leads_fail (k : Cursor) : k.Leads k.fail :=
  ⟨rfl, Nat.le_refl _, fun _ => rfl⟩

/-- The depth may be any. -/
theorem leads_atDepth (k : Cursor) (depth : Nat) : k.Leads (k.atDepth depth) :=
  ⟨rfl, Nat.le_refl _, id⟩

end Cursor

namespace Descent

theorem cursor_take (k : Cursor) (waiting : List Waiting) (token : Token) :
    (take k waiting token).cursor = k := by
  cases token with
  | symbol sign => cases sign <;> rfl
  | _ => rfl

theorem leads_read (k : Cursor) (waiting : List Waiting) (c : Category) :
    k.Leads (read k waiting c).cursor := by
  cases c with
  | chain level => exact k.leads_refl
  | signed =>
    rw [read]
    split
    · exact k.leads_refl
    · split <;> exact k.leads_move
  | primary =>
    rw [read]
    split
    · exact k.leads_refl
    · split
      · exact k.leads_refl
      · rw [cursor_take]
        exact k.leads_move

theorem leads_resume (k : Cursor) (waiting : List Waiting) (tree : Expr) (next : Waiting) :
    k.Leads (resume k waiting tree next).cursor := by
  cases next with
  | ascend => exact k.leads_atDepth _
  | close enclosure =>
    rw [resume]
    split
    · exact k.leads_refl
    · exact k.leads_move
  | _ => exact k.leads_refl

/-- No step gives a token back or mends what is broken. -/
theorem leads_of_step {d next : Descent} (h : d.step = some next) :
    d.cursor.Leads next.cursor := by
  obtain ⟨point, k, waiting⟩ := d
  cases point with
  | read c =>
    obtain rfl := Option.some.inj h
    exact leads_read k waiting c
  | nest c =>
    simp only [step] at h
    split at h <;> obtain rfl := Option.some.inj h
    · exact k.leads_atDepth _
    · exact k.leads_refl
  | chain level left entry =>
    simp only [step] at h
    split at h
    · obtain rfl := Option.some.inj h
      exact k.leads_refl
    · split at h <;> obtain rfl := Option.some.inj h
      · exact k.leads_refl
      · exact k.leads_move
  | operator level left entry sign =>
    simp only [step] at h
    split at h
    · obtain rfl := Option.some.inj h
      exact k.leads_fail
    · split at h <;> obtain rfl := Option.some.inj h
      · exact k.leads_atDepth _
      · exact k.leads_fail
  | leave tree entry =>
    obtain rfl := Option.some.inj h
    exact k.leads_atDepth entry
  | refuse =>
    obtain rfl := Option.some.inj h
    exact k.leads_fail
  | value tree =>
    cases waiting with
    | nil => cases h
    | cons next waiting =>
      obtain rfl := Option.some.inj h
      exact leads_resume k waiting tree next

/-- A step later. -/
theorem leads_run_succ (d : Descent) (n : Nat) : (d.run n).cursor.Leads (d.run (n + 1)).cursor := by
  rw [run, run, runFor_succ]
  cases h : step (runFor step n d) with
  | none => exact Cursor.leads_refl _
  | some next => exact leads_of_step h

theorem leads_run (d : Descent) (n : Nat) : d.cursor.Leads (d.run n).cursor :=
  runFor_keeps (P := fun later => d.cursor.Leads later.cursor)
    (fun _ _ h hstep => h.trans (leads_of_step hstep)) d.cursor.leads_refl n

end Descent

/-! ## The depths to go back to -/

/-- The depth that the phrase in hand is to end at. -/
def Point.endsAt (depth : Nat) : Point → Nat
  | .chain _ _ entry | .operator _ _ entry _ | .leave _ entry => entry
  | _ => depth

/-- The tree that has been read so far. -/
def Point.tree? : Point → Option Expr
  | .chain _ tree _ | .operator _ tree _ _ | .leave tree _ | .value tree => some tree
  | _ => none

namespace Waiting

/-- What waits may go on where a phrase ends at the depth. -/
def Fits (depth : Nat) : Waiting → Prop
  | .first _ entry => depth = entry
  | .right _ _ _ entry => entry ≤ maxNesting
  | .ascend => 0 < depth
  | _ => True

/-- The depth that the phrase it belongs to is to end at, where it goes on at the depth. -/
def endsAt (depth : Nat) : Waiting → Nat
  | .first _ entry | .right _ _ _ entry => entry
  | .ascend => depth - 1
  | _ => depth

/-- The tree that was read before. -/
def tree? : Waiting → Option Expr
  | .right _ left _ _ => some left
  | _ => none

end Waiting

/-- All that waits goes on in turn from the depth, and comes out at the depth `last`. -/
def Unwinds (last : Nat) : Nat → List Waiting → Prop
  | depth, [] => depth = last
  | depth, next :: waiting => next.Fits depth ∧ Unwinds last (next.endsAt depth) waiting

/-! ## Order -/

theorem forall_mem_of_eq_none {P : Expr → Prop} {tree? : Option Expr} (h : tree? = none) :
    ∀ tree ∈ tree?, P tree :=
  fun tree hmem => absurd (h ▸ hmem) (Option.not_mem_none tree)

/-- What holds at each moment of a reading that began at the cursor `first`. -/
structure InOrder (first : Cursor) (d : Descent) : Prop where
  le_position : first.position ≤ d.cursor.position
  position_le : d.cursor.position ≤ d.cursor.tokens.length
  depth_le : d.cursor.depth ≤ maxNesting
  endsAt_le : d.point.endsAt d.cursor.depth ≤ maxNesting
  unwinds : Unwinds first.depth (d.point.endsAt d.cursor.depth) d.waiting
  whole : d.cursor.broken = false → ∀ tree ∈ d.point.tree?,
    tree.IsWhole ∧ first.position < d.cursor.position
  whole_waiting : d.cursor.broken = false → ∀ next ∈ d.waiting, ∀ tree ∈ next.tree?, tree.IsWhole

namespace InOrder

variable {first k : Cursor} {point next : Point} {waiting : List Waiting}

theorem start (c : Category) (hdepth : first.depth ≤ maxNesting)
    (hposition : first.position ≤ first.tokens.length) :
    InOrder first (Descent.start c first) where
  le_position := Nat.le_refl _
  position_le := hposition
  depth_le := hdepth
  endsAt_le := hdepth
  unwinds := rfl
  whole _ := forall_mem_of_eq_none rfl
  whole_waiting _ := List.forall_mem_nil _

/-- At another point, with the same cursor. -/
theorem pass (h : InOrder first ⟨point, k, waiting⟩)
    (hends : next.endsAt k.depth = point.endsAt k.depth)
    (htree : k.broken = false → ∀ tree ∈ next.tree?, tree.IsWhole ∧ first.position < k.position) :
    InOrder first ⟨next, k, waiting⟩ :=
  { h with
    endsAt_le := hends ▸ h.endsAt_le
    unwinds := hends ▸ h.unwinds
    whole := htree }

/-- A token is read. -/
theorem move {token : Token} (h : InOrder first ⟨point, k, waiting⟩) (hpeek : k.peek? = some token)
    (hends : next.endsAt k.depth = point.endsAt k.depth)
    (htree : k.broken = false → ∀ tree ∈ next.tree?, tree.IsWhole) :
    InOrder first ⟨next, k.move, waiting⟩ := by
  obtain ⟨hlt, -⟩ := List.getElem?_eq_some_iff.mp hpeek
  exact
    { h with
      le_position := Nat.le_succ_of_le h.le_position
      position_le := hlt
      endsAt_le := hends ▸ h.endsAt_le
      unwinds := hends ▸ h.unwinds
      whole := fun hun tree hmem => ⟨htree hun tree hmem, Nat.lt_succ_of_le h.le_position⟩ }

/-- A rule is broken. -/
theorem fail (h : InOrder first ⟨point, k, waiting⟩)
    (hends : next.endsAt k.depth = point.endsAt k.depth) :
    InOrder first ⟨next, k.fail, waiting⟩ :=
  { h with
    endsAt_le := hends ▸ h.endsAt_le
    unwinds := hends ▸ h.unwinds
    whole := fun hun => absurd hun.symm Bool.false_ne_true
    whole_waiting := fun hun => absurd hun.symm Bool.false_ne_true }

/-- A phrase is read, for what will wait. -/
theorem wait (h : InOrder first ⟨point, k, waiting⟩) (waits : Waiting)
    (hfits : waits.Fits k.depth) (hends : waits.endsAt k.depth = point.endsAt k.depth)
    (hnext : next.endsAt k.depth = k.depth) (htree : next.tree? = none)
    (hwhole : waits.tree? = none) : InOrder first ⟨next, k, waits :: waiting⟩ :=
  { h with
    endsAt_le := (Nat.le_of_eq hnext).trans h.depth_le
    unwinds := by
      have hrest : Unwinds first.depth k.depth (waits :: waiting) := ⟨hfits, hends ▸ h.unwinds⟩
      exact hnext.symm ▸ hrest
    whole := fun _ => forall_mem_of_eq_none htree
    whole_waiting := fun hun =>
      List.forall_mem_cons.mpr ⟨forall_mem_of_eq_none hwhole, h.whole_waiting hun⟩ }

/-- A phrase is read one level deeper, for what will wait. -/
theorem descend (h : InOrder first ⟨point, k, waiting⟩) (hdepth : k.depth < maxNesting)
    (waits : Waiting) (c : Category) (hfits : waits.Fits (k.depth + 1))
    (hends : waits.endsAt (k.depth + 1) = point.endsAt k.depth)
    (hwhole : k.broken = false → ∀ tree ∈ waits.tree?, tree.IsWhole) :
    InOrder first ⟨.read c, k.descend, waits :: waiting⟩ :=
  { h with
    depth_le := hdepth
    endsAt_le := hdepth
    unwinds := ⟨hfits, hends ▸ h.unwinds⟩
    whole := fun _ => forall_mem_of_eq_none rfl
    whole_waiting := fun hun => List.forall_mem_cons.mpr ⟨hwhole hun, h.whole_waiting hun⟩ }

/-- A phrase has been read, and what waited for it goes on at another point. -/
theorem pop {tree : Expr} {waits : Waiting} (h : InOrder first ⟨.value tree, k, waits :: waiting⟩)
    (hends : next.endsAt k.depth = waits.endsAt k.depth) (hle : waits.endsAt k.depth ≤ maxNesting)
    (htree : k.broken = false → tree.IsWhole → ∀ whole ∈ next.tree?, whole.IsWhole) :
    InOrder first ⟨next, k, waiting⟩ :=
  { h with
    endsAt_le := (Nat.le_of_eq hends).trans hle
    unwinds := hends ▸ h.unwinds.2
    whole := fun hun whole hmem => by
      obtain ⟨hwhole, hlt⟩ := h.whole hun tree rfl
      exact ⟨htree hun hwhole whole hmem, hlt⟩
    whole_waiting := fun hun => (List.forall_mem_cons.mp (h.whole_waiting hun)).2 }

end InOrder

/-! ## Steps -/

theorem Cursor.exists_peek?_of_symbol? {k : Cursor} {signs : List Symbol} {sign : Symbol}
    (h : k.symbol? signs = some sign) : ∃ token, k.peek? = some token := by
  unfold symbol? at h
  split at h
  · next hpeek => exact ⟨_, hpeek⟩
  · cases h

namespace Descent

variable {first k : Cursor} {waiting : List Waiting} {d : Descent}

theorem inOrder_take {point : Point} (token : Token) (h : InOrder first ⟨point, k, waiting⟩)
    (hpoint : point.endsAt k.depth = k.depth) (hpeek : k.peek? = some token) :
    InOrder first (take k.move waiting token) := by
  have hrefuse : InOrder first ⟨.refuse, k.move, waiting⟩ :=
    h.move hpeek hpoint.symm fun _ => forall_mem_of_eq_none rfl
  have hnest (c : Category) (waits : Waiting) (hfits : waits.Fits k.depth)
      (hends : waits.endsAt k.depth = k.depth) (hwhole : waits.tree? = none) :
      InOrder first ⟨.nest c, k.move, waits :: waiting⟩ := by
    have hmoved : InOrder first ⟨.nest c, k.move, waiting⟩ :=
      h.move hpeek hpoint.symm fun _ => forall_mem_of_eq_none rfl
    exact hmoved.wait waits hfits hends rfl rfl hwhole
  have hleaf (tree : Expr) (htree : tree.IsWhole) :
      InOrder first ⟨.value tree, k.move, waiting⟩ := by
    refine h.move hpeek hpoint.symm fun _ read hread => ?_
    obtain rfl := Option.some.inj hread
    exact htree
  cases token with
  | number value => exact hleaf _ trivial
  | var name => exact hleaf _ trivial
  | function f => exact hnest _ (.apply f) trivial rfl rfl
  | reference id => exact hnest _ (.call id) trivial rfl rfl
  | invalid => exact hrefuse
  | symbol sign =>
    cases sign with
    | openParen => exact hnest _ (.close .paren) trivial rfl rfl
    | bar => exact hnest _ (.close .bars) trivial rfl rfl
    | _ => exact hrefuse

theorem inOrder_read {c : Category} (h : InOrder first ⟨.read c, k, waiting⟩) :
    InOrder first (read k waiting c) := by
  cases c with
  | chain level => exact h.wait (.first level k.depth) rfl rfl rfl rfl rfl
  | signed =>
    rw [read]
    split
    · exact h.pass rfl fun _ => forall_mem_of_eq_none rfl
    · next sign hsign =>
      obtain ⟨token, hpeek⟩ := Cursor.exists_peek?_of_symbol? hsign
      split
      · exact h.move hpeek rfl fun _ => forall_mem_of_eq_none rfl
      · next op _ =>
        have hmoved : InOrder first ⟨.nest .signed, k.move, waiting⟩ :=
          h.move hpeek rfl fun _ => forall_mem_of_eq_none rfl
        exact hmoved.wait (.unary op) trivial rfl rfl rfl rfl
  | primary =>
    rw [read]
    split
    · next hbroken => exact h.pass rfl fun hun => absurd hbroken (Bool.eq_false_iff.mp hun)
    · split
      · exact h.pass rfl fun _ => forall_mem_of_eq_none rfl
      · next token hpeek => exact inOrder_take token h rfl hpeek

theorem inOrder_resume {tree : Expr} {next : Waiting}
    (h : InOrder first ⟨.value tree, k, next :: waiting⟩) :
    InOrder first (resume k waiting tree next) := by
  obtain ⟨hfits, hunwinds⟩ := h.unwinds
  cases next with
  | first level entry =>
    refine h.pop rfl ((Nat.le_of_eq hfits.symm).trans h.depth_le) fun _ hwhole read hread => ?_
    obtain rfl := Option.some.inj hread
    exact hwhole
  | right level left op entry =>
    refine h.pop rfl hfits fun hun hwhole read hread => ?_
    obtain rfl := Option.some.inj hread
    exact ⟨h.whole_waiting hun _ List.mem_cons_self left rfl, hwhole⟩
  | ascend =>
    have hle : k.depth - 1 ≤ maxNesting := Nat.le_trans (Nat.sub_le _ _) h.depth_le
    exact { h with
      depth_le := hle
      endsAt_le := hle
      unwinds := hunwinds
      whole_waiting := fun hun => (List.forall_mem_cons.mp (h.whole_waiting hun)).2 }
  | unary op | apply f | call id =>
    refine h.pop rfl h.depth_le fun _ hwhole read hread => ?_
    obtain rfl := Option.some.inj hread
    exact hwhole
  | close enclosure =>
    have hgone : InOrder first ⟨.refuse, k, waiting⟩ :=
      h.pop rfl h.depth_le fun _ _ => forall_mem_of_eq_none rfl
    rw [resume]
    split
    · exact hgone
    · next sign hsign =>
      obtain ⟨token, hpeek⟩ := Cursor.exists_peek?_of_symbol? hsign
      refine hgone.move hpeek rfl fun hun read hread => ?_
      obtain rfl := Option.some.inj hread
      have hwhole := (h.whole hun tree rfl).1
      cases enclosure <;> exact hwhole

theorem inOrder_step {next : Descent} (h : InOrder first d) (hstep : d.step = some next) :
    InOrder first next := by
  obtain ⟨point, k, waiting⟩ := d
  cases point with
  | read c =>
    obtain rfl := Option.some.inj hstep
    exact inOrder_read h
  | nest c =>
    simp only [step] at hstep
    split at hstep
    · next hdepth =>
      obtain rfl := Option.some.inj hstep
      exact h.descend hdepth .ascend c (Nat.succ_pos _) rfl fun _ => forall_mem_of_eq_none rfl
    · obtain rfl := Option.some.inj hstep
      exact h.pass rfl fun _ => forall_mem_of_eq_none rfl
  | chain level left entry =>
    simp only [step] at hstep
    split at hstep
    · obtain rfl := Option.some.inj hstep
      exact h.pass rfl h.whole
    · split at hstep
      · obtain rfl := Option.some.inj hstep
        exact h.pass rfl h.whole
      · next sign hsign =>
        obtain ⟨token, hpeek⟩ := Cursor.exists_peek?_of_symbol? hsign
        obtain rfl := Option.some.inj hstep
        exact h.move hpeek rfl fun hun tree hmem => (h.whole hun tree hmem).1
  | operator level left entry sign =>
    simp only [step] at hstep
    split at hstep
    · obtain rfl := Option.some.inj hstep
      exact h.fail rfl
    · next op _ =>
      split at hstep
      · next hdepth =>
        obtain rfl := Option.some.inj hstep
        exact h.descend hdepth (.right level left op entry) level.operand h.endsAt_le rfl
          fun hun tree hmem => (h.whole hun tree hmem).1
      · obtain rfl := Option.some.inj hstep
        exact h.fail rfl
  | leave tree entry =>
    obtain rfl := Option.some.inj hstep
    exact { h with depth_le := h.endsAt_le }
  | refuse =>
    obtain rfl := Option.some.inj hstep
    exact h.fail rfl
  | value tree =>
    cases waiting with
    | nil => cases hstep
    | cons next waiting =>
      obtain rfl := Option.some.inj hstep
      exact inOrder_resume h

/-- Throughout a reading. -/
theorem inOrder_run (c : Category) (hdepth : first.depth ≤ maxNesting)
    (hposition : first.position ≤ first.tokens.length) (n : Nat) :
    InOrder first ((start c first).run n) :=
  runFor_keeps (fun _ _ => inOrder_step) (.start c hdepth hposition) n

end Descent

open Descent

/-- What is read from a cursor within its bounds, by any function of the parser. The reading ends,
with the tree and the state of the parser. At each moment of it the cursor is within its bounds, no
step gives a token back or mends what is broken, and a level that is left was entered. At the end
the depth is that of the beginning, some token has been read unless a rule is broken, and a rule is
broken if the tree is not whole. -/
theorem reading_in_order (c : Category) (first : Cursor) (hdepth : first.depth ≤ maxNesting)
    (hposition : first.position ≤ first.tokens.length) :
    (∀ n, let d := (start c first).run n
      d.cursor.depth ≤ maxNesting ∧ d.cursor.position ≤ d.cursor.tokens.length ∧
        d.cursor.Leads ((start c first).run (n + 1)).cursor ∧
        ∀ tree waiting, d.point = .value tree → d.waiting = .ascend :: waiting →
          0 < d.cursor.depth) ∧
      ∃ n last, (start c first).run n =
          ⟨.value (Parser.read c (first.parser hdepth)).tree, last, []⟩ ∧
        ((start c first).run n).step = none ∧
        last.At (Parser.read c (first.parser hdepth)).state ∧
        first.Leads last ∧ last.depth = first.depth ∧
        (last.broken = false → first.position < last.position) ∧
        (¬(Parser.read c (first.parser hdepth)).tree.IsWhole → last.broken = true) := by
  have horder := inOrder_run c hdepth hposition
  refine ⟨fun n => ?_, ?_⟩
  · have h := horder n
    refine ⟨h.depth_le, h.position_le, leads_run_succ _ n, fun tree waiting hpoint hwaiting => ?_⟩
    have hunwinds := h.unwinds
    rw [hpoint, hwaiting] at hunwinds
    exact hunwinds.1
  · obtain ⟨last, hlast, hreach⟩ := comesTo_read c (first.parser hdepth) first []
      (first.at_self hdepth)
    obtain ⟨n, hn⟩ := exists_runFor_of_reaches hreach
    have h := horder n
    have hleads := leads_run (start c first) n
    change (start c first).run n = _ at hn
    rw [hn] at h hleads
    refine ⟨n, last, hn, hn ▸ rfl, hlast, hleads, h.unwinds, fun hun => (h.whole hun _ rfl).2,
      fun hwhole => ?_⟩
    cases hbroken : last.broken with
    | true => rfl
    | false => exact absurd (h.whole hbroken _ rfl).1 hwhole

/-- A bracket at the depth of 255 is read, and its level is left again. At the depth of 256 it
breaks a rule, and the depth is kept. -/
theorem reading_in_order_paren :
    let first (depth : Nat) : Cursor :=
      { tokens := [.symbol .openParen, .var .bound, .symbol .closeParen], depth }
    (((start .primary (first 255)).run 16).waiting = [.ascend, .close .paren] ∧
        0 < ((start .primary (first 255)).run 16).cursor.depth) ∧
      (∃ n last, (start .primary (first 255)).run n = ⟨.value (.var .bound), last, []⟩ ∧
        last.depth = 255 ∧ 0 < last.position) ∧
      ∃ n last, (start .primary (first 256)).run n = ⟨.value .broken, last, []⟩ ∧
        last.depth = 256 ∧ last.broken = true := by
  intro first
  have hpoint : ((start .primary (first 255)).run 16).point = .value (.var .bound) := by
    decide +kernel
  have hwaiting : ((start .primary (first 255)).run 16).waiting = [.ascend, .close .paren] := by
    decide +kernel
  have htree : (Parser.read .primary ((first 255).parser (by decide))).tree = .var .bound := by
    decide +kernel
  have hstate : (Parser.read .primary ((first 255).parser (by decide))).state.broken = false := by
    decide +kernel
  have htree' : (Parser.read .primary ((first 256).parser (by decide))).tree = .broken := by
    decide +kernel
  obtain ⟨hmoments, n, last, hrun, -, hlast, -, hdepth, hposition, -⟩ :=
    reading_in_order .primary (first 255) (by decide) (by decide)
  obtain ⟨-, n', last', hrun', -, -, -, hdepth', -, hbroken'⟩ :=
    reading_in_order .primary (first 256) (by decide) (by decide)
  obtain ⟨-, -, -, hleft⟩ := hmoments 16
  rw [htree] at hrun
  rw [htree'] at hrun' hbroken'
  refine ⟨⟨hwaiting, hleft _ _ hpoint hwaiting⟩, ?_, ?_⟩
  · exact ⟨n, last, hrun, hdepth, hposition (hlast.broken_eq.trans hstate)⟩
  · exact ⟨n', last', hrun', hdepth', hbroken' id⟩

end Formulary
