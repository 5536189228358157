import RealRoots.Proofs.Parsing.Steps

/-!
# What the parser reads is derived

**Theorem (`sound`).** Whatever a reader of the parser returns is the tree of a valid derivation of
the tokens between the two cursors, and the limits on nesting and depth hold.

`Reads` says so of a phrase. It is closed under the rules of the grammar (`Reads.sum` and its
neighbours), so a loop keeps it for what it has read so far, and each reader is one application of
a rule. The induction is on the number of tokens ahead: every call of a reader but those at the same
cursor is at a later one.
-/

namespace RealRoots

open Token Grammar Cursor

/-- A valid derivation within the limits leads from `c` to `n` and has the tree. Its signed factors
nest inside `level` others. -/
def Reads (s : Symbol) (level : Nat) (c : Cursor) (tree : Expr) (n : Cursor) : Prop :=
  ∃ d : Derivation s, d.Valid ∧ d.tree = tree ∧ level + d.nesting ≤ maxDepth ∧
    tree.depth ≤ maxDepth ∧ Passes c d.yield n

namespace Reads

variable {s : Symbol} {level position : Nat} {c m n : Cursor} {rest : List Token} {a b t : Expr}
  {op : Operator}

/-! ## The rules of the grammar -/

theorem level_le (h : Reads s level c t n) : level ≤ maxDepth := by
  obtain ⟨d, -, -, hn, -⟩ := h
  omega

/-- The tokens that are read close the brackets that they open. -/
theorem balanced (h : Reads s level c t n) :
    ∃ u, Passes c u n ∧ u ≠ [] ∧ u.count .leftParen = u.count .rightParen := by
  obtain ⟨d, -, -, -, -, hp⟩ := h
  exact ⟨d.yield, hp, d.yield_ne_nil, d.count_parens⟩

/-- Rules that only change the name of the phrase. -/
theorem term (h : Reads .product level c t n) : Reads .sum level c t n := by
  obtain ⟨d, hv, ht, hn, hd, hp⟩ := h
  exact ⟨.term d, hv, ht, hn, hd, hp⟩

theorem factor (h : Reads .unary level c t n) : Reads .product level c t n := by
  obtain ⟨d, hv, ht, hn, hd, hp⟩ := h
  exact ⟨.factor d, hv, ht, hn, hd, hp⟩

theorem bare (h : Reads .primary level c t n) : Reads .power level c t n := by
  obtain ⟨d, hv, ht, hn, hd, hp⟩ := h
  exact ⟨.bare d, hv, ht, hn, hd, hp⟩

theorem sum (hop : op = .add ∨ op = .sub) (hl : Reads .sum level c a m)
    (hm : m.rest = ⟨sign op, position⟩ :: rest)
    (hr : Reads .product level ⟨some ⟨sign op, position⟩, rest⟩ b n)
    (hd : (Expr.binary op a b).depth ≤ maxDepth) : Reads .sum level c (.binary op a b) n := by
  obtain ⟨d, hv, rfl, hn, -, hp⟩ := hl
  obtain ⟨e, hv', rfl, hn', -, hp'⟩ := hr
  exact ⟨.sum d op e hop, ⟨hv, hv'⟩, rfl, by simp only [Derivation.nesting]; omega, hd,
    hp.append ((Passes.token hm).append hp')⟩

theorem product (hop : op = .mul ∨ op = .div) (hl : Reads .product level c a m)
    (hm : m.rest = ⟨sign op, position⟩ :: rest)
    (hr : Reads .unary level ⟨some ⟨sign op, position⟩, rest⟩ b n)
    (hd : (Expr.binary op a b).depth ≤ maxDepth) : Reads .product level c (.binary op a b) n := by
  obtain ⟨d, hv, rfl, hn, -, hp⟩ := hl
  obtain ⟨e, hv', rfl, hn', -, hp'⟩ := hr
  exact ⟨.product d op e hop, ⟨hv, hv'⟩, rfl, by simp only [Derivation.nesting]; omega, hd,
    hp.append ((Passes.token hm).append hp')⟩

theorem implicit (hl : Reads .product level c a m) (hm : m.Multiplies)
    (hs : ∀ op, m.next? ≠ some (sign op)) (hr : Reads .power level m b n)
    (hd : (Expr.binary .mul a b).depth ≤ maxDepth) :
    Reads .product level c (.binary .mul a b) n := by
  obtain ⟨d, hv, rfl, hn, -, hp⟩ := hl
  obtain ⟨e, hv', rfl, hn', -, hp'⟩ := hr
  have hrule : EndsInNumber d.yield ∧ StartsFactor e.yield := by
    obtain ⟨op, -, h⟩ | ⟨hlast, hnext⟩ := hm
    · exact absurd h (hs op)
    · rw [hp.last?_eq d.yield_ne_nil] at hlast
      rw [hp'.next?_eq e.yield_ne_nil] at hnext
      exact ⟨hlast, hnext⟩
  exact ⟨.implicit d e, ⟨hv, hv', hrule⟩, rfl, by simp only [Derivation.nesting]; omega, hd,
    hp.append hp'⟩

theorem minus (hc : c.rest = ⟨.minus, position⟩ :: rest)
    (h : Reads .unary (level + 1) ⟨some ⟨.minus, position⟩, rest⟩ t n)
    (hd : (Expr.neg t).depth ≤ maxDepth) : Reads .unary level c (.neg t) n := by
  obtain ⟨d, hv, rfl, hn, -, hp⟩ := h
  exact ⟨.minus d, hv, rfl, by simp only [Derivation.nesting]; omega, hd,
    (Passes.token hc).append hp⟩

theorem plus (hc : c.rest = ⟨.plus, position⟩ :: rest)
    (h : Reads .unary (level + 1) ⟨some ⟨.plus, position⟩, rest⟩ t n) :
    Reads .unary level c t n := by
  obtain ⟨d, hv, rfl, hn, hd, hp⟩ := h
  exact ⟨.plus d, hv, rfl, by simp only [Derivation.nesting]; omega, hd,
    (Passes.token hc).append hp⟩

theorem unsigned (h : Reads .power (level + 1) c t n) : Reads .unary level c t n := by
  obtain ⟨d, hv, rfl, hn, hd, hp⟩ := h
  exact ⟨.unsigned d, hv, rfl, by simp only [Derivation.nesting]; omega, hd, hp⟩

theorem raised (hb : Reads .primary level c a m) (hm : m.rest = ⟨.caret, position⟩ :: rest)
    (he : Reads .unary level ⟨some ⟨.caret, position⟩, rest⟩ b n)
    (hd : (Expr.binary .pow a b).depth ≤ maxDepth) :
    Reads .power level c (.binary .pow a b) n := by
  obtain ⟨d, hv, rfl, hn, -, hp⟩ := hb
  obtain ⟨e, hv', rfl, hn', -, hp'⟩ := he
  exact ⟨.raised d e, ⟨hv, hv'⟩, rfl, by simp only [Derivation.nesting]; omega, hd,
    hp.append ((Passes.token hm).append hp')⟩

theorem number {value : Float} (hl : level ≤ maxDepth)
    (hc : c.rest = ⟨.number value, position⟩ :: rest) :
    Reads .primary level c (.number value) ⟨some ⟨.number value, position⟩, rest⟩ :=
  ⟨.number value, trivial, rfl, hl, by simp [Expr.depth, maxDepth], Passes.token hc⟩

theorem name {spelling : String} (hl : level ≤ maxDepth) (ht : Constant spelling t)
    (hc : c.rest = ⟨.identifier spelling, position⟩ :: rest) :
    Reads .primary level c t ⟨some ⟨.identifier spelling, position⟩, rest⟩ :=
  ⟨.name spelling t ht, trivial, rfl, hl, by cases ht <;> simp [Expr.depth, maxDepth],
    Passes.token hc⟩

theorem brackets {close : Nat} {tail : List Token} (hc : c.rest = ⟨.leftParen, position⟩ :: rest)
    (h : Reads .sum level ⟨some ⟨.leftParen, position⟩, rest⟩ t m)
    (hm : m.rest = ⟨.rightParen, close⟩ :: tail) :
    Reads .primary level c t ⟨some ⟨.rightParen, close⟩, tail⟩ := by
  obtain ⟨d, hv, rfl, hn, hd, hp⟩ := h
  exact ⟨.brackets d, hv, rfl, hn, hd,
    (Passes.token hc).append (hp.append (Passes.token hm))⟩

theorem call {spelling : String} {function : Function} {bracket close : Nat} {tail : List Token}
    (hf : Named spelling function)
    (hc : c.rest = ⟨.identifier spelling, position⟩ :: ⟨.leftParen, bracket⟩ :: rest)
    (h : Reads .sum level ⟨some ⟨.leftParen, bracket⟩, rest⟩ t m)
    (hm : m.rest = ⟨.rightParen, close⟩ :: tail)
    (hd : (Expr.call function t).depth ≤ maxDepth) :
    Reads .primary level c (.call function t) ⟨some ⟨.rightParen, close⟩, tail⟩ := by
  obtain ⟨d, hv, rfl, hn, -, hp⟩ := h
  have hname : Passes c [.identifier spelling, .leftParen] ⟨some ⟨.leftParen, bracket⟩, rest⟩ :=
    (Passes.token hc).append (Passes.token rfl)
  exact ⟨.call spelling function hf d, hv, rfl, hn, hd,
    hname.append (hp.append (Passes.token hm))⟩

end Reads

theorem identifier_eq_ok {name : String} {position : Nat} {t : Expr} :
    identifier name position = .ok t ↔ Constant name t := by
  unfold identifier
  constructor
  · intro h
    split at h
    · cases h
      exact .x ‹_›
    split at h
    · cases h
      exact .pi (by simpa)
    split at h
    · cases h
      exact .e (by simpa)
    split at h <;> cases h
  · rintro (rfl | h | h)
    · rfl
    · simp only [List.mem_cons, List.not_mem_nil, or_false] at h
      obtain rfl | rfl | rfl := h <;> rfl
    · simp only [List.mem_cons, List.not_mem_nil, or_false] at h
      obtain rfl | rfl := h <;> rfl

theorem callOf_eq_ok {function : Function} {count position : Nat} {argument t : Expr} :
    callOf function count argument position = .ok t ↔
      count = 1 ∧ t = .call function argument ∧ (Expr.call function argument).depth ≤ maxDepth := by
  unfold callOf
  split <;> simp_all [bounded_eq_ok, Function.arity]

namespace Phrase

/-- A call with one argument is counted as such only if no other follows. -/
theorem arguments_eq_ok {level count n : Nat} {c : Cursor} {last q : Parsed c}
    (h : arguments level count last = .ok (n, q)) : (n = count ∧ q = last) ∨ count < n := by
  by_cases hcomma : last.next.next? = some .comma
  · obtain ⟨position, rest, hrest⟩ := next?_eq_some hcomma
    rw [arguments_of_comma hrest, bind_eq_ok] at h
    obtain ⟨next, -, h⟩ := h
    have := arguments_eq_ok h
    omega
  · rw [arguments_of_ne_comma hcomma] at h
    cases h
    exact .inl ⟨rfl, rfl⟩
termination_by last.next.rest.length
decreasing_by exact Nat.lt_trans next.shorter (rest_lt hrest)

/-- What is read from the cursor is derived. -/
structure Sound (c : Cursor) : Prop where
  expr : ∀ {level p}, expr level c = .ok p → Reads .sum level c p.tree p.next
  term : ∀ {level p}, term level c = .ok p → Reads .product level c p.tree p.next
  unary : ∀ {level p}, unary level c = .ok p → Reads .unary level c p.tree p.next
  power : ∀ {level p}, level ≤ maxDepth → power level c = .ok p →
    Reads .power level c p.tree p.next
  primary : ∀ {level p}, level ≤ maxDepth → primary level c = .ok p →
    Reads .primary level c p.tree p.next

section Step

variable {level : Nat} {c : Cursor} {p : Parsed c}
  (ih : ∀ d : Cursor, d.rest.length < c.rest.length → Sound d)

include ih

theorem primary_reads (hl : level ≤ maxDepth) (h : primary level c = .ok p) :
    Reads .primary level c p.tree p.next := by
  obtain hc | ⟨name, hc⟩ | ⟨value, hc⟩ := starts_of_primary_eq_ok h
  · obtain ⟨position, rest, hrest⟩ := next?_eq_some hc
    simp only [primary_brackets hrest, bind_eq_ok] at h
    obtain ⟨inner, hinner, q, hq, ⟨⟩⟩ := h
    obtain ⟨close, tail, hclose, ht, hn⟩ := Parsed.rest_of_closed_eq_ok hq
    have := (ih _ (rest_lt hrest)).expr hinner
    simpa [Parsed.within, ht, hn] using this.brackets hrest hclose
  · obtain ⟨position, rest, hrest⟩ := next?_eq_some hc
    by_cases hopen : next? ⟨some ⟨.identifier name, position⟩, rest⟩ = some .leftParen
    · obtain ⟨bracket, tail, rfl⟩ := next?_eq_some hopen
      cases hf : Function.ofName? name with
      | none => simp [primary_unknown hf hrest] at h
      | some function =>
        simp only [primary_call hf hrest, bind_eq_ok] at h
        obtain ⟨first, hfirst, ⟨count, last⟩, hlast, q, hq, t, ht, ⟨⟩⟩ := h
        obtain ⟨rfl, rfl, hd⟩ := callOf_eq_ok.1 ht
        obtain ⟨-, rfl⟩ : 1 = 1 ∧ last = first := by simpa using arguments_eq_ok hlast
        obtain ⟨close, tail', hclose, -, hn⟩ := Parsed.rest_of_closed_eq_ok hq
        have hinner := (ih ⟨some ⟨.leftParen, bracket⟩, tail⟩ (rest_lt_of_two hrest)).expr hfirst
        simpa [hn] using hinner.call (Named.iff_ofName?.2 hf) hrest hclose hd
    · simp only [primary_name hrest hopen, bind_eq_ok] at h
      obtain ⟨t, ht, ⟨⟩⟩ := h
      exact .name hl (identifier_eq_ok.1 ht) hrest
  · obtain ⟨position, rest, hrest⟩ := next?_eq_some hc
    rw [primary_number hrest] at h
    cases h
    exact .number hl hrest

theorem power_reads (hl : level ≤ maxDepth) (h : power level c = .ok p) :
    Reads .power level c p.tree p.next := by
  cases hb : primary level c with
  | error e => simp [power_of_error hb] at h
  | ok base =>
    have hbase := primary_reads ih hl hb
    by_cases hr : base.next.Raises
    · obtain ⟨position, rest, hrest⟩ := next?_eq_some hr
      simp only [power_raised hb hrest, bind_eq_ok, bounded_eq_ok] at h
      obtain ⟨exponent, hexponent, t, ⟨rfl, hd⟩, ⟨⟩⟩ := h
      have hlt := Nat.lt_trans (rest_lt hrest) base.shorter
      exact hbase.raised hrest ((ih _ hlt).unary hexponent) hd
    · rw [power_bare hb hr] at h
      cases h
      exact hbase.bare

theorem unary_reads (h : unary level c = .ok p) : Reads .unary level c p.tree p.next := by
  by_cases hl : level < maxDepth
  · by_cases hm : c.next? = some .minus
    · obtain ⟨position, rest, hrest⟩ := next?_eq_some hm
      simp only [unary_minus hl hrest, bind_eq_ok, bounded_eq_ok] at h
      obtain ⟨operand, hoperand, t, ⟨rfl, hd⟩, ⟨⟩⟩ := h
      exact ((ih _ (rest_lt hrest)).unary hoperand).minus hrest hd
    by_cases hp : c.next? = some .plus
    · obtain ⟨position, rest, hrest⟩ := next?_eq_some hp
      simp only [unary_plus hl hrest, bind_eq_ok] at h
      obtain ⟨operand, hoperand, ⟨⟩⟩ := h
      exact ((ih _ (rest_lt hrest)).unary hoperand).plus hrest
    · rw [unary_unsigned hl hm hp] at h
      exact (power_reads ih hl h).unsigned
  · simp [unary_of_le (Nat.le_of_not_lt hl)] at h

/-- The loop keeps what it has read derived. -/
theorem products_reads {left : Parsed c} (hleft : Reads .product level c left.tree left.next)
    (h : products level left = .ok p) : Reads .product level c p.tree p.next := by
  by_cases hm : left.next.Multiplies
  · obtain ⟨op, position, rest, hop, hrest⟩ | ⟨k, position, rest, hrest, hstarts, hlast, hsign⟩ :=
      hm.cases
    · simp only [products_of_sign hop hrest, bind_eq_ok, bounded_eq_ok] at h
      obtain ⟨right, hright, t, ⟨rfl, hd⟩, h⟩ := h
      have hlt := Nat.lt_trans (rest_lt hrest) left.shorter
      have := Nat.lt_trans right.shorter (rest_lt hrest)
      exact products_reads (hleft.product hop hrest ((ih _ hlt).unary hright) hd) h
    · simp only [products_implicit hlast hrest hstarts, bind_eq_ok, bounded_eq_ok] at h
      obtain ⟨right, hright, t, ⟨rfl, hd⟩, h⟩ := h
      have := right.shorter
      have hpower := (ih _ left.shorter).power hleft.level_le hright
      exact products_reads (hleft.implicit hm hsign hpower hd) h
  · rw [products_of_not_multiplies hm] at h
    cases h
    exact hleft
termination_by left.next.rest.length

theorem term_reads (h : term level c = .ok p) : Reads .product level c p.tree p.next := by
  rw [term_eq, bind_eq_ok] at h
  obtain ⟨first, hfirst, h⟩ := h
  exact products_reads ih (unary_reads ih hfirst).factor h

/-- The loop keeps what it has read derived. -/
theorem sums_reads {left : Parsed c} (hleft : Reads .sum level c left.tree left.next)
    (h : sums level left = .ok p) : Reads .sum level c p.tree p.next := by
  by_cases ha : left.next.Adds
  · obtain ⟨op, hop, hnext⟩ := ha
    obtain ⟨position, rest, hrest⟩ := next?_eq_some hnext
    simp only [sums_of_sign hop hrest, bind_eq_ok, bounded_eq_ok] at h
    obtain ⟨right, hright, t, ⟨rfl, hd⟩, h⟩ := h
    have hlt := Nat.lt_trans (rest_lt hrest) left.shorter
    have := Nat.lt_trans right.shorter (rest_lt hrest)
    exact sums_reads (hleft.sum hop hrest ((ih _ hlt).term hright) hd) h
  · rw [sums_of_not_adds ha] at h
    cases h
    exact hleft
termination_by left.next.rest.length

theorem expr_reads (h : expr level c = .ok p) : Reads .sum level c p.tree p.next := by
  rw [expr_eq, bind_eq_ok] at h
  obtain ⟨first, hfirst, h⟩ := h
  exact sums_reads ih (term_reads ih hfirst).term h

end Step

/-- **What the parser reads is derived.** -/
theorem sound (c : Cursor) : Sound c :=
  have ih (d : Cursor) (_ : d.rest.length < c.rest.length) : Sound d := sound d
  ⟨expr_reads ih, term_reads ih, unary_reads ih, power_reads ih, primary_reads ih⟩
termination_by c.rest.length

end Phrase

end RealRoots
