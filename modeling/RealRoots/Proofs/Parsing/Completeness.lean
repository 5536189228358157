import RealRoots.Proofs.Parsing.Soundness

/-!
# What is derived is read

**Theorem (`arrives`).** Where a valid derivation within the limits leads from one cursor to another
and nothing there goes on with its phrase, the reader of the phrase stops there with its tree.

Sums and products grow to the right while their readers loop. So for these two `Arrives` says that
the loop comes by: reading from the start is the same as looping on from the cursor, with the tree
of the derivation in hand. The rules of the grammar keep `Arrives`, and the induction is on the
derivation.
-/

namespace RealRoots

open Token Grammar Cursor

namespace Phrase

/-- The reader of the phrase gets from `c` to `n` with the tree. -/
def Arrives (s : Symbol) (level : Nat) (c : Cursor) (tree : Expr) (n : Cursor) : Prop :=
  ∃ p : Parsed c, p.tree = tree ∧ p.next = n ∧
    match s with
    | .sum => expr level c = sums level p
    | .product => term level c = products level p
    | .unary => unary level c = .ok p
    | .power => power level c = .ok p
    | .primary => primary level c = .ok p

namespace Arrives

variable {level position : Nat} {c m n : Cursor} {rest : List Token} {a b t : Expr}
  {op : Operator}

/-! ## The ends of the loops -/

theorem term_eq_ok (h : Arrives .product level c t n) (hn : ¬ n.Multiplies) :
    ∃ p : Parsed c, p.tree = t ∧ p.next = n ∧ Phrase.term level c = .ok p := by
  obtain ⟨p, ht, rfl, h⟩ := h
  exact ⟨p, ht, rfl, by rw [h, products_of_not_multiplies hn]⟩

theorem expr_eq_ok (h : Arrives .sum level c t n) (hn : ¬ n.Adds) :
    ∃ p : Parsed c, p.tree = t ∧ p.next = n ∧ expr level c = .ok p := by
  obtain ⟨p, ht, rfl, h⟩ := h
  exact ⟨p, ht, rfl, by rw [h, sums_of_not_adds hn]⟩

/-! ## The rules of the grammar -/

theorem term (h : Arrives .product level c t n) (hn : ¬ n.Multiplies) :
    Arrives .sum level c t n := by
  obtain ⟨p, ht, hp, h⟩ := h.term_eq_ok hn
  exact ⟨p, ht, hp, by simp only [expr_eq, h, ok_bind]⟩

theorem sum (hop : op = .add ∨ op = .sub) (hl : Arrives .sum level c a m)
    (hm : m.rest = ⟨sign op, position⟩ :: rest)
    (hr : Arrives .product level ⟨some ⟨sign op, position⟩, rest⟩ b n) (hn : ¬ n.Multiplies)
    (hd : (Expr.binary op a b).depth ≤ maxDepth) : Arrives .sum level c (.binary op a b) n := by
  obtain ⟨p, rfl, rfl, hp⟩ := hl
  obtain ⟨q, rfl, rfl, hq⟩ := hr.term_eq_ok hn
  have htree : bounded (.binary op p.tree q.tree) position = .ok _ := bounded_eq_ok.2 ⟨rfl, hd⟩
  exact ⟨p.through (.binary op p.tree q.tree) q (Nat.le_of_lt (rest_lt hm)), rfl, rfl, by
    simp only [hp, sums_of_sign hop hm, hq, htree, ok_bind]⟩

theorem factor (h : Arrives .unary level c t n) : Arrives .product level c t n := by
  obtain ⟨p, ht, hn, hp⟩ := h
  exact ⟨p, ht, hn, by simp only [term_eq, hp, ok_bind]⟩

theorem product (hop : op = .mul ∨ op = .div) (hl : Arrives .product level c a m)
    (hm : m.rest = ⟨sign op, position⟩ :: rest)
    (hr : Arrives .unary level ⟨some ⟨sign op, position⟩, rest⟩ b n)
    (hd : (Expr.binary op a b).depth ≤ maxDepth) :
    Arrives .product level c (.binary op a b) n := by
  obtain ⟨p, rfl, rfl, hp⟩ := hl
  obtain ⟨q, rfl, rfl, hq⟩ := hr
  have htree : bounded (.binary op p.tree q.tree) position = .ok _ := bounded_eq_ok.2 ⟨rfl, hd⟩
  exact ⟨p.through (.binary op p.tree q.tree) q (Nat.le_of_lt (rest_lt hm)), rfl, rfl, by
    simp only [hp, products_of_sign hop hm, hq, htree, ok_bind]⟩

theorem implicit (hl : Arrives .product level c a m)
    (hlast : ∃ value, m.last? = some (.number value)) (hnext : ∃ k ∈ m.next?, k.startsFactor)
    (hr : Arrives .power level m b n) (hd : (Expr.binary .mul a b).depth ≤ maxDepth) :
    Arrives .product level c (.binary .mul a b) n := by
  obtain ⟨p, rfl, rfl, hp⟩ := hl
  obtain ⟨q, rfl, rfl, hq⟩ := hr
  obtain ⟨k, hk, hk'⟩ := hnext
  obtain ⟨position, rest, hm⟩ := next?_eq_some hk
  have htree : bounded (.binary .mul p.tree q.tree) position = .ok _ := bounded_eq_ok.2 ⟨rfl, hd⟩
  exact ⟨p.through (.binary .mul p.tree q.tree) q (Nat.le_refl _), rfl, rfl, by
    simp only [hp, products_implicit hlast hm hk', hq, htree, ok_bind]⟩

theorem minus (hl : level < maxDepth) (hc : c.rest = ⟨.minus, position⟩ :: rest)
    (h : Arrives .unary (level + 1) ⟨some ⟨.minus, position⟩, rest⟩ t n)
    (hd : (Expr.neg t).depth ≤ maxDepth) : Arrives .unary level c (.neg t) n := by
  obtain ⟨p, rfl, rfl, hp⟩ := h
  have htree : bounded (.neg p.tree) position = .ok _ := bounded_eq_ok.2 ⟨rfl, hd⟩
  exact ⟨⟨.neg p.tree, p.next, Nat.lt_trans p.shorter (rest_lt hc)⟩, rfl, rfl, by
    simp only [unary_minus hl hc, hp, htree, ok_bind]⟩

theorem plus (hl : level < maxDepth) (hc : c.rest = ⟨.plus, position⟩ :: rest)
    (h : Arrives .unary (level + 1) ⟨some ⟨.plus, position⟩, rest⟩ t n) :
    Arrives .unary level c t n := by
  obtain ⟨p, rfl, rfl, hp⟩ := h
  exact ⟨p.within (Nat.le_of_lt (rest_lt hc)), rfl, rfl, by
    simp only [unary_plus hl hc, hp, ok_bind]⟩

theorem unsigned (hl : level < maxDepth) (hm : c.next? ≠ some .minus)
    (hp : c.next? ≠ some .plus) (h : Arrives .power (level + 1) c t n) :
    Arrives .unary level c t n := by
  obtain ⟨p, ht, hn, h⟩ := h
  exact ⟨p, ht, hn, (unary_unsigned hl hm hp).trans h⟩

theorem bare (h : Arrives .primary level c t n) (hn : ¬ n.Raises) :
    Arrives .power level c t n := by
  obtain ⟨p, ht, rfl, h⟩ := h
  exact ⟨p, ht, rfl, power_bare h hn⟩

theorem raised (hb : Arrives .primary level c a m) (hm : m.rest = ⟨.caret, position⟩ :: rest)
    (he : Arrives .unary level ⟨some ⟨.caret, position⟩, rest⟩ b n)
    (hd : (Expr.binary .pow a b).depth ≤ maxDepth) :
    Arrives .power level c (.binary .pow a b) n := by
  obtain ⟨p, rfl, rfl, hp⟩ := hb
  obtain ⟨q, rfl, rfl, hq⟩ := he
  have htree : bounded (.binary .pow p.tree q.tree) position = .ok _ := bounded_eq_ok.2 ⟨rfl, hd⟩
  exact ⟨p.through (.binary .pow p.tree q.tree) q (Nat.le_of_lt (rest_lt hm)), rfl, rfl, by
    simp only [power_raised hp hm, hq, htree, ok_bind]⟩

theorem number {value : Float} (hc : c.rest = ⟨.number value, position⟩ :: rest) :
    Arrives .primary level c (.number value) ⟨some ⟨.number value, position⟩, rest⟩ :=
  ⟨_, rfl, rfl, primary_number hc⟩

theorem name {spelling : String} (ht : Constant spelling t)
    (hc : c.rest = ⟨.identifier spelling, position⟩ :: rest)
    (hn : ¬ Calls ⟨some ⟨.identifier spelling, position⟩, rest⟩) :
    Arrives .primary level c t ⟨some ⟨.identifier spelling, position⟩, rest⟩ := by
  have hnext := not_and.1 hn ⟨spelling, rfl⟩
  have hident : identifier spelling position = .ok t := identifier_eq_ok.2 ht
  exact ⟨⟨t, _, rest_lt hc⟩, rfl, rfl, by simp only [primary_name hc hnext, hident, ok_bind]⟩

theorem brackets {close : Nat} {tail : List Token}
    (hc : c.rest = ⟨.leftParen, position⟩ :: rest)
    (h : Arrives .sum level ⟨some ⟨.leftParen, position⟩, rest⟩ t m)
    (hm : m.rest = ⟨.rightParen, close⟩ :: tail) :
    Arrives .primary level c t ⟨some ⟨.rightParen, close⟩, tail⟩ := by
  have hadds := (ends_of_next (.inr (next?_of_rest hm))).2
  obtain ⟨p, rfl, rfl, hp⟩ := h.expr_eq_ok hadds
  have hclosed := Parsed.closed_of_rest hm
  exact ⟨_, rfl, rfl, by simp only [primary_brackets hc, hp, hclosed, ok_bind]; rfl⟩

theorem call {spelling : String} {function : Function} {bracket close : Nat} {tail : List Token}
    (hf : Named spelling function)
    (hc : c.rest = ⟨.identifier spelling, position⟩ :: ⟨.leftParen, bracket⟩ :: rest)
    (h : Arrives .sum level ⟨some ⟨.leftParen, bracket⟩, rest⟩ t m)
    (hm : m.rest = ⟨.rightParen, close⟩ :: tail)
    (hd : (Expr.call function t).depth ≤ maxDepth) :
    Arrives .primary level c (.call function t) ⟨some ⟨.rightParen, close⟩, tail⟩ := by
  have hadds := (ends_of_next (.inr (next?_of_rest hm))).2
  obtain ⟨p, rfl, rfl, hp⟩ := h.expr_eq_ok hadds
  have hclosed := Parsed.closed_of_rest hm
  have hargs : arguments level 1 p = .ok (1, p) :=
    arguments_of_ne_comma (by simp [next?_of_rest hm])
  have hcall : callOf function 1 p.tree position = .ok _ := callOf_eq_ok.2 ⟨rfl, rfl, hd⟩
  exact ⟨_, rfl, rfl, by
    simp only [primary_call (Named.iff_ofName?.1 hf) hc, hp, hargs, hclosed, hcall, ok_bind]; rfl⟩

end Arrives

/-- **What is derived is read.** -/
theorem arrives {s : Symbol} (d : Derivation s) {level : Nat} {c n : Cursor} (hv : d.Valid)
    (hlevel : level + d.nesting ≤ maxDepth) (hdepth : d.tree.depth ≤ maxDepth)
    (hp : Passes c d.yield n) (hn : n.Ends s) : Arrives s level c d.tree n := by
  induction d generalizing level c n with
  | term only ih => exact (ih hv hlevel hdepth hp ⟨hn.1, hn.2.1⟩).term hn.2.2
  | sum left op right hop ihl ihr =>
    obtain ⟨hvl, hvr⟩ := hv
    obtain ⟨m, hpl, hp⟩ := Passes.append_iff.1 hp
    obtain ⟨position, rest, hm, hpr⟩ := Passes.cons_iff.1 hp
    have hadds : m.Adds := ⟨op, hop, next?_of_rest hm⟩
    simp only [Derivation.nesting, Derivation.tree, Expr.depth] at hlevel hdepth
    have hl : Arrives .sum level c left.tree m :=
      ihl hvl (by omega) (by omega) hpl hadds.ends
    have hr : Arrives .product level ⟨some ⟨sign op, position⟩, rest⟩ right.tree n :=
      ihr hvr (by omega) (by omega) hpr ⟨hn.1, hn.2.1⟩
    exact hl.sum hop hm hr hn.2.2 hdepth
  | factor only ih => exact (ih hv hlevel hdepth hp hn).factor
  | product left op right hop ihl ihr =>
    obtain ⟨hvl, hvr⟩ := hv
    obtain ⟨m, hpl, hp⟩ := Passes.append_iff.1 hp
    obtain ⟨position, rest, hm, hpr⟩ := Passes.cons_iff.1 hp
    have hmul : m.Multiplies := .inl ⟨op, hop, next?_of_rest hm⟩
    simp only [Derivation.nesting, Derivation.tree, Expr.depth] at hlevel hdepth
    have hl : Arrives .product level c left.tree m :=
      ihl hvl (by omega) (by omega) hpl hmul.ends
    have hr : Arrives .unary level ⟨some ⟨sign op, position⟩, rest⟩ right.tree n :=
      ihr hvr (by omega) (by omega) hpr hn
    exact hl.product hop hm hr hdepth
  | implicit left right ihl ihr =>
    obtain ⟨hvl, hvr, hlast, hnext⟩ := hv
    obtain ⟨m, hpl, hpr⟩ := Passes.append_iff.1 hp
    rw [EndsInNumber, ← hpl.last?_eq left.yield_ne_nil] at hlast
    rw [StartsFactor, ← hpr.next?_eq right.yield_ne_nil] at hnext
    have hmul : m.Multiplies := .inr ⟨hlast, hnext⟩
    simp only [Derivation.nesting, Derivation.tree, Expr.depth] at hlevel hdepth
    have hl : Arrives .product level c left.tree m :=
      ihl hvl (by omega) (by omega) hpl hmul.ends
    have hr : Arrives .power level m right.tree n :=
      ihr hvr (by omega) (by omega) hpr hn
    exact hl.implicit hlast (exists_startsFactor hnext) hr hdepth
  | minus operand ih =>
    obtain ⟨position, rest, hc, hp⟩ := Passes.cons_iff.1 hp
    simp only [Derivation.nesting, Derivation.tree, Expr.depth] at hlevel hdepth
    exact .minus (by omega) hc (ih hv (by omega) (by omega) hp hn) hdepth
  | plus operand ih =>
    obtain ⟨position, rest, hc, hp⟩ := Passes.cons_iff.1 hp
    simp only [Derivation.nesting] at hlevel
    exact .plus (by omega) hc (ih hv (by omega) hdepth hp hn)
  | unsigned only ih =>
    simp only [Derivation.nesting] at hlevel
    have hp : Passes c only.yield n := hp
    obtain ⟨hminus, hplus⟩ := only.next?_ne_sign hp
    exact .unsigned (by omega) hminus hplus (ih hv (by omega) hdepth hp hn)
  | bare only ih => exact (ih hv hlevel hdepth hp hn.1).bare hn.2
  | raised base exponent ihb ihe =>
    obtain ⟨hvb, hve⟩ := hv
    obtain ⟨m, hpb, hp⟩ := Passes.append_iff.1 hp
    obtain ⟨position, rest, hm, hpe⟩ := Passes.cons_iff.1 hp
    have hraises : m.Raises := next?_of_rest hm
    simp only [Derivation.nesting, Derivation.tree, Expr.depth] at hlevel hdepth
    have hb : Arrives .primary level c base.tree m :=
      ihb hvb (by omega) (by omega) hpb hraises.ends
    have he : Arrives .unary level ⟨some ⟨.caret, position⟩, rest⟩ exponent.tree n :=
      ihe hve (by omega) (by omega) hpe hn
    exact hb.raised hm he hdepth
  | number value =>
    obtain ⟨position, rest, hc, hp⟩ := Passes.cons_iff.1 hp
    exact Passes.nil_iff.1 hp ▸ .number hc
  | name spelling meaning h =>
    obtain ⟨position, rest, hc, hp⟩ := Passes.cons_iff.1 hp
    obtain rfl := Passes.nil_iff.1 hp
    exact .name h hc hn
  | brackets inner ih =>
    obtain ⟨position, rest, hc, hp⟩ := Passes.cons_iff.1 hp
    obtain ⟨m, hpi, hp⟩ := Passes.append_iff.1 hp
    obtain ⟨close, tail, hm, hp⟩ := Passes.cons_iff.1 hp
    obtain rfl := Passes.nil_iff.1 hp
    exact .brackets hc (ih hv hlevel hdepth hpi (ends_of_next (.inr (next?_of_rest hm))).1) hm
  | call spelling function h argument ih =>
    obtain ⟨position, _, hc, hp⟩ := Passes.cons_iff.1 hp
    obtain ⟨bracket, rest, rfl, hp'⟩ := Passes.cons_iff.1 hp
    obtain ⟨m, hpa, hp'⟩ := Passes.append_iff.1 hp'
    obtain ⟨close, tail, hm, hp'⟩ := Passes.cons_iff.1 hp'
    obtain rfl := Passes.nil_iff.1 hp'
    simp only [Derivation.tree, Expr.depth] at hdepth
    have ha : Arrives .sum level ⟨some ⟨.leftParen, bracket⟩, rest⟩ argument.tree m :=
      ih hv hlevel (by omega) hpa (ends_of_next (.inr (next?_of_rest hm))).1
    exact .call h hc ha hm hdepth

end Phrase

end RealRoots
