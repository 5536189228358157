import Mathlib
import RealRoots.Proofs.Parsing.Exactness
import RealRoots.Proofs.Printing.Pieces

/-!
# A printed expression is parsed again

A sign binds looser than a power, and the text of a negation is a sign and brackets. So the text
`(-(a) ^ b)` of a power with a negated base is read as the negation of a power. Every other text is
read as the expression that it was printed from.

* `Expr.reread`: what is read from the text of an expression.
* `Expr.reading`: the derivation of the text. An operand that is raised to a power takes the
  exponent where its last power or primary stands (`raise`).
* `Expr.parse_text`: the text parses to what is reread, as long as no limit is reached.
-/

namespace RealRoots

open Grammar Grammar.Derivation

/-! ## Raising a signed factor to a power -/

namespace Grammar.Derivation

/-- The derivation of `d ^ e`. The exponent belongs to the power within the signs. -/
def raise : Derivation .unary → Derivation .unary → Derivation .unary
  | .minus operand, e => .minus (raise operand e)
  | .plus operand, e => .plus (raise operand e)
  | .unsigned (.bare base), e => .unsigned (.raised base e)
  | .unsigned (.raised base exponent), e => .unsigned (.raised base (raise exponent e))

theorem yield_raise (d e : Derivation .unary) :
    (raise d e).yield = d.yield ++ .caret :: e.yield := by
  fun_induction raise d e <;> simp_all [yield]

theorem valid_raise {d e : Derivation .unary} (hd : d.Valid) (he : e.Valid) :
    (raise d e).Valid := by
  fun_induction raise d e <;> simp_all [Valid]

/-- A signed factor as a whole sum. -/
def alone (d : Derivation .unary) : Derivation .sum :=
  .term (.factor d)

/-- The operation on two signed factors, without brackets around it. -/
def combine (d : Derivation .unary) : Operator → Derivation .unary → Derivation .sum
  | .add, e => .sum d.alone .add (.factor e) (.inl rfl)
  | .sub, e => .sum d.alone .sub (.factor e) (.inr rfl)
  | .mul, e => .term (.product (.factor d) .mul e (.inl rfl))
  | .div, e => .term (.product (.factor d) .div e (.inr rfl))
  | .pow, e => (d.raise e).alone

theorem yield_combine (d : Derivation .unary) (op : Operator) (e : Derivation .unary) :
    (d.combine op e).yield = d.yield ++ sign op :: e.yield := by
  cases op with
  | pow => exact yield_raise d e
  | _ => rfl

theorem valid_combine {d e : Derivation .unary} (op : Operator) (hd : d.Valid) (he : e.Valid) :
    (d.combine op e).Valid := by
  cases op with
  | pow => exact valid_raise hd he
  | _ => exact ⟨hd, he⟩

/-- An operand without a sign keeps its place in the operation. -/
theorem tree_combine {d : Derivation .unary} {op : Operator} (e : Derivation .unary)
    (h : op = .pow → ∃ base, d = .unsigned (.bare base)) :
    (d.combine op e).tree = .binary op d.tree e.tree := by
  cases op with
  | pow =>
    obtain ⟨base, rfl⟩ := h rfl
    simp only [combine, raise, alone, tree]
  | _ => rfl

/-- The exponent of a power is one level deeper than the power. -/
theorem nesting_combine_le {d : Derivation .unary} {op : Operator} (e : Derivation .unary)
    (h : op = .pow → ∃ base, d = .unsigned (.bare base)) :
    (d.combine op e).nesting ≤ max d.nesting (e.nesting + 1) := by
  cases op with
  | pow =>
    obtain ⟨base, rfl⟩ := h rfl
    simp only [combine, alone, raise, nesting]
    omega
  | _ =>
    simp only [combine, alone, nesting]
    omega

/-- A sum in brackets. -/
def grouped (d : Derivation .sum) : Derivation .unary :=
  .unsigned (.bare (.brackets d))

end Grammar.Derivation

namespace Expr

/-! ## What is reread -/

/-- What is read from the text of the expression: a negated base of a power loses its sign to the
power. -/
def reread : Expr → Expr
  | number value => number value
  | x => x
  | neg operand => neg operand.reread
  | binary .pow (neg base) exponent => neg (binary .pow base.reread exponent.reread)
  | binary op left right => binary op left.reread right.reread
  | call function argument => call function argument.reread

/-- Is the base of some power a negation? -/
def HasNegatedBase : Expr → Prop
  | number _ | x => False
  | neg operand => operand.HasNegatedBase
  | binary op left right => (op = .pow ∧ ∃ base, left = neg base) ∨ left.HasNegatedBase ∨
      right.HasNegatedBase
  | call _ argument => argument.HasNegatedBase

/-- **An expression is reread as itself exactly if no power has a negated base.** -/
theorem reread_eq_self_iff (e : Expr) : e.reread = e ↔ ¬ e.HasNegatedBase := by
  fun_induction reread e <;> simp_all [HasNegatedBase]

/-- One power gives at most one node more on a path. -/
theorem depth_reread_le (e : Expr) : e.reread.depth ≤ 2 * e.depth := by
  fun_induction reread e <;> simp only [depth] at * <;> omega

/-! ## The derivation of a text -/

/-- The derivation of the text. -/
def reading : Expr → Derivation .unary
  | number value => .unsigned (.bare (.number value))
  | x => .unsigned (.bare (.name "x" .x (.x rfl)))
  | neg operand => .minus (grouped operand.reading.alone)
  | binary op left right => grouped (left.reading.combine op right.reading)
  | call function argument =>
    .unsigned (.bare (.call function.name function (.name function) argument.reading.alone))

theorem yield_reading (e : Expr) (gap : List Char) :
    e.reading.yield = (e.pieces gap).map Piece.kind := by
  induction e generalizing gap with
  | number value => rfl
  | x => rfl
  | neg operand ih =>
    simp [reading, pieces, grouped, alone, yield, Piece.bracketed, ih []]
  | binary op left right ihl ihr =>
    simp [reading, pieces, grouped, yield, yield_combine, Piece.bracketed, ihl [], ihr [' ']]
  | call function argument ih =>
    simp [reading, pieces, alone, yield, Piece.bracketed, ih []]

theorem valid_reading (e : Expr) : e.reading.Valid := by
  induction e with
  | number value => trivial
  | x => trivial
  | neg operand ih => exact ih
  | binary op left right ihl ihr => exact valid_combine op ihl ihr
  | call function argument ih => exact ih

/-- Only a negation starts with a sign. -/
theorem reading_eq_bare {e : Expr} (h : ∀ operand, e ≠ neg operand) :
    ∃ base, e.reading = .unsigned (.bare base) := by
  cases e with
  | neg operand => exact absurd rfl (h operand)
  | _ => exact ⟨_, rfl⟩

/-- **The derivation stands for the expression that is reread.** -/
theorem tree_reading (e : Expr) : e.reading.tree = e.reread := by
  fun_induction reread e with
  | case1 value => rfl
  | case2 => rfl
  | case3 operand ih => exact congrArg neg ih
  | case4 base exponent ihb ihe =>
    simp only [reading, combine, raise, grouped, alone, tree, ihb, ihe]
  | case5 op left right hbase ihl ihr =>
    rw [← ihl, ← ihr]
    exact tree_combine right.reading fun hop => reading_eq_bare fun base hleft =>
      hbase base hop hleft
  | case6 function argument ih => exact congrArg (call function) ih

/-- **Each node costs at most three levels**: a power with a negated base costs one for the
brackets, one for the sign and one for the exponent. -/
theorem nesting_reading (e : Expr) : e.reading.nesting + 2 ≤ 3 * e.depth := by
  fun_induction reread e with
  | case1 value => simp [reading, nesting, depth]
  | case2 => simp [reading, nesting, depth]
  | case3 operand ih =>
    simp only [reading, grouped, alone, nesting, depth]
    omega
  | case4 base exponent ihb ihe =>
    simp only [reading, grouped, combine, raise, alone, nesting, depth]
    omega
  | case5 op left right hbase ihl ihr =>
    have hbare : op = .pow → ∃ base, left.reading = .unsigned (.bare base) := fun hop =>
      reading_eq_bare fun base hleft => hbase base hop hleft
    have hcombine := nesting_combine_le right.reading hbare
    simp only [reading, grouped, nesting, depth]
    omega
  | case6 function argument ih =>
    simp only [reading, alone, nesting, depth]
    omega

/-! ## The printed text is parsed -/

theorem within_reading {e : Expr} (h : e.depth ≤ 85) : e.reading.alone.Within where
  nesting_le := by
    have := e.nesting_reading
    change e.reading.nesting ≤ 256
    omega
  depth_le := by
    have := e.depth_reread_le
    change e.reading.tree.depth ≤ 256
    rw [tree_reading]
    omega

theorem parse_text_eq {e : Expr} (hdepth : e.depth ≤ 85) (hnumbers : e.NumbersUnsigned) :
    parse e.text = .ok e.reread := by
  rw [parse_eq_ok_iff]
  refine ⟨_, tokenize_text hnumbers, Phrase.expr_eq_ok_iff.2
    ⟨e.reading.alone, ⟨e.valid_reading, ?_⟩, e.tree_reading, within_reading hdepth⟩⟩
  rw [Piece.map_kind_tokens]
  exact e.yield_reading []

/-- **Printing and parsing again.** An expression of at most 85 nodes on a path, whose numbers are
finite and without a sign, is printed as a text that parses. What is read is the expression itself
exactly if no power in it has a negated base; otherwise each such power has lost the sign of its
base, so that another expression is read. -/
theorem parse_text (e : Expr) (hdepth : e.depth ≤ 85) (hnumbers : e.NumbersUnsigned) :
    parse e.text = .ok e.reread ∧ (parse e.text = .ok e ↔ ¬ e.HasNegatedBase) := by
  have hparse := parse_text_eq hdepth hnumbers
  refine ⟨hparse, ?_⟩
  rw [hparse, Except.ok.injEq]
  exact e.reread_eq_self_iff

/-- The square of a negation is printed as `(-(x) ^ 2)` and read as the negation of a square. At one
the two have different values. -/
theorem parse_text_square_neg :
    let square := binary .pow (neg x) (number 2)
    parse square.text = .ok (neg (binary .pow x (number 2))) ∧ parse square.text ≠ .ok square ∧
      (square.eval 1).toOption = some 1 ∧
      ((neg (binary .pow x (number 2))).eval 1).toOption = some (-1) := by
  intro square
  have hnumbers : square.NumbersUnsigned := ⟨trivial, ⟨4503599627370496, -51⟩, by decide +kernel⟩
  obtain ⟨hparse, hself⟩ := parse_text square (by decide) hnumbers
  have hbase : square.HasNegatedBase := .inl ⟨rfl, x, rfl⟩
  exact ⟨hparse, fun h => hself.1 h hbase, by decide +kernel, by decide +kernel⟩

end Expr

end RealRoots
