import RealRoots.Proofs.Expr.Differentiation
import RealRoots.Proofs.Printing.Reread

/-!
# How deep trees are

**Theorem (`trees_are_bounded`).** The exact derivative of an expression is as deep as the expression
or one level deeper, however many rules make it. The tree of a formula is at most `maxDepth` deep, so
its exact derivative is at most one level deeper than that.

The rules for a power of `x` and for the cosine add a level. They apply to leaves of the recursion
only: all other rules keep the node that they differentiate, above derivatives of its parts. So the
level is added once on each path.

* `depth_of_parse`: what the parser builds on any path of the grammar is within the limit.
* `parse_signed`: signs before a text nest as deep as the limit allows, so both bounds are attained.
-/

namespace RealRoots

open Grammar

namespace Expr

/-! ## The derivative of a tree -/

/-- **A derivative gains at most one level**, and loses none. -/
theorem Differentiates.depth_bounds {t d : Expr} (h : Differentiates t d) :
    t.depth ≤ d.depth ∧ d.depth ≤ t.depth + 1 := by
  induction h with
  | number | x | exponential | sin | exp | log => simp [depth]
  -- Here the level is added.
  | power | cos => simp [depth]
  | neg _ ih =>
    simp only [depth]
    omega
  | add _ _ ihLeft ihRight | sub _ _ ihLeft ihRight =>
    simp only [depth]
    omega
  | scale _ _ ih | scaleRight _ _ ih | divide _ _ ih =>
    simp only [depth]
    omega

end Expr

/-! ## The trees of a formula -/

/-- **The parser builds no deep trees.** -/
theorem depth_of_parse {text : String} {t : Expr} (h : parse text = .ok t) :
    t.depth ≤ maxDepth := by
  obtain ⟨tokens, -, hread⟩ := parse_eq_ok_iff.1 h
  obtain ⟨d, -, rfl, hwithin⟩ := Phrase.expr_eq_ok_iff.1 hread
  exact hwithin.depth_le

/-- **The trees of a formula are bounded.** -/
theorem trees_are_bounded :
    (∀ t d : Expr, t.derivative? = some d → t.depth ≤ d.depth ∧ d.depth ≤ t.depth + 1) ∧
    ∀ (text : String) (f : Formula), Formula.parse text = .ok f →
      f.tree.depth ≤ maxDepth ∧ ∀ d, f.derivative? = some d → d.depth ≤ maxDepth + 1 := by
  have hslope (t d : Expr) (h : t.derivative? = some d) : t.depth ≤ d.depth ∧
      d.depth ≤ t.depth + 1 :=
    (Expr.differentiates h).depth_bounds
  refine ⟨hslope, fun text f h => ?_⟩
  obtain ⟨t, ht, h⟩ := bind_eq_ok.1 h
  cases h
  have htree := depth_of_parse ht
  refine ⟨htree, fun d hd => ?_⟩
  have := (hslope t d hd).2
  omega

/-! ## Signs before a text -/

/-- A text with signs before it. -/
def signed (signs : Nat) (text : String) : String :=
  String.ofList (List.replicate signs '-' ++ text.toList)

/-- The tokens of the signs. -/
def signPieces (signs : Nat) : List Piece :=
  List.replicate signs ⟨[], .minus, ['-']⟩

theorem joined_signPieces (n : Nat) : Piece.joined (signPieces n) = List.replicate n '-' := by
  induction n with
  | zero => rfl
  | succ n ih =>
    rw [signPieces, List.replicate_succ, joined_cons, ← signPieces, ih]
    rfl

theorem allCut_signPieces (n : Nat) (rest : List Char) : Piece.AllCut (signPieces n) rest := by
  induction n with
  | zero => trivial
  | succ n ih => exact ⟨Piece.isCut_sign (by simp) rfl (by simp), ih⟩

namespace Grammar.Derivation

variable (n : Nat) (d : Derivation .unary)

theorem tree_minus_iterate : (minus^[n] d).tree = Expr.neg^[n] d.tree := by
  induction n with
  | zero => rfl
  | succ n ih => rw [Function.iterate_succ_apply', Function.iterate_succ_apply', tree, ih]

theorem nesting_minus_iterate : (minus^[n] d).nesting = d.nesting + n := by
  induction n with
  | zero => rfl
  | succ n ih => rw [Function.iterate_succ_apply', nesting, ih, Nat.add_assoc]

theorem yield_minus_iterate : (minus^[n] d).yield = List.replicate n .minus ++ d.yield := by
  induction n with
  | zero => rfl
  | succ n ih => rw [Function.iterate_succ_apply', yield, ih, List.replicate_succ, List.cons_append]

theorem valid_minus_iterate (h : d.Valid) : (minus^[n] d).Valid := by
  induction n with
  | zero => exact h
  | succ n ih =>
    rw [Function.iterate_succ_apply']
    exact ih

end Grammar.Derivation

namespace Expr

theorem depth_neg_iterate (n : Nat) (e : Expr) : (neg^[n] e).depth = e.depth + n := by
  induction n with
  | zero => rfl
  | succ n ih =>
    rw [Function.iterate_succ_apply', depth, ih]
    omega

theorem derivative?_neg_iterate {e d : Expr} (h : e.derivative? = some d) (n : Nat) :
    (neg^[n] e).derivative? = some (neg^[n] d) := by
  induction n with
  | zero => exact h
  | succ n ih =>
    rw [Function.iterate_succ_apply', Function.iterate_succ_apply', derivative?, ih]
    rfl

theorem tokenize_signed {e : Expr} (h : e.NumbersUnsigned) (n : Nat) :
    tokenize (signed n e.text) = .ok (Piece.tokens 0 (signPieces n ++ e.pieces [])) := by
  have htext : (signed n e.text).toList =
      Piece.joined (signPieces n ++ e.pieces []) ++ [] := by
    rw [Piece.joined_append, joined_signPieces, joined_pieces]
    simp [signed]
  refine tokenize_of_blank htext (Piece.allCut_append.2 ⟨allCut_signPieces n _, ?_⟩) (by simp)
  exact allCut_pieces h (by simp) (by simp [EndsOperand])

/-- **Each sign costs one level**, of the nesting and of the tree. -/
theorem parse_signed {e : Expr} {n : Nat} (hnumbers : e.NumbersUnsigned)
    (hnesting : e.reading.nesting + n ≤ maxDepth) (hdepth : e.reread.depth + n ≤ maxDepth) :
    parse (signed n e.text) = .ok (neg^[n] e.reread) := by
  have htree : (Derivation.minus^[n] e.reading).alone.tree = neg^[n] e.reread := by
    rw [← tree_reading]
    exact Derivation.tree_minus_iterate n e.reading
  refine parse_eq_ok_iff.2 ⟨_, tokenize_signed hnumbers n, Phrase.expr_eq_ok_iff.2
    ⟨(Derivation.minus^[n] e.reading).alone, ⟨?_, ?_⟩, htree, ?_, ?_⟩⟩
  · exact Derivation.valid_minus_iterate n _ e.valid_reading
  · rw [Piece.map_kind_tokens, List.map_append, ← yield_reading, signPieces, List.map_replicate]
    exact Derivation.yield_minus_iterate n _
  · exact (Derivation.nesting_minus_iterate n e.reading).trans_le hnesting
  · rw [htree, depth_neg_iterate]
    exact hdepth

end Expr

/-- The cosine behind so many signs. -/
def signedCosine (signs : Nat) : Formula where
  source := Text.trim (signed signs "cos(x)")
  tree := Expr.neg^[signs] (.call .cos .x)

theorem depth_signedCosine (n : Nat) : (signedCosine n).tree.depth = 2 + n :=
  Expr.depth_neg_iterate n _

theorem parse_signedCosine {n : Nat} (h : 2 + n ≤ maxDepth) :
    Formula.parse (signed n "cos(x)") = .ok (signedCosine n) := by
  have hnumbers : (Expr.call .cos .x).NumbersUnsigned := trivial
  have htext : (Expr.call .cos .x).text = "cos(x)" := by decide +kernel
  have hparse := Expr.parse_signed hnumbers h h
  rw [htext] at hparse
  rw [Formula.parse, hparse]
  rfl

theorem exists_slope_signedCosine (n : Nat) :
    ∃ d, (signedCosine n).derivative? = some d ∧ d.depth = 3 + n :=
  ⟨_, Expr.derivative?_neg_iterate rfl n, Expr.depth_neg_iterate n _⟩

/-- A cosine behind 254 signs attains both bounds. -/
theorem signedCosine_attains_bounds : ∃ d,
    Formula.parse (signed 254 "cos(x)") = .ok (signedCosine 254) ∧
    (signedCosine 254).derivative? = some d ∧
    (signedCosine 254).tree.depth = 256 ∧ d.depth = 257 ∧
    ((signedCosine 254).tree.depth ≤ d.depth ∧ d.depth ≤ (signedCosine 254).tree.depth + 1) ∧
    (signedCosine 254).tree.depth ≤ maxDepth ∧ d.depth ≤ maxDepth + 1 := by
  have hparse := parse_signedCosine (n := 254) (by decide)
  obtain ⟨d, hslope, hdepth⟩ := exists_slope_signedCosine 254
  obtain ⟨hbounds, hformula⟩ := trees_are_bounded
  obtain ⟨htree, hderivative⟩ := hformula _ _ hparse
  exact ⟨d, hparse, hslope, depth_signedCosine 254, hdepth, hbounds _ _ hslope, htree,
    hderivative d hslope⟩

end RealRoots
