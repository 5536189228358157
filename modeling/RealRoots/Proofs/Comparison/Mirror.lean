import RealRoots.Comparison
import RealRoots.Proofs.Number.Distance

/-!
# A comparison does not depend on which side comes first

**Theorem (`swapped_sides_mirror`).** With its two sides exchanged a comparison is its own mirror
image: each verdict points at the same run as before, and everything that points at no side is the
same.

Every judgment is put together from `ofLower`, which asks whether one value is lower and then
whether the other one is. Its mirror image asks in the other order, so all that is used of the
values is that no two are lower than each other; doubles that are no number are lower than nothing.
-/

namespace RealRoots

namespace Verdict

/-- The verdict on the same two sides in the other order. -/
def swap : Verdict → Verdict
  | first => second
  | second => first
  | tie => tie
  | neither => neither

theorem ofLower_swap {α : Type} [LT α] [DecidableLT α] {a b : α} (h : a < b → ¬ b < a) :
    ofLower b a = (ofLower a b).swap := by
  unfold ofLower
  by_cases hab : a < b
  · rw [if_pos hab, if_pos hab, if_neg (h hab)]
    rfl
  · by_cases hba : b < a
    · rw [if_pos hba, if_neg hab, if_pos hba]
      rfl
    · rw [if_neg hba, if_neg hab, if_neg hab, if_neg hba]
      rfl

/-- Doubles compare in one direction at most. -/
theorem ofLower_float_swap (a b : Float) : ofLower b a = (ofLower a b).swap := by
  apply ofLower_swap
  intro hab hba
  rw [lt_iff, Float.Model.UnpackedFloat.lt, beq_iff_eq] at hab hba
  rw [← compare_swap, hab] at hba
  cases hba

theorem ofLower?_swap (a b : Option Float) : ofLower? b a = (ofLower? a b).swap := by
  cases a with
  | none => cases b <;> rfl
  | some a =>
    cases b with
    | none => rfl
    | some b => exact ofLower_float_swap a b

theorem breakTie_swap (v w : Verdict) : v.swap.breakTie w.swap = (v.breakTie w).swap := by
  cases v <;> rfl

end Verdict

/-! ## Judgments -/

section

variable (a b : RootResult)

theorem amongConverged_swap (v : Verdict) :
    amongConverged b a v.swap = (amongConverged a b v).swap := by
  unfold amongConverged
  cases a.converged <;> cases b.converged <;> rfl

theorem byIterations_swap : byIterations b a = (byIterations a b).swap := by
  unfold byIterations
  rw [Verdict.ofLower_swap Nat.lt_asymm, amongConverged_swap]

theorem byAccuracy_swap : byAccuracy b a = (byAccuracy a b).swap := by
  unfold byAccuracy
  rw [Verdict.ofLower?_swap a.accuracy, Verdict.ofLower?_swap a.finalError,
    Verdict.breakTie_swap, amongConverged_swap]

theorem byRate_swap : byRate b a = (byRate a b).swap := by
  unfold byRate
  rw [Bool.and_comm]
  cases a.converged && b.converged with
  | false => rfl
  | true =>
    cases a.convergenceRate with
    | none => cases b.convergenceRate <;> rfl
    | some ra =>
      cases b.convergenceRate with
      | none => rfl
      | some rb => exact Verdict.ofLower_float_swap rb ra

end

/-! ## Comparisons -/

namespace Comparison

/-- The comparison with its sides exchanged, and every verdict pointing at the same side as
before. -/
def swap (c : Comparison) : Comparison where
  first := c.second
  second := c.first
  winner := c.winner.swap
  winnerByIterations := c.winnerByIterations.swap
  winnerByAccuracy := c.winnerByAccuracy.swap
  winnerByRate := c.winnerByRate.swap
  iterationDelta := c.iterationDelta
  executionTimeDeltaMs := c.executionTimeDeltaMs

/-- **Judging the sides in the other order gives the mirror image.** -/
theorem judge_swap (a b : NamedResult) : judge b a = (judge a b).swap := by
  simp only [judge, swap, byIterations_swap a.result, byAccuracy_swap a.result,
    byRate_swap a.result, Verdict.breakTie_swap, Nat.max_comm b.result.totalIterations,
    Nat.min_comm b.result.totalIterations, abs_sub_comm b.result.executionTimeMs]

theorem nameOf_swap (c : Comparison) (v : Verdict) : c.swap.nameOf v.swap = c.nameOf v := by
  cases v <;> rfl

theorem winnerName_swap (c : Comparison) : c.swap.winnerName = c.winnerName :=
  nameOf_swap c c.winner

theorem rootsAgree_swap (c : Comparison) (tolerance : Float) :
    c.swap.rootsAgree tolerance = c.rootsAgree tolerance := by
  unfold rootsAgree swap
  cases c.first.result.root with
  | none => cases c.second.result.root <;> rfl
  | some a =>
    cases c.second.result.root with
    | none => rfl
    | some b =>
      change some (decide ((b - a).abs < tolerance)) = some (decide ((a - b).abs < tolerance))
      rw [abs_sub_comm]

end Comparison

/-- **The order of the sides does not matter.** -/
theorem swapped_sides_mirror (a b : NamedResult) :
    let c := Comparison.judge a b
    let d := Comparison.judge b a
    d.winner = c.winner.swap ∧ d.winnerByIterations = c.winnerByIterations.swap ∧
      d.winnerByAccuracy = c.winnerByAccuracy.swap ∧ d.winnerByRate = c.winnerByRate.swap ∧
      d.iterationDelta = c.iterationDelta ∧ d.executionTimeDeltaMs = c.executionTimeDeltaMs ∧
      (∀ tolerance, d.rootsAgree tolerance = c.rootsAgree tolerance) ∧
      d.winnerName = c.winnerName := by
  intro c d
  have hd : d = c.swap := Comparison.judge_swap a b
  rw [hd]
  exact ⟨rfl, rfl, rfl, rfl, rfl, rfl, c.rootsAgree_swap, c.winnerName_swap⟩

end RealRoots
