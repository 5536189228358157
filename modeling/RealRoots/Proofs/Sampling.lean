import RealRoots.Proofs.Expr.Independence
import RealRoots.Proofs.Number.Quotients
import RealRoots.Sampling

/-!
# Sampled curves

**Theorem (`sample_plots`).** A range that is not empty is sampled at two points or more without
failing. The curve consists of points of the formula, and only those values on the grid are left out
at which the formula cannot be evaluated. The curve can be plotted exactly if the range fits
(`RangeFits`).

If it does, the grid begins at the start of the range and is in order, since rounding keeps the
order of the exact grid. If the length of the range overflows, the step is infinite and the grid
begins with a NaN. A formula that reads `x` has no value at a bad `x`, but one that does not read `x`
has its value everywhere (`Expr.eval_ne_ok_of_dependsOnX`, `Expr.eval_eq_ok_of_not_dependsOnX`), so
its curve has bad points.
-/

namespace RealRoots

/-! ## The grid -/

/-- The values of `x` at which a curve is sampled. -/
def grid (start stop : Float) (points : Nat) : List Float :=
  (List.range points).map (gridValue start (gridStep start stop points))

theorem toFloat_le {i j : Nat} (h : i ≤ j) : i.toFloat ≤ j.toFloat :=
  (rounds_ofNat i).le (rounds_ofNat j) (Nat.cast_le.2 h)

section

variable {start stop step : Float}

/-- The first value of a grid is its start, but perhaps for the sign of a zero. -/
theorem gridValue_zero (hstart : start.isFinite) (hstep : step.isFinite) :
    gridValue start step 0 == start := by
  have hproduct : Rounds (rat 0) ((0 : Nat).toFloat * step) := by
    have h := rounds_mul (x := 0) (by decide) hstep
    rwa [rat_zero, zero_mul, ← rat_zero] at h
  obtain ⟨hfinite, hzero⟩ := hproduct.exact (by decide)
  have hsum := rounds_add hstart hfinite
  rw [hzero, rat_zero, add_zero] at hsum
  obtain ⟨hfinite, hsame⟩ := hsum.exact hstart
  exact (beq_iff_rat_eq hfinite hstart).2 hsame

section

variable (hpos : 0 ≤ step) {i j : Nat} (h : i ≤ j) (hj : (j.toFloat * step).isFinite)
include hpos h hj

/-- Multiples of the step are in order, up to the last one that is finite. -/
theorem multiple_le : (i.toFloat * step).isFinite ∧ i.toFloat * step ≤ j.toFloat * step := by
  obtain ⟨hjFinite, hstep⟩ := isFinite_of_mul hj
  have hi : i.toFloat.isFinite :=
    isFinite_of_between (by decide) hjFinite (toFloat_le (Nat.zero_le i)) (toFloat_le h)
  have hij : rat i.toFloat ≤ rat j.toFloat := (le_iff_rat_le hi hjFinite).1 (toFloat_le h)
  have hi' : 0 ≤ rat i.toFloat := by
    rw [← rat_zero, ← le_iff_rat_le (by decide) hi]
    exact toFloat_le (Nat.zero_le i)
  have hpos : 0 ≤ rat step := by
    rwa [← rat_zero, ← le_iff_rat_le (by decide) hstep]
  have hle : i.toFloat * step ≤ j.toFloat * step :=
    (rounds_mul hi hstep).le (rounds_mul hjFinite hstep) (mul_le_mul_of_nonneg_right hij hpos)
  have hnonneg : 0 ≤ i.toFloat * step :=
    (Rounds.zero rfl).le (rounds_mul hi hstep) (mul_nonneg hi' hpos)
  exact ⟨isFinite_of_between (x := 0) (by decide) hj hnonneg hle, hle⟩

/-- **A grid is in order**, and its last value may overflow. -/
theorem gridValue_le (hstart : start.isFinite) :
    gridValue start step i ≤ gridValue start step j := by
  obtain ⟨hi, hle⟩ := multiple_le hpos h hj
  apply (rounds_add hstart hi).le (rounds_add hstart hj)
  have := (le_iff_rat_le hi hj).1 hle
  gcongr

end

end

/-! ## The step -/

section

variable {start stop : Float} {points : Nat} (hstart : start.isFinite) (hstop : stop.isFinite)
  (hlt : start < stop) (hpoints : 2 ≤ points)
include hstart hstop hlt

theorem range_nonneg : 0 ≤ stop - start := by
  refine (Rounds.zero rfl).le (rounds_sub hstop hstart) ?_
  exact sub_nonneg.2 ((lt_iff_rat_lt hstart hstop).1 hlt).le

include hpoints

/-- The step is a double unless the length of the range overflows. -/
theorem gridStep_isFinite (h : (stop - start).isFinite) :
    0 ≤ gridStep start stop points ∧ (gridStep start stop points).isFinite := by
  have hone : 1 ≤ (points - 1).toFloat := toFloat_le (i := 1) (by omega)
  have hpos := range_nonneg hstart hstop hlt
  exact ⟨(div_le_self h hpos hone).1, div_isFinite h hpos hone⟩

end

/-- A grid over a range whose length overflows does not begin at its start. -/
theorem range_isFinite_of_starts {start stop : Float} {points : Nat} (hstart : start.isFinite)
    (h : gridValue start (gridStep start stop points) 0 == start) : (stop - start).isFinite := by
  have hfirst := isFinite_of_beq h hstart
  exact isFinite_of_div (isFinite_of_mul (isFinite_of_add hfirst).2).2

/-! ## Curves -/

/-- Has the formula a value at `x`? -/
def Formula.isDefinedAt (f : Formula) (x : Float) : Bool :=
  (f.eval x).toOption.isSome

theorem Formula.isDefinedAt_iff {f : Formula} {x : Float} :
    f.isDefinedAt x ↔ ∃ y, f.eval x = .ok y := by
  simp only [isDefinedAt, Option.isSome_iff_exists, toOption_eq_some]

/-- A curve consists of points of a formula, one for each value on a grid at which there is one. -/
structure Traces (f : Formula) (values : List Float) (curve : List SamplePoint) : Prop where
  onCurve : ∀ p ∈ curve, f.eval p.x = .ok p.y ∧ p.y.isFinite
  /-- Only the values at which the formula cannot be evaluated are left out. -/
  kept : curve.map (·.x) = values.filter f.isDefinedAt

/-- A curve can be plotted: its points are finite and in order, and the grid begins at the start. -/
structure Plots (f : Formula) (start stop : Float) (points : Nat) (curve : List SamplePoint) :
    Prop extends Traces f (grid start stop points) curve where
  finite : ∀ p ∈ curve, p.x.isFinite
  inOrder : (curve.map (·.x)).Pairwise (· ≤ ·)
  starts : ∃ x, (grid start stop points).head? = some x ∧ x == start
  length_le : curve.length ≤ points

theorem traces_filterMap (f : Formula) (values : List Float) :
    Traces f values (values.filterMap fun x => (f.eval x).toOption.map (⟨x, ·⟩)) := by
  constructor
  · intro p hp
    obtain ⟨x, -, hx⟩ := List.mem_filterMap.1 hp
    obtain ⟨y, hy, rfl⟩ := Option.map_eq_some_iff.1 hx
    exact ⟨toOption_eq_some.1 hy, Expr.eval_isFinite (toOption_eq_some.1 hy)⟩
  · induction values with
    | nil => rfl
    | cons x values ih =>
      rw [List.filter_cons, Formula.isDefinedAt, List.filterMap_cons]
      cases (f.eval x).toOption with
      | none => simpa using ih
      | some y => simpa using ih

theorem sample_eq {f : Formula} {start stop : Float} {points : Nat} (hstart : start.isFinite)
    (hstop : stop.isFinite) (hlt : start < stop) (hpoints : 2 ≤ points) :
    sample f start stop points =
      .ok ((grid start stop points).filterMap fun x => (f.eval x).toOption.map (⟨x, ·⟩)) := by
  have hsome : ¬ points < 2 := by omega
  unfold sample
  simp only [hstart, hstop, hlt, hsome, grid, List.filterMap_map]
  rfl

/-! ## What can be plotted -/

/-- The values on the grid at which a curve may have points are doubles: the length of the range
does not overflow, and for a formula that does not read `x`, nor does the last value. -/
def RangeFits (f : Formula) (start stop : Float) (points : Nat) : Prop :=
  (stop - start).isFinite ∧ (f.tree.dependsOnX = false → f.isDefinedAt start →
    (gridValue start (gridStep start stop points) (points - 1)).isFinite)

theorem Traces.length_le {f : Formula} {start stop : Float} {points : Nat}
    {curve : List SamplePoint} (h : Traces f (grid start stop points) curve) :
    curve.length ≤ points := by
  calc curve.length = (curve.map (·.x)).length := (List.length_map _).symm
    _ = ((grid start stop points).filter f.isDefinedAt).length := by rw [h.kept]
    _ ≤ (grid start stop points).length := List.length_filter_le ..
    _ = points := by simp [grid]

section

variable {f : Formula} {start stop : Float} {points : Nat} {curve : List SamplePoint}
  (hpoints : 2 ≤ points)
include hpoints

theorem starts_iff : (∃ x, (grid start stop points).head? = some x ∧ x == start) ↔
    gridValue start (gridStep start stop points) 0 == start := by
  have hhead : (grid start stop points).head? =
      some (gridValue start (gridStep start stop points) 0) := by
    obtain ⟨n, rfl⟩ : ∃ n, points = n + 1 := ⟨points - 1, by omega⟩
    simp [grid, List.range_succ_eq_map]
  simp [hhead]

variable (hstart : start.isFinite)
include hstart

theorem Plots.rangeFits (h : Plots f start stop points curve) : RangeFits f start stop points := by
  refine ⟨range_isFinite_of_starts hstart ((starts_iff hpoints).1 h.starts), ?_⟩
  intro hconstant hdefined
  let last := gridValue start (gridStep start stop points) (points - 1)
  have hgrid : last ∈ grid start stop points :=
    List.mem_map.2 ⟨points - 1, List.mem_range.2 (by omega), rfl⟩
  have hlast : f.isDefinedAt last := by
    obtain ⟨y, hy⟩ := Formula.isDefinedAt_iff.1 hdefined
    exact Formula.isDefinedAt_iff.2 ⟨y, Expr.eval_eq_ok_of_not_dependsOnX hconstant hy⟩
  have hkept : last ∈ curve.map (·.x) := h.kept ▸ List.mem_filter.2 ⟨hgrid, hlast⟩
  obtain ⟨p, hp, hx⟩ := List.mem_map.1 hkept
  change last.isFinite
  rw [← hx]
  exact h.finite p hp

variable (hstop : stop.isFinite) (hlt : start < stop)
include hstop hlt

/-- A value on the grid at which there is a point is a double. If the formula does not read `x`, it
has a value everywhere, and the last value on the grid bounds the others. -/
theorem RangeFits.isFinite (h : RangeFits f start stop points) {i : Nat} (hi : i < points)
    (hdefined : f.isDefinedAt (gridValue start (gridStep start stop points) i)) :
    (gridValue start (gridStep start stop points) i).isFinite := by
  obtain ⟨y, hy⟩ := Formula.isDefinedAt_iff.1 hdefined
  cases hreads : f.tree.dependsOnX with
  | true =>
    by_contra hinfinite
    exact Expr.eval_ne_ok_of_dependsOnX hreads hinfinite y hy
  | false =>
    obtain ⟨hrange, hlast⟩ := h
    obtain ⟨hpos, hstep⟩ := gridStep_isFinite hstart hstop hlt hpoints hrange
    have hlast := hlast hreads
      (Formula.isDefinedAt_iff.2 ⟨y, Expr.eval_eq_ok_of_not_dependsOnX hreads hy⟩)
    have hi : i ≤ points - 1 := by omega
    have hmultiple := (isFinite_of_add hlast).2
    exact isFinite_of_between (isFinite_of_beq (gridValue_zero hstart hstep) hstart) hlast
      (gridValue_le hpos (Nat.zero_le i) (multiple_le hpos hi hmultiple).1 hstart)
      (gridValue_le hpos hi hmultiple hstart)

theorem RangeFits.plots (h : RangeFits f start stop points)
    (hcurve : Traces f (grid start stop points) curve) : Plots f start stop points curve := by
  obtain ⟨hpos, hstep⟩ := gridStep_isFinite hstart hstop hlt hpoints h.1
  refine { hcurve with finite := ?_, inOrder := ?_, starts := ?_, length_le := hcurve.length_le }
  · intro p hp
    have hkept : p.x ∈ (grid start stop points).filter f.isDefinedAt :=
      hcurve.kept ▸ List.mem_map_of_mem hp
    obtain ⟨hgrid, hdefined⟩ := List.mem_filter.1 hkept
    obtain ⟨i, hi, hx⟩ := List.mem_map.1 hgrid
    rw [← hx] at hdefined ⊢
    exact h.isFinite hpoints hstart hstop hlt (List.mem_range.1 hi) hdefined
  · rw [hcurve.kept, grid, List.filter_map, List.pairwise_map]
    refine (List.pairwise_lt_range.filter _).imp_of_mem fun _ hj hij => ?_
    obtain ⟨hj, hdefined⟩ := List.mem_filter.1 hj
    have hfinite := h.isFinite hpoints hstart hstop hlt (List.mem_range.1 hj) hdefined
    exact gridValue_le hpos hij.le (isFinite_of_add hfinite).2 hstart
  · exact (starts_iff hpoints).2 (gridValue_zero hstart hstep)

end

/-- **What a sampled curve consists of, and when it can be plotted.** -/
theorem sample_plots (f : Formula) (start stop : Float) (points : Nat) (hstart : start.isFinite)
    (hstop : stop.isFinite) (hlt : start < stop) (hpoints : 2 ≤ points) :
    ∃ curve, sample f start stop points = .ok curve ∧ curve.length ≤ points ∧
      Traces f (grid start stop points) curve ∧
      (Plots f start stop points curve ↔ RangeFits f start stop points) := by
  have htraces := traces_filterMap f (grid start stop points)
  exact ⟨_, sample_eq hstart hstop hlt hpoints, htraces.length_le, htraces,
    fun h => h.rangeFits hpoints hstart, fun h => h.plots hpoints hstart hstop hlt htraces⟩

/-- The identity can be plotted from `-2` to `2`. -/
theorem identity_plotted :
    ∃ curve, sample ⟨"x", .x⟩ (-2) 2 5 = .ok curve ∧ Plots ⟨"x", .x⟩ (-2) 2 5 curve := by
  obtain ⟨curve, hcurve, -, -, hplots⟩ := sample_plots ⟨"x", .x⟩ (-2) 2 5 (by decide +kernel)
    (by decide +kernel) (by decide +kernel) (by decide)
  exact ⟨curve, hcurve, hplots.2 ⟨by decide +kernel, nofun⟩⟩

/-- A constant has points at a NaN and at infinity if the length of the range overflows, and a last
point at infinity if the multiples of the step do. -/
theorem constant_not_plotted :
    let f : Formula := ⟨"1", .number 1⟩
    (∃ curve, sample f (-1e308) 1e308 2 = .ok curve ∧ curve = [⟨0 / 0, 1⟩, ⟨1 / 0, 1⟩] ∧
      ¬ Plots f (-1e308) 1e308 2 curve) ∧
    ∃ curve, sample f 0 1.7976931348623157e308 4 = .ok curve ∧
      curve.getLast? = some ⟨1 / 0, 1⟩ ∧ ¬ Plots f 0 1.7976931348623157e308 4 curve := by
  intro f
  have hinfinite : ¬ (1 / 0 : Float).isFinite := by decide +kernel
  constructor
  · refine ⟨_, toOption_eq_some.1 (by decide +kernel), rfl, fun h => ?_⟩
    exact hinfinite (h.finite ⟨1 / 0, 1⟩ (by simp))
  · have hlast : (sample f 0 1.7976931348623157e308 4).toOption.bind List.getLast? =
        some ⟨1 / 0, 1⟩ := by
      decide +kernel
    obtain ⟨curve, hcurve, hlast⟩ := Option.bind_eq_some_iff.1 hlast
    refine ⟨curve, toOption_eq_some.1 hcurve, hlast, fun h => ?_⟩
    exact hinfinite (h.finite ⟨1 / 0, 1⟩ (List.mem_of_getLast? hlast))

end RealRoots
