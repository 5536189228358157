import RealRoots.Proofs.Solver.Passes
import RealRoots.Solver.Secant

/-!
# The history of a Secant run

**Theorem (`Secant.secant_orbit`).** The history of a run is the two guesses and then the orbit of
the update rule, whatever the formula and the observer.

The states of a run are pairs of points. The first pair is the two guesses, and a pass keeps the
later point of its pair as the earlier one of the next. So an update steps from its record's point,
away from the point of the record before it; for the first update both are guesses.
-/

namespace RealRoots.Secant

/-- The record of the point, with no step before it. -/
structure IsSeed (f : Formula) (x : Float) (r : Iteration) : Prop where
  x_eq : r.x = x
  fx_eq : f.eval x = .ok r.fx
  derivative_eq : r.derivative = none
  nextX_eq : r.nextX = none

/-- The record takes a step of the update rule, with the point of `p` as the earlier one. -/
structure Updates (f : Formula) (rule : StoppingRule) (p r : Iteration) (next : Float) : Prop where
  fx_eq : f.eval r.x = .ok r.fx
  derivative_eq : r.derivative = none
  nextX_eq : r.nextX = some next
  next_eq : next = r.x - r.fx * (r.x - p.x) / (r.fx - p.fx)
  next_isFinite : next.isFinite
  not_small : ¬ (r.fx - p.fx).abs < singularityThreshold
  error_eq : r.error = rule.error r.x next (f.eval next).toOption

/-- **The two-point orbit.** The records are numbered. The first two are the guesses, each other one
is an update: the first one from the second guess, away from the first, and each other one from
where the update before it leads, away from that update's point. -/
structure Orbit (f : Formula) (input : SecantInput) (records : List Iteration) : Prop where
  index_eq : ∀ k (r : Iteration), records[k]? = some r → r.index = k
  first : ∀ r, records[0]? = some r → IsSeed f input.x0 r ∧ r.error = none
  second : ∀ r, records[1]? = some r → IsSeed f input.x1 r ∧
    r.error = input.config.stoppingRule.error input.x0 input.x1 (some r.fx)
  third : ∀ r, records[2]? = some r → r.x = input.x1 ∧ ∃ p next, records[0]? = some p ∧
    Updates f input.config.stoppingRule p r next
  later : ∀ k r, records[k + 3]? = some r → ∃ p next, records[k + 2]? = some p ∧
    p.nextX = some r.x ∧ Updates f input.config.stoppingRule p r next

/-! ## The updates -/

variable {f : Formula} {input : SecantInput} {records : List Iteration} {states : Nat → Pair}

/-- A pass keeps the later point of its pair. -/
theorem prev_succ (h : scheme.Follows f input.config.stoppingRule 1 states records) {k : Nat}
    (hk : k + 1 < records.length) : (states (k + 1)).prev = (states k).curr := by
  have hr : records[k]? = some records[k] := List.getElem?_eq_getElem _
  obtain ⟨next, value, -, -, hstate⟩ := h.leads k _ hr hk
  rw [hstate]
  rfl

/-- The record of a pass, by the pair that the pass starts from. -/
theorem updates (h : scheme.Follows f input.config.stoppingRule 1 states records)
    (h0 : f.eval (states 0).curr.x = .ok (states 0).curr.fx) {k : Nat} {r : Iteration}
    (hr : records[k]? = some r) :
    r.index = k + 2 ∧ r.x = (states k).curr.x ∧ r.fx = (states k).curr.fx ∧
      ∀ p : Iteration, p.x = (states k).prev.x → p.fx = (states k).prev.fx →
        ∃ next, Updates f input.config.stoppingRule p r next := by
  obtain ⟨hk, -⟩ := List.getElem?_eq_some_iff.1 hr
  have hcurr : f.eval (states k).curr.x = .ok (states k).curr.fx :=
    h.point_of (P := fun p => f.eval p.x = .ok p.fx) (fun _ _ => rfl) h0 (fun _ _ hfx => hfx) hk
  obtain ⟨pass, hpass, rfl⟩ := h.passes k r hr
  obtain ⟨d, next, hd, hsmall, hnext, hfinite, rfl⟩ := Scheme.advance_eq_ok.1 hpass
  have hindex : 1 + k + 1 = k + 2 := by omega
  have hd : (states k).curr.fx - (states k).prev.fx = d := Except.ok.inj hd
  have hnext : next = (states k).curr.x - (states k).curr.fx *
      ((states k).curr.x - (states k).prev.x) / ((states k).curr.fx - (states k).prev.fx) := by
    rw [hnext, hd]
    rfl
  refine ⟨hindex, rfl, rfl, fun p hpx hpfx => ⟨next, hcurr, rfl, rfl, ?_, hfinite, ?_, rfl⟩⟩
  · rw [hpx, hpfx]
    exact hnext
  · rw [hpfx]
    exact hd ▸ hsmall

/-! ## The whole history -/

/-- The records of the guesses before the history of the passes from them. -/
theorem orbit_of_follows {p q : Point}
    (h : scheme.Follows f input.config.stoppingRule 1 states records)
    (hstates : states 0 = ⟨p, q⟩) (hp : p.x = input.x0 ∧ f.eval input.x0 = .ok p.fx)
    (hq : q.x = input.x1 ∧ f.eval input.x1 = .ok q.fx) :
    Orbit f input (firstSeed p :: secondSeed input.config.stoppingRule p q :: records) := by
  have h0 : f.eval (states 0).curr.x = .ok (states 0).curr.fx := by
    rw [hstates, hq.1]
    exact hq.2
  constructor
  · intro k r hr
    match k with
    | 0 | 1 =>
      obtain rfl : _ = r := Option.some.inj hr
      rfl
    | k + 2 => exact (updates h h0 hr).1
  · intro r hr
    obtain rfl : _ = r := Option.some.inj hr
    exact ⟨⟨hp.1, hp.2, rfl, rfl⟩, rfl⟩
  · intro r hr
    obtain rfl : _ = r := Option.some.inj hr
    refine ⟨⟨hq.1, hq.2, rfl, rfl⟩, ?_⟩
    rw [← hp.1, ← hq.1]
    rfl
  · intro r hr
    obtain ⟨-, hx, -, hupdates⟩ := updates h h0 hr
    rw [hstates] at hx
    obtain ⟨next, hnext⟩ := hupdates (firstSeed p) (by rw [hstates]; rfl) (by rw [hstates]; rfl)
    exact ⟨hx.trans hq.1, firstSeed p, next, rfl, hnext⟩
  · intro k r hr
    have hr : records[k + 1]? = some r := hr
    obtain ⟨hk, -⟩ := List.getElem?_eq_some_iff.1 hr
    have hbefore : records[k]? = some records[k] := List.getElem?_eq_getElem _
    obtain ⟨-, hx, hfx, -⟩ := updates h h0 hbefore
    obtain ⟨-, -, -, hupdates⟩ := updates h h0 hr
    rw [prev_succ h hk] at hupdates
    obtain ⟨next, hnext⟩ := hupdates _ hx hfx
    exact ⟨_, next, hbefore, h.nextX_eq (fun _ _ => rfl) hbefore hr, hnext⟩

/-- The record of the first guess alone. -/
theorem orbit_of_firstSeed {fx : Float} (h : f.eval input.x0 = .ok fx) :
    Orbit f input [firstSeed ⟨input.x0, fx⟩] := by
  constructor
  · intro k r hr
    obtain ⟨rfl, rfl⟩ : k = 0 ∧ firstSeed ⟨input.x0, fx⟩ = r := by
      cases k <;> simp_all
    rfl
  · intro r hr
    obtain rfl : _ = r := Option.some.inj hr
    exact ⟨⟨rfl, h, rfl, rfl⟩, rfl⟩
  all_goals simp

/-- **The history is the two-point orbit.** -/
theorem secant_orbit {σ : Type} (f : Formula) (input : SecantInput) (observer : Observer σ)
    (o : σ) : Orbit f input (runWith f input observer o).1.iterations := by
  unfold runWith
  simp only [Run.toResult_iterations]
  cases h0 : f.eval input.x0 with
  | error e => constructor <;> simp [Run.failing]
  | ok f0 =>
    cases h1 : f.eval input.x1 with
    | error e => exact orbit_of_firstSeed h0
    | ok f1 =>
      obtain ⟨states, hstates, hfollows⟩ := scheme.iterate_follows f input.config observer
        (input.config.maxIterations - 1) 1 ⟨⟨input.x0, f0⟩, ⟨input.x1, f1⟩⟩ o
      exact orbit_of_follows hfollows hstates ⟨rfl, h0⟩ ⟨rfl, h1⟩

/-- The run for `x` from `2` and `1` records the guesses, the step to the root and one more there. -/
theorem identity_two_point_orbit :
    let f : Formula := ⟨"x", .x⟩
    let input : SecantInput := { expression := "x", x0 := 2, x1 := 1 }
    let records := (runWith f input .silent ()).1.iterations
    records.map Iteration.x = [2, 1, 1, 0] ∧
      records.map Iteration.nextX = [none, none, some 0, some 0] ∧ Orbit f input records :=
  ⟨by decide +kernel, by decide +kernel, secant_orbit _ _ .silent ()⟩

end RealRoots.Secant
