import RealRoots.Proofs.Solver.Causes
import RealRoots.Proofs.Solver.Observation

/-!
# Where a run stands

Before each pass a run stands somewhere: it has some budget left, the method and the observer have
their states, and some records are made. A pass that an observer lets happen, and that neither fails
nor converges, leads from one place to the next.

* `Scheme.Reaches`: a run gets from a place to another, and makes these records on the way.
* `Scheme.Reaches.resume_eq`: a run is these records and the run from the later place.
* `Scheme.Reaches.keeps`: what holds where the run starts, and is kept by a pass, holds where it gets.
* `Scheme.reaches_of_mem_log`: an observer is asked at the places that the run gets to, so what it
  was shown is a state of the method.
* `Newton.Visits`, `Secant.Visits`: the places of a run over a formula.
-/

namespace RealRoots

/-- Where a run of passes stands before the next one. -/
structure Place (S σ : Type) where
  /-- How many passes are left. -/
  budget : Nat
  /-- The number of the next pass. -/
  iteration : Nat
  state : S
  /-- The state of the observer. -/
  watcher : σ

namespace Scheme

variable {S σ : Type} {scheme : Scheme S} {f : Formula} {config : SolverConfig}
  {observer : Observer σ}

/-- The run from a place. -/
def resume (scheme : Scheme S) (f : Formula) (config : SolverConfig) (observer : Observer σ)
    (p : Place S σ) : Run × σ :=
  scheme.iterate f config observer p.budget p.iteration p.state p.watcher

/-- What the observer is asked at a place, and what it answers. -/
def asked (scheme : Scheme S) (observer : Observer σ) (p : Place S σ) : Step × Signal :=
  (scheme.step p.iteration p.state,
    (observer.look p.watcher (scheme.step p.iteration p.state)).1)

/-- **The run gets from one place to another**, and makes the records on the way. -/
inductive Reaches (scheme : Scheme S) (f : Formula) (config : SolverConfig)
    (observer : Observer σ) : Place S σ → List Iteration → Place S σ → Prop
  | here (p : Place S σ) : Reaches scheme f config observer p [] p
  | pass {budget iteration : Nat} {s : S} {o o' : σ} {pass : Advance} {value : Float}
      {records : List Iteration} {q : Place S σ} :
      observer.look o (scheme.step iteration s) = (.proceed, o') →
      scheme.advance f config.stoppingRule iteration s = .ok pass →
      ¬ pass.record.error.any config.isConverged → pass.value = .ok value →
      Reaches scheme f config observer
        ⟨budget, iteration + 1, scheme.shift s ⟨pass.next, value⟩, o'⟩ records q →
      Reaches scheme f config observer ⟨budget + 1, iteration, s, o⟩ (pass.record :: records) q

namespace Reaches

variable {p q : Place S σ} {records : List Iteration}

/-- **A run is what it has made and what is left of it.** -/
theorem resume_eq (h : scheme.Reaches f config observer p records q) :
    scheme.resume f config observer p =
      ((scheme.resume f config observer q).1.after records,
        (scheme.resume f config observer q).2) := by
  induction h with
  | here => rfl
  | pass hlook hpass hlarge hvalue _ ih => exact iterate_goes config hlook hpass hlarge hvalue ih

theorem iteration_eq (h : scheme.Reaches f config observer p records q) :
    q.iteration = p.iteration + records.length := by
  induction h with
  | here => rfl
  | pass _ _ _ _ _ ih =>
    rw [ih, List.length_cons]
    dsimp only
    omega

/-- **What a pass keeps holds where the run gets to.** `I` is what the records tell of the state. -/
theorem keeps {I : List Iteration → S → Prop} (h : scheme.Reaches f config observer p records q)
    (hI : I [] p.state)
    (hkeep : ∀ {records i s pass value}, I records s →
      scheme.advance f config.stoppingRule i s = .ok pass → pass.value = .ok value →
      I (records ++ [pass.record]) (scheme.shift s ⟨pass.next, value⟩)) :
    I records q.state := by
  -- The records of the passes before are put into `I`, so it varies.
  induction h generalizing I with
  | here => exact hI
  | @pass _ _ _ _ _ pass _ _ _ _ hpass _ hvalue _ ih =>
    exact ih (I := fun records => I (pass.record :: records)) (hkeep hI hpass hvalue) hkeep

end Reaches

/-- **An observer is asked at the places that the run gets to.** The log may have entries from before
the run. -/
theorem reaches_of_mem_log {budget iteration : Nat} {s : S} {o : σ} {before : Log}
    {entry : Step × Signal}
    (h : entry ∈ (scheme.iterate f config observer.logging budget iteration s (o, before)).2.2) :
    entry ∈ before ∨ ∃ records q,
      scheme.Reaches f config observer ⟨budget, iteration, s, o⟩ records q ∧
        0 < q.budget ∧ entry = scheme.asked observer q := by
  induction budget generalizing iteration s o before with
  | zero => exact .inl h
  | succ budget ih =>
    rcases hlook : observer.look o (scheme.step iteration s) with ⟨signal, o'⟩
    have hlogging : observer.logging.look (o, before) (scheme.step iteration s) =
        (signal, o', before ++ [(scheme.step iteration s, signal)]) := by
      simp only [Observer.logging, hlook]
    have hnow (h : entry ∈ before ++ [(scheme.step iteration s, signal)]) :
        entry ∈ before ∨ ∃ records q,
          scheme.Reaches f config observer ⟨budget + 1, iteration, s, o⟩ records q ∧
            0 < q.budget ∧ entry = scheme.asked observer q := by
      rw [List.mem_append, List.mem_singleton] at h
      refine h.imp_right fun h => ⟨_, _, .here _, Nat.succ_pos budget, ?_⟩
      rw [asked, hlook, h]
    cases signal with
    | stop =>
      rw [iterate_stop config hlogging] at h
      exact hnow h
    | proceed =>
      cases hpass : scheme.advance f config.stoppingRule iteration s with
      | error e =>
        rw [iterate_breaks config hlogging hpass] at h
        exact hnow h
      | ok pass =>
        by_cases hsmall : pass.record.error.any config.isConverged
        · rw [iterate_converges config hlogging hpass hsmall] at h
          exact hnow h
        · cases hvalue : pass.value with
          | error e =>
            rw [iterate_leaves config hlogging hpass hsmall hvalue] at h
            exact hnow h
          | ok value =>
            rw [iterate_goes config hlogging hpass hsmall hvalue rfl] at h
            obtain h | ⟨records, q, hreaches, hq, hentry⟩ := ih h
            · exact hnow h
            · exact .inr ⟨_, q, .pass hlook hpass hsmall hvalue hreaches, hq, hentry⟩

end Scheme

/-! ## The places of a run -/

variable {σ : Type} {f : Formula} {observer : Observer σ} {o : σ}

namespace Newton

/-- The run over a formula gets to the place, and makes these records on the way. -/
def Visits (f : Formula) (input : NewtonInput) (observer : Observer σ) (o : σ)
    (records : List Iteration) (q : Place Point σ) : Prop :=
  ∃ value, f.eval input.x0 = .ok value ∧
    (scheme f input.derivative).Reaches f input.config observer
      ⟨input.config.maxIterations, 0, ⟨input.x0, value⟩, o⟩ records q

/-- What the observer is asked before each pass of the run, and what it answers. -/
def log (f : Formula) (input : NewtonInput) (observer : Observer σ) (o : σ) : Log :=
  (runWith f input observer.logging (o, [])).2.2

theorem visits_of_mem_log {input : NewtonInput} {entry : Step × Signal}
    (h : entry ∈ log f input observer o) : ∃ records q, Visits f input observer o records q ∧
      0 < q.budget ∧ entry = (scheme f input.derivative).asked observer q := by
  unfold log at h
  cases hvalue : f.eval input.x0 with
  | error e =>
    rw [runWith_of_error input hvalue] at h
    cases h
  | ok value =>
    rw [runWith_of_ok input hvalue rfl] at h
    obtain h | ⟨records, q, hreaches, hq⟩ := Scheme.reaches_of_mem_log h
    · cases h
    · exact ⟨records, q, ⟨value, hvalue, hreaches⟩, hq⟩

end Newton

namespace Secant

/-- The run over a formula gets to the place, and makes these records on the way. -/
def Visits (f : Formula) (input : SecantInput) (observer : Observer σ) (o : σ)
    (records : List Iteration) (q : Place Pair σ) : Prop :=
  ∃ f0 f1, f.eval input.x0 = .ok f0 ∧ f.eval input.x1 = .ok f1 ∧
    scheme.Reaches f input.config observer
      ⟨input.config.maxIterations - 1, 1, ⟨⟨input.x0, f0⟩, ⟨input.x1, f1⟩⟩, o⟩ records q

/-- What the observer is asked before each pass of the run, and what it answers. -/
def log (f : Formula) (input : SecantInput) (observer : Observer σ) (o : σ) : Log :=
  (runWith f input observer.logging (o, [])).2.2

theorem visits_of_mem_log {input : SecantInput} {entry : Step × Signal}
    (h : entry ∈ log f input observer o) : ∃ records q, Visits f input observer o records q ∧
      0 < q.budget ∧ entry = scheme.asked observer q := by
  unfold log at h
  cases h0 : f.eval input.x0 with
  | error e =>
    rw [runWith_of_first_error input h0] at h
    cases h
  | ok f0 =>
    cases h1 : f.eval input.x1 with
    | error e =>
      rw [runWith_of_second_error input h0 h1] at h
      cases h
    | ok f1 =>
      rw [runWith_of_ok input h0 h1 rfl] at h
      obtain h | ⟨records, q, hreaches, hq⟩ := Scheme.reaches_of_mem_log h
      · cases h
      · exact ⟨records, q, ⟨f0, f1, h0, h1, hreaches⟩, hq⟩

variable {input : SecantInput} {records : List Iteration} {q : Place Pair σ}

/-- The records that are made on the way are the first steps of the result. -/
theorem Visits.steps_eq (h : Visits f input observer o records q) :
    ∃ rest, (runWith f input observer o).1.steps = records ++ rest := by
  obtain ⟨f0, f1, h0, h1, hreaches⟩ := h
  rcases hresume : scheme.resume f input.config observer
    ⟨input.config.maxIterations - 1, 1, ⟨⟨input.x0, f0⟩, ⟨input.x1, f1⟩⟩, o⟩ with ⟨run, last⟩
  obtain ⟨rfl, -⟩ := Prod.mk.inj (hresume.symm.trans hreaches.resume_eq)
  rw [runWith_of_ok input h0 h1 hresume, steps_of_makes (Scheme.makes_of_iterate hresume)]
  exact ⟨_, rfl⟩

/-- The first pass is numbered after the guesses. -/
theorem Visits.iteration_eq (h : Visits f input observer o records q) :
    q.iteration = 1 + records.length := by
  obtain ⟨f0, f1, -, -, hreaches⟩ := h
  exact hreaches.iteration_eq

end Secant

end RealRoots
