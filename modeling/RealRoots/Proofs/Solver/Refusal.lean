import RealRoots.Proofs.Solver.Causes
import RealRoots.Proofs.Solver.Parameters

/-!
# Input that is refused

**Theorem (`bad_input_is_refused`).** A run is refused if a parameter is out of range or the text
gives no formula with a value at a sample point, and only then. The error names the first parameter
that is out of range, whatever the text is, and otherwise carries the text. The observer has no part
in it and keeps its state. What stops a run that is not refused is none of these errors.

The checks of an input are written as code. Here they are a list of demands in their order
(`NewtonInput.demands`, `SecantInput.demands`), and what both methods do before the observer is
there is one function of the demands and the text (`start`).
-/

namespace RealRoots

/-! ## Demands -/

/-- A demand on a parameter, with what an error says of the parameter. -/
structure Demand where
  field : String
  value : String
  reason : String
  holds : Bool

/-- The error that the demand does not hold. -/
def Demand.unmet (d : Demand) : SolverError :=
  .invalidParameter d.field d.value d.reason

/-- The error about the first demand that does not hold. -/
def firstUnmet (demands : List Demand) : Except SolverError Unit :=
  match demands.find? fun d => !d.holds with
  | some d => .error d.unmet
  | none => .ok ()

theorem firstUnmet_cons (d : Demand) (demands : List Demand) :
    firstUnmet (d :: demands) = if d.holds then firstUnmet demands else .error d.unmet := by
  rw [firstUnmet, List.find?_cons]
  cases d.holds <;> rfl

theorem firstUnmet_append (first others : List Demand) :
    firstUnmet (first ++ others) = firstUnmet first >>= fun _ => firstUnmet others := by
  induction first with
  | nil => rfl
  | cons d first ih =>
    rw [List.cons_append, firstUnmet_cons, firstUnmet_cons, ih]
    cases d.holds <;> rfl

theorem firstUnmet_eq_ok {demands : List Demand} :
    firstUnmet demands = .ok () ↔ ∀ d ∈ demands, d.holds := by
  induction demands with
  | nil => exact iff_of_true rfl nofun
  | cons d demands ih =>
    rw [firstUnmet_cons, List.forall_mem_cons, ← ih]
    cases d.holds <;> simp

theorem firstUnmet_eq_error {demands : List Demand} {e : SolverError} :
    firstUnmet demands = .error e ↔ ∃ before d after, demands = before ++ d :: after ∧
      (∀ b ∈ before, b.holds) ∧ ¬ d.holds ∧ e = d.unmet := by
  constructor
  · intro h
    cases hfind : demands.find? fun d => !d.holds with
    | none =>
      rw [firstUnmet, hfind] at h
      cases h
    | some d =>
      rw [firstUnmet, hfind] at h
      cases h
      obtain ⟨hd, before, after, rfl, hbefore⟩ := List.find?_eq_some_iff_append.1 hfind
      exact ⟨before, d, after, rfl, fun b hb => by simpa using hbefore b hb, by simpa using hd, rfl⟩
  · rintro ⟨before, d, after, rfl, hbefore, hd, rfl⟩
    rw [firstUnmet_append, firstUnmet_eq_ok.2 hbefore, ok_bind, firstUnmet_cons, if_neg hd]

/-- A demand that is checked alone. -/
theorem firstUnmet_singleton (d : Demand) :
    firstUnmet [d] = if d.holds then .ok () else .error d.unmet :=
  firstUnmet_cons d []

/-! ## The demands of an input -/

def guessDemand (field : String) (guess : Float) : Demand :=
  ⟨field, plain guess, "Initial guess must be a finite number", guess.isFinite⟩

def SolverConfig.demands (c : SolverConfig) : List Demand :=
  [⟨"tolerance", plain c.tolerance, "Tolerance must be a positive finite number",
      isPositive c.tolerance⟩,
    ⟨"max_iterations", "0", "Maximum iterations must be positive", c.maxIterations ≠ 0⟩]

def DerivativeOptions.demands (o : DerivativeOptions) : List Demand :=
  [⟨"derivative_step", plain o.step, "Derivative step must be a positive finite number",
    isPositive o.step⟩]

def NewtonInput.demands (input : NewtonInput) : List Demand :=
  [guessDemand "x0" input.x0] ++ input.config.demands ++ input.derivative.demands

/-- The guesses differ. -/
def SecantInput.distinctDemand (input : SecantInput) : Demand :=
  ⟨"x1", plain input.x1, "Second guess must differ from the first", !(input.x0 == input.x1)⟩

def SecantInput.demands (input : SecantInput) : List Demand :=
  [guessDemand "x0" input.x0] ++ [guessDemand "x1" input.x1] ++ [input.distinctDemand] ++
    input.config.demands

theorem validateGuess_eq (field : String) (guess : Float) :
    validateGuess field guess = firstUnmet [guessDemand field guess] := by
  rw [firstUnmet_singleton, validateGuess]
  rfl

theorem SolverConfig.validate_eq (c : SolverConfig) : c.validate = firstUnmet c.demands := by
  unfold validate demands
  rw [firstUnmet_cons, firstUnmet_singleton]
  by_cases htolerance : isPositive c.tolerance <;> by_cases hzero : c.maxIterations = 0 <;>
    simp [htolerance, hzero, throw_eq_error, error_bind, Demand.unmet]
  all_goals rfl

theorem DerivativeOptions.validate_eq (o : DerivativeOptions) :
    o.validate = firstUnmet o.demands := by
  rw [demands, firstUnmet_singleton, validate]
  rfl

theorem NewtonInput.validate_eq (input : NewtonInput) :
    input.validate = firstUnmet input.demands := by
  rw [validate, demands, firstUnmet_append, firstUnmet_append, validateGuess_eq,
    SolverConfig.validate_eq, DerivativeOptions.validate_eq, bind_assoc]

theorem SecantInput.validate_eq (input : SecantInput) :
    input.validate = firstUnmet input.demands := by
  rw [validate, demands, firstUnmet_append, firstUnmet_append, firstUnmet_append, validateGuess_eq,
    validateGuess_eq, SolverConfig.validate_eq, bind_assoc, bind_assoc]
  congr 1
  funext _
  congr 1
  funext _
  rw [firstUnmet_singleton, distinctDemand]
  cases input.x0 == input.x1 <;> rfl

/-! ## Texts without a formula -/

/-- The text does not parse, or it parses to a tree without a value at `-1`, `0` and `1`. -/
def HasNoFormula (text : String) : Prop :=
  (∃ e, parse text = .error e) ∨
    ∃ t, parse text = .ok t ∧ ∀ x ∈ ([-1, 0, 1] : List Float), ∃ e, t.eval x = .error e

theorem Formula.check_eq_error {f : Formula} :
    (∃ e, f.check = .error e) ↔ ∀ x ∈ samplePoints, ∃ e, f.eval x = .error e := by
  rw [check, samplePoints]
  simp only [List.forall_mem_cons, List.map_cons, List.map_nil]
  cases f.eval (-1) <;> cases f.eval 0 <;> cases f.eval 1 <;> simp

theorem Formula.read_eq_error {text : String} :
    (∃ e, read text = .error e) ↔ HasNoFormula text := by
  unfold read Formula.parse HasNoFormula
  cases RealRoots.parse text with
  | error e => exact iff_of_true ⟨e, rfl⟩ (.inl ⟨e, rfl⟩)
  | ok t =>
    have hcheck : (∃ e, check ⟨Text.trim text, t⟩ = .error e) ↔
        ∀ x ∈ samplePoints, ∃ e, t.eval x = .error e := check_eq_error
    simp only [ok_bind, bind_eq_error, reduceCtorEq, and_false, exists_false, or_false, hcheck,
      false_or, Except.ok.injEq, exists_eq_left']
    rfl

/-! ## What a method does with its input -/

section

variable {σ : Type} {formula : Except SolverError Formula} {run : Formula → σ → RootResult × σ}
  {o : σ}

theorem runIfRead_eq_error {e : SolverError} :
    (runIfRead formula run o).1 = .error e ↔ formula = .error e := by
  cases formula with
  | error e' => rw [runIfRead, Except.error.injEq, Except.error.injEq]
  | ok f => exact iff_of_false nofun nofun

theorem runIfRead_eq_ok {r : RootResult} :
    (runIfRead formula run o).1 = .ok r ↔ ∃ f, formula = .ok f ∧ (run f o).1 = r := by
  cases formula with
  | error e => exact iff_of_false nofun nofun
  | ok f => simp [runIfRead]

end

/-- What a run begins with, which the observer has no part in. -/
def start (demands : List Demand) (text : String) : Except SolverError Formula := do
  firstUnmet demands
  readFormula text

theorem NewtonInput.formula_eq (input : NewtonInput) :
    input.formula = start input.demands input.expression := by
  rw [formula, start, NewtonInput.validate_eq]

theorem SecantInput.formula_eq (input : SecantInput) :
    input.formula = start input.demands input.expression := by
  rw [formula, start, SecantInput.validate_eq]

/-- The error with which a run is refused. -/
inductive Refuses (demands : List Demand) (text : String) : SolverError → Prop
  /-- A demand does not hold, and those before it do. -/
  | parameter {before after : List Demand} {d : Demand} : demands = before ++ d :: after →
      (∀ b ∈ before, b.holds) → ¬ d.holds →
      Refuses demands text (.invalidParameter d.field d.value d.reason)
  /-- All demands hold, and the text gives no formula. -/
  | expression {e : FormulaError} : (∀ d ∈ demands, d.holds) → Formula.read text = .error e →
      Refuses demands text (.invalidExpression text e.message)

theorem start_eq_error {demands : List Demand} {text : String} {e : SolverError} :
    start demands text = .error e ↔ Refuses demands text e := by
  rw [start, bind_eq_error, firstUnmet_eq_error]
  constructor
  · rintro (⟨before, d, after, hdemands, hbefore, hd, rfl⟩ | ⟨_, hmet, hread⟩)
    · exact .parameter hdemands hbefore hd
    · obtain ⟨e', he', rfl⟩ := mapError_eq_error.1 hread
      exact .expression (firstUnmet_eq_ok.1 hmet) he'
  · rintro (⟨hdemands, hbefore, hd⟩ | ⟨hmet, hread⟩)
    · exact .inl ⟨_, _, _, hdemands, hbefore, hd, rfl⟩
    · exact .inr ⟨(), firstUnmet_eq_ok.2 hmet, mapError_eq_error.2 ⟨_, hread, rfl⟩⟩

theorem exists_start_eq_error {demands : List Demand} {text : String} :
    (∃ e, start demands text = .error e) ↔ (∃ d ∈ demands, ¬ d.holds) ∨ HasNoFormula text := by
  rw [start, ← Formula.read_eq_error]
  cases hdemands : firstUnmet demands with
  | error e =>
    obtain ⟨before, d, after, rfl, -, hd, -⟩ := firstUnmet_eq_error.1 hdemands
    exact iff_of_true ⟨e, rfl⟩ (.inl ⟨d, by simp, hd⟩)
  | ok _ =>
    have hmet : ¬ ∃ d ∈ demands, ¬ d.holds := by
      rintro ⟨d, hmem, hd⟩
      exact hd (firstUnmet_eq_ok.1 hdemands d hmem)
    rw [or_iff_right hmet, ok_bind]
    simp only [readFormula, mapError_eq_error]
    exact ⟨fun ⟨_, e, he, _⟩ => ⟨e, he⟩, fun ⟨e, he⟩ => ⟨_, e, he, rfl⟩⟩

/-- A parameter is out of range, or the text has no formula. -/
def NewtonInput.IsBad (input : NewtonInput) : Prop :=
  ¬ input.x0.isFinite ∨
  ¬ (input.config.tolerance.isFinite ∧ 0 < input.config.tolerance) ∨
  input.config.maxIterations = 0 ∨
  ¬ (input.derivative.step.isFinite ∧ 0 < input.derivative.step) ∨
  HasNoFormula input.expression

/-- A parameter is out of range, the guesses are equal, or the text has no formula. -/
def SecantInput.IsBad (input : SecantInput) : Prop :=
  ¬ input.x0.isFinite ∨ ¬ input.x1.isFinite ∨ input.x0 == input.x1 ∨
  ¬ (input.config.tolerance.isFinite ∧ 0 < input.config.tolerance) ∨
  input.config.maxIterations = 0 ∨
  HasNoFormula input.expression

theorem isPositive_iff {x : Float} : isPositive x ↔ x.isFinite ∧ 0 < x := by
  rw [isPositive, Bool.and_eq_true, decide_eq_true_iff]

theorem NewtonInput.isBad_iff (input : NewtonInput) :
    input.IsBad ↔ (∃ d ∈ input.demands, ¬ d.holds) ∨ HasNoFormula input.expression := by
  simp only [IsBad, ← isPositive_iff, demands, SolverConfig.demands, DerivativeOptions.demands,
    guessDemand]
  simp [or_assoc]

theorem SecantInput.isBad_iff (input : SecantInput) :
    input.IsBad ↔ (∃ d ∈ input.demands, ¬ d.holds) ∨ HasNoFormula input.expression := by
  simp only [IsBad, ← isPositive_iff, demands, SolverConfig.demands, guessDemand, distinctDemand]
  simp [or_assoc]

/-! ## Runs that are not refused -/

/-- The errors with which a run is refused, by their kinds. -/
def SolverError.Kind.IsRefusal (kind : SolverError.Kind) : Prop :=
  kind = .invalidParameter ∨ kind = .invalidExpression

theorem Newton.Explains.not_isRefusal {σ : Type} {f : Formula} {input : NewtonInput}
    {observer : Observer σ} {result : RootResult} {last : σ} {e : SolverError}
    (h : Explains f input observer result last e) : ¬ e.kind.IsRefusal := by
  cases h <;> simp [SolverError.kind, SolverError.Kind.IsRefusal]

theorem Secant.Explains.not_isRefusal {σ : Type} {f : Formula} {input : SecantInput}
    {observer : Observer σ} {result : RootResult} {last : σ} {e : SolverError}
    (h : Explains f input observer result last e) : ¬ e.kind.IsRefusal := by
  cases h <;> simp [SolverError.kind, SolverError.Kind.IsRefusal]

/-- **A method screens its input** before it runs. -/
structure Screens (demands : List Demand) (text : String) (bad : Prop)
    (run : ∀ {σ : Type}, Formula → Observer σ → σ → RootResult × σ)
    (solve : ∀ {σ : Type}, Observer σ → σ → Except SolverError RootResult × σ) : Prop where
  /-- The input is refused, whoever observes the run, if it is bad. -/
  refused_iff : ∀ {σ : Type} (observer : Observer σ) (o : σ),
    (∃ e, (solve observer o).1 = .error e) ↔ bad
  /-- The error is about the first demand that does not hold, and otherwise about the text. -/
  error_iff : ∀ {σ : Type} (observer : Observer σ) (o : σ) (e : SolverError),
    (solve observer o).1 = .error e ↔ Refuses demands text e
  /-- Where the input is refused, the observer is not asked and keeps its state, whatever that is: one
  that counts has counted nothing, and one with a log has an empty log. -/
  unasked : ∀ {σ : Type} (observer : Observer σ) (o : σ) (e : SolverError),
    (solve observer o).1 = .error e → (solve observer o).2 = o
  /-- The observer comes in when a formula has been read, and nothing is refused after that. -/
  observed : ∀ {σ : Type} (observer : Observer σ) (o : σ) (f : Formula),
    start demands text = .ok f →
    solve observer o = (.ok (run f observer o).1, (run f observer o).2)
  /-- No error of a refusal is reported later. -/
  reported : ∀ {σ : Type} (observer : Observer σ) (o : σ) (r : RootResult) (e : SolverError),
    (solve observer o).1 = .ok r → r.failure = some e → ¬ e.kind.IsRefusal

section

variable {demands : List Demand} {text : String} {bad : Prop}
  {run : ∀ {σ : Type}, Formula → Observer σ → σ → RootResult × σ}
  {solve : ∀ {σ : Type}, Observer σ → σ → Except SolverError RootResult × σ}

theorem screens_of_start
    (hsolve : ∀ {σ : Type} (observer : Observer σ) (o : σ),
      solve observer o = runIfRead (start demands text) (fun f => run f observer) o)
    (hbad : bad ↔ (∃ d ∈ demands, ¬ d.holds) ∨ HasNoFormula text)
    (hrun : ∀ {σ : Type} (f : Formula) (observer : Observer σ) (o : σ) (e : SolverError),
      (run f observer o).1.failure = some e → ¬ e.kind.IsRefusal) :
    Screens demands text bad run solve := by
  have herror {σ : Type} (observer : Observer σ) (o : σ) (e : SolverError) :
      (solve observer o).1 = .error e ↔ start demands text = .error e := by
    rw [hsolve]
    exact runIfRead_eq_error
  constructor
  · intro σ observer o
    simp only [herror]
    rw [exists_start_eq_error, hbad]
  · intro σ observer o e
    rw [herror, start_eq_error]
  · intro σ observer o e hrefused
    rw [hsolve, (herror observer o e).1 hrefused, runIfRead]
  · intro σ observer o f hstart
    rw [hsolve, hstart]
    rfl
  · intro σ observer o r e hok hfailure
    rw [hsolve] at hok
    obtain ⟨f, -, rfl⟩ := runIfRead_eq_ok.1 hok
    exact hrun f observer o e hfailure

end

/-- **Bad input is refused before a run, and nothing else is.** -/
theorem bad_input_is_refused :
    (∀ input : NewtonInput, Screens input.demands input.expression input.IsBad
      (fun f => Newton.runWith f input) (Newton.solveObserved input)) ∧
    ∀ input : SecantInput, Screens input.demands input.expression input.IsBad
      (fun f => Secant.runWith f input) (Secant.solveObserved input) := by
  constructor <;> intro input
  · refine screens_of_start (fun observer o => ?_) input.isBad_iff
      fun f observer o _ h => (Newton.explains f input observer o h).not_isRefusal
    rw [Newton.solveObserved, input.formula_eq]
  · refine screens_of_start (fun observer o => ?_) input.isBad_iff
      fun f observer o _ h => (Secant.explains f input observer o h).not_isRefusal
    rw [Secant.solveObserved, input.formula_eq]

/-- A guess that is not finite is refused before the text is looked at. A text of blanks is refused
where the parameters are fine. The list of steps that an observer has seen stays empty. -/
theorem refused_for_guess_and_for_text :
    let newton : NewtonInput := { expression := " ", x0 := 0 / 0 }
    let secant : SecantInput := { expression := " ", x0 := 1, x1 := 2 }
    let reason := "Initial guess must be a finite number"
    let watch : Observer (List Step) := .collecting fun _ _ => false
    (Refuses newton.demands " " (.invalidParameter "x0" "NaN" reason) ∧
      (Newton.solveObserved newton watch []).2 = []) ∧
    Refuses secant.demands " " (.invalidExpression " " "Function cannot be empty") ∧
      (Secant.solveObserved secant watch []).2 = [] := by
  intro newton secant reason watch
  have hnewton : (Newton.solveObserved newton watch []).1 =
      .error (.invalidParameter "x0" "NaN" reason) := error?_eq_some.1 (by decide +kernel)
  have hsecant : (Secant.solveObserved secant watch []).1 =
      .error (.invalidExpression " " "Function cannot be empty") :=
    error?_eq_some.1 (by decide +kernel)
  have hscreensNewton := bad_input_is_refused.1 newton
  have hscreensSecant := bad_input_is_refused.2 secant
  exact ⟨⟨(hscreensNewton.error_iff watch [] _).1 hnewton,
      hscreensNewton.unasked watch [] _ hnewton⟩,
    (hscreensSecant.error_iff watch [] _).1 hsecant,
    hscreensSecant.unasked watch [] _ hsecant⟩

end RealRoots
