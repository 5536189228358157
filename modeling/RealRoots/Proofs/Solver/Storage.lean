import RealRoots.Proofs.Json.Storable
import RealRoots.Settings
import RealRoots.Solver.Newton
import RealRoots.Solver.Secant

/-!
# Errors, inputs, settings and results are storable

Each type is read back field by field. `read?_write` says that every field is read from what it is
written as, under whichever tag and with whichever default it may lack; so a value is read back if
its fields are.
-/

namespace RealRoots

/-! ## Errors -/

instance : Storable SolverError.Kind where
  Fits _ := True
  readsBack _ := SolverError.Kind.read?_write _
  isWritable _ := Json.isWritable_spelled _

instance : Storable (Option SolverError.Kind) :=
  .ofOption rfl

namespace SolverError

/-- The counts in an error. -/
def counts : SolverError → List Nat
  | maxIterationsReached n | cancelled n => [n]
  | _ => []

instance : Storable SolverError where
  Fits e := (∀ x ∈ e.numbers, Fits x) ∧ ∀ n ∈ e.counts, Fits n
  readsBack h := readsBack_iff.2 h.1
  isWritable {e} h := by
    have hnumbers : ∀ x ∈ e.numbers, (write x).IsWritable := fun x hx =>
      isWritable_of_fits (h.1 x hx)
    have hcounts : ∀ n ∈ e.counts, (write n).IsWritable := fun n hn =>
      isWritable_of_fits (h.2 n hn)
    refine Json.isWritable_tagged_iff.2 ?_
    cases e <;> simp_all [numbers, counts, details, Json.isWritable_string]

instance : Storable (Option SolverError) :=
  .ofOption rfl

end SolverError

namespace EvalError

theorem read?_write (e : EvalError) : read? (write e) = ofDetails? e.kind (.object e.details) := by
  cases e <;> rfl

/-- The doubles in an error. -/
def numbers : EvalError → List Float
  | divisionByZero x | nonFinite x => [x]
  | domain _ argument x => [argument, x]

instance : Storable EvalError where
  Fits e := ∀ x ∈ e.numbers, Fits x
  readsBack {e} h := by
    have hnumbers : ∀ x ∈ e.numbers, read? (write x) = some x := fun x hx =>
      read?_write_of_fits (h x hx)
    rw [ReadsBack, read?_write]
    cases e <;> simp_all [numbers, kind, details, ofDetails?, Json.required, Json.field?]
  isWritable {e} h := by
    have hnumbers : ∀ x ∈ e.numbers, (write x).IsWritable := fun x hx =>
      isWritable_of_fits (h x hx)
    refine Json.isWritable_tagged_iff.2 ?_
    cases e <;> simp_all [numbers, details, Json.isWritable_string]

end EvalError

namespace FormulaError

theorem read?_write (e : FormulaError) :
    read? (write e) = ofDetails? e.kind (e.details?.getD .null) := by
  cases e <;> rfl

/-- The counts in an error. -/
def counts : FormulaError → List Nat
  | unexpectedCharacter _ n | invalidNumber _ n | unexpectedToken _ n | unknownIdentifier _ n
  | unknownFunction _ n => [n]
  | wrongArity _ m n | tooDeep m n => [m, n]
  | empty | unexpectedEnd | undefinedAtSamples _ => []

/-- The error at a sample point that is stored within this one. -/
def cause? : FormulaError → Option EvalError
  | undefinedAtSamples first => some first
  | _ => none

instance : Storable FormulaError where
  Fits e := (∀ n ∈ e.counts, Fits n) ∧ ∀ cause ∈ e.cause?, Fits cause
  readsBack {e} h := by
    have hcause : ∀ cause ∈ e.cause?, read? (write cause) = some cause := fun cause hc =>
      read?_write_of_fits (h.2 cause hc)
    have hchar (c : Char) : read? (write c) = some c := read?_write_of_fits trivial
    rw [ReadsBack, read?_write]
    cases e <;> simp_all [cause?, kind, details?, ofDetails?, Json.required, Json.field?]
  isWritable {e} h := by
    have hcounts : ∀ n ∈ e.counts, (write n).IsWritable := fun n hn =>
      isWritable_of_fits (h.1 n hn)
    have hcause : ∀ cause ∈ e.cause?, (write cause).IsWritable := fun cause hc =>
      isWritable_of_fits (h.2 cause hc)
    have hchar (c : Char) : (write c).IsWritable := isWritable_of_fits trivial
    have hkind : (Json.string e.kind).IsWritable := .string _
    refine Json.isWritable_object_iff.2 ?_
    cases e <;> simp_all [counts, cause?, details?, Json.isWritable_string,
      Json.isWritable_object_iff]

end FormulaError

/-! ## Inputs -/

theorem StoppingRule.read?_write (rule : StoppingRule) : read? (write rule) = some rule := by
  cases rule <;> rfl

theorem Differentiation.read?_write (method : Differentiation) :
    read? (write method) = some method := by
  cases method <;> rfl

namespace SolverConfig

theorem read?_write (c : SolverConfig) : read? (write c) = (do
    some {
      tolerance := ← read? (write c.tolerance)
      maxIterations := ← read? (write c.maxIterations)
      stoppingRule := ← read? (write c.stoppingRule) } : Option SolverConfig) :=
  rfl

instance : Storable SolverConfig where
  Fits c := Fits c.tolerance ∧ Fits c.maxIterations
  readsBack {c} h := by
    simp [ReadsBack, read?_write, read?_write_of_fits h.1, StoppingRule.read?_write]
  isWritable {c} h := by
    change Json.IsWritable (.object _)
    simp [Json.isWritable_object_iff, isWritable_of_fits h.1, isWritable_of_fits h.2,
      Json.isWritable_spelled]

end SolverConfig

namespace DerivativeOptions

theorem read?_write (o : DerivativeOptions) : read? (write o) = (do
    some {
      method := ← read? (write o.method)
      step := ← read? (write o.step) } : Option DerivativeOptions) :=
  rfl

instance : Storable DerivativeOptions where
  Fits o := Fits o.step
  readsBack {o} h := by
    simp [ReadsBack, read?_write, read?_write_of_fits h, Differentiation.read?_write]
  isWritable {o} h := by
    change Json.IsWritable (.object _)
    simp [Json.isWritable_object_iff, isWritable_of_fits h, Json.isWritable_spelled]

end DerivativeOptions

namespace NewtonInput

theorem read?_write (input : NewtonInput) : read? (write input) = (do
    some {
      expression := ← read? (write input.expression)
      x0 := ← read? (write input.x0)
      config := ← read? (write input.config)
      derivative := ← read? (write input.derivative)
      recordFinalPoint := ← read? (write input.recordFinalPoint) } : Option NewtonInput) :=
  rfl

instance : Storable NewtonInput where
  Fits input := Fits input.x0 ∧ Fits input.config ∧ Fits input.derivative
  readsBack {input} := by
    rintro ⟨hx0, hconfig, hderivative⟩
    simp [ReadsBack, read?_write, read?_write_of_fits hx0, read?_write_of_fits hconfig,
      read?_write_of_fits hderivative]
  isWritable {input} := by
    rintro ⟨hx0, hconfig, hderivative⟩
    change Json.IsWritable (.object _)
    simp [Json.isWritable_object_iff, isWritable_of_fits hx0, isWritable_of_fits hconfig,
      isWritable_of_fits hderivative, Json.isWritable_string, Json.isWritable_bool]

end NewtonInput

namespace SecantInput

theorem read?_write (input : SecantInput) : read? (write input) = (do
    some {
      expression := ← read? (write input.expression)
      x0 := ← read? (write input.x0)
      x1 := ← read? (write input.x1)
      config := ← read? (write input.config) } : Option SecantInput) :=
  rfl

instance : Storable SecantInput where
  Fits input := Fits input.x0 ∧ Fits input.x1 ∧ Fits input.config
  readsBack {input} := by
    rintro ⟨hx0, hx1, hconfig⟩
    simp [ReadsBack, read?_write, read?_write_of_fits hx0, read?_write_of_fits hx1,
      read?_write_of_fits hconfig]
  isWritable {input} := by
    rintro ⟨hx0, hx1, hconfig⟩
    change Json.IsWritable (.object _)
    simp [Json.isWritable_object_iff, isWritable_of_fits hx0, isWritable_of_fits hx1,
      isWritable_of_fits hconfig, Json.isWritable_string]

end SecantInput

namespace Settings

theorem read?_write (s : Settings) : read? (write s) = (do
    some {
      tolerance := ← read? (write s.tolerance)
      maxIterations := ← read? (write s.maxIterations)
      stoppingRule := ← read? (write s.stoppingRule)
      derivativeMethod := ← read? (write s.derivativeMethod)
      derivativeStep := ← read? (write s.derivativeStep)
      recordFinalPoint := ← read? (write s.recordFinalPoint)
      samplePoints := ← read? (write s.samplePoints)
      plotPadding := ← read? (write s.plotPadding) } : Option Settings) :=
  rfl

instance : Storable Settings where
  Fits s := Fits s.tolerance ∧ Fits s.maxIterations ∧ Fits s.derivativeStep ∧
    Fits s.samplePoints ∧ Fits s.plotPadding
  readsBack {s} := by
    rintro ⟨htolerance, -, hstep, -, hpadding⟩
    simp [ReadsBack, read?_write, read?_write_of_fits htolerance, read?_write_of_fits hstep,
      read?_write_of_fits hpadding, StoppingRule.read?_write, Differentiation.read?_write]
  isWritable {s} := by
    rintro ⟨htolerance, hmax, hstep, hpoints, hpadding⟩
    change Json.IsWritable (.object _)
    simp [Json.isWritable_object_iff, isWritable_of_fits htolerance, isWritable_of_fits hmax,
      isWritable_of_fits hstep, isWritable_of_fits hpoints, isWritable_of_fits hpadding,
      Json.isWritable_spelled, Json.isWritable_bool]

end Settings

/-! ## Results -/

namespace Iteration

instance : Storable Iteration where
  Fits it := Fits it.index ∧ Fits it.x ∧ Fits it.fx ∧ Fits it.derivative ∧ Fits it.nextX ∧
    Fits it.error
  readsBack {it} := by
    rintro ⟨-, hx, hfx, hderivative, hnext, herror⟩
    exact readsBack_iff.2 (numbers_isFinite_iff.2 ⟨hx, hfx, hderivative, hnext, herror⟩)
  isWritable {it} := by
    rintro ⟨hindex, hx, hfx, hderivative, hnext, herror⟩
    refine Json.isWritable_object_iff.2 ?_
    simp only [List.forall_mem_append, List.forall_mem_cons]
    exact ⟨⟨⟨⟨isWritable_of_fits hindex, isWritable_of_fits hx, isWritable_of_fits hfx, nofun⟩,
      Json.isWritable_present hderivative⟩, Json.isWritable_present hnext⟩,
      isWritable_of_fits herror, nofun⟩

end Iteration

instance : Storable RootResult where
  Fits r := Fits r.root ∧ Fits r.functionValue ∧ Fits r.iterations ∧ Fits r.totalIterations ∧
    Fits r.executionTimeMs ∧ Fits r.failure ∧ Fits r.convergenceRate ∧ Fits r.tolerance ∧
    Fits r.maxIterations
  readsBack {r} := by
    rintro ⟨hroot, hvalue, hrecords, -, htime, hfailure, hrate, htolerance, -⟩
    have hfields : RootResult.ofFields? (.object ([] ++ r.fields)) = some r :=
      RootResult.ofFields?_eq_self_iff_parts.2 ⟨Storable.readsBack hroot,
        Storable.readsBack hvalue, Storable.readsBack hrecords, Storable.readsBack htime,
        Storable.readsBack hfailure, Storable.readsBack hrate, Storable.readsBack htolerance⟩
    exact hfields
  isWritable {r} := by
    rintro ⟨hroot, hvalue, hrecords, htotal, htime, hfailure, hrate, htolerance, hmax⟩
    have hkind : (write r.errorKind).IsWritable := isWritable_of_fits fun _ _ => trivial
    refine Json.isWritable_object_iff.2 ?_
    simp [RootResult.fields, Json.isWritable_spelled, Json.isWritable_string, Json.isWritable_bool,
      hkind, isWritable_of_fits hroot, isWritable_of_fits hvalue, isWritable_of_fits hrecords,
      isWritable_of_fits htotal, isWritable_of_fits htime, isWritable_of_fits hfailure,
      isWritable_of_fits hrate, isWritable_of_fits htolerance, isWritable_of_fits hmax]

end RealRoots
