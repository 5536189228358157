import RealRoots.Proofs.Results
import RealRoots.Solver.Result

/-!
# Results that are read back

**Theorem (`RootResult.readsBack_iff`).** A result is read back from what it is written as if and
only if every double in it is finite.

A double that is not finite is written as null. Where a double is required nothing is read then, and
where it may be absent it is read as absent; so the value that is read is never the one written.
-/

namespace RealRoots

/-- The value is read back from what it is written as. -/
def ReadsBack {α : Type} [Stored α] (a : α) : Prop :=
  read? (write a) = some a

/-! ## Parts -/

@[simp] theorem read?_write_nat (n : Nat) : read? (write n) = some n := rfl

@[simp] theorem read?_write_bool (b : Bool) : read? (write b) = some b := rfl

@[simp] theorem read?_write_string (text : String) : read? (write text) = some text := rfl

@[simp] theorem Method.read?_write (method : Method) : read? (write method) = some method := by
  cases method <;> rfl

@[simp] theorem SolverError.Kind.read?_write (kind : SolverError.Kind) :
    read? (write kind) = some kind := by
  cases kind <;> rfl

section

variable {α : Type} [Stored α]

theorem readsBack_float_iff {x : Float} : ReadsBack x ↔ x.isFinite := by
  by_cases h : x.isFinite <;> simp [ReadsBack, write, read?, h]

/-- A value that is not read from null may be absent. -/
theorem readsBack_some_iff (hnull : read? .null = (none : Option α)) {a : α} :
    ReadsBack (some a) ↔ ReadsBack a := by
  unfold ReadsBack
  cases hw : write a with
  | null =>
    have hsome : write (some a) = .null := hw
    rw [hsome, hnull]
    exact iff_of_false nofun nofun
  | _ =>
    have hsome : write (some a) = write a := rfl
    rw [hsome, hw]
    exact Option.map_eq_some_iff.trans (by simp)

/-- What may be absent is read back if what is there is. -/
theorem readsBack_option_iff (hnull : read? .null = (none : Option α)) {a : Option α} :
    ReadsBack a ↔ ∀ b ∈ a, ReadsBack b := by
  cases a with
  | none => exact iff_of_true rfl nofun
  | some a =>
    rw [readsBack_some_iff hnull]
    simp

theorem readsBack_list_iff {items : List α} : ReadsBack items ↔ ∀ a ∈ items, ReadsBack a := by
  change (items.map write).mapM read? = some items ↔ _
  induction items with
  | nil => simp
  | cons a items ih =>
    rw [List.map_cons, List.mapM_cons, List.forall_mem_cons, ← ih]
    simp [Option.bind_eq_some_iff, ReadsBack]

end

/-! ## Errors -/

namespace SolverError

/-- The doubles in an error. -/
def numbers : SolverError → List Float
  | evaluation x _ => [x]
  | derivativeNearZero x derivative => [x, derivative]
  | nearZeroDenominator xPrev xCurr difference => [xPrev, xCurr, difference]
  | invalidExpression .. | invalidParameter .. | maxIterationsReached _ | cancelled _ => []

theorem read?_write (e : SolverError) :
    read? (write e) = ofDetails? e.kind (.object e.details) := by
  have hkind : ofSpelling? Kind (Spelled.spelling e.kind) = some e.kind := Kind.read?_write e.kind
  have htagged : (Json.tagged (Spelled.spelling e.kind) e.details).kind? =
      some (Spelled.spelling e.kind, .object e.details) := by
    simp [Json.kind?, Json.tagged, Json.field?, Json.name?]
  change ((Json.tagged (Spelled.spelling e.kind) e.details).kind?.bind fun tagged =>
    (ofSpelling? Kind tagged.1).bind fun kind => ofDetails? kind tagged.2) = _
  rw [htagged, Option.bind_some, hkind, Option.bind_some]

theorem readsBack_iff {e : SolverError} : ReadsBack e ↔ ∀ x ∈ e.numbers, x.isFinite := by
  simp only [← readsBack_float_iff]
  rw [ReadsBack, read?_write]
  cases e <;> simp [numbers, kind, details, ofDetails?, Json.required, Json.field?, ReadsBack,
    Option.bind_eq_some_iff, and_left_comm]

end SolverError

/-! ## Records -/

theorem readsBack_option_float_iff {x : Option Float} :
    ReadsBack x ↔ ∀ y, x = some y → y.isFinite := by
  rw [readsBack_option_iff rfl]
  simp only [readsBack_float_iff, Option.mem_def]

namespace Iteration

/-- The doubles in a record. -/
def numbers (it : Iteration) : List Float :=
  it.x :: it.fx :: it.derivative.toList ++ it.nextX.toList ++ it.error.toList

/-- Each field is read from what it is written as, also one that is left out. -/
theorem read?_write (it : Iteration) : read? (write it) = (do
    some {
      index := ← read? (write it.index)
      x := ← read? (write it.x)
      fx := ← read? (write it.fx)
      derivative := ← read? (write it.derivative)
      nextX := ← read? (write it.nextX)
      error := ← read? (write it.error) } : Option Iteration) := by
  obtain ⟨index, x, fx, derivative, nextX, error⟩ := it
  cases derivative <;> cases nextX <;> rfl

theorem numbers_isFinite_iff {it : Iteration} : (∀ x ∈ it.numbers, x.isFinite) ↔
    it.x.isFinite ∧ it.fx.isFinite ∧ (∀ x, it.derivative = some x → x.isFinite) ∧
      (∀ x, it.nextX = some x → x.isFinite) ∧ ∀ x, it.error = some x → x.isFinite := by
  simp [numbers, or_imp, forall_and]

theorem readsBack_iff {it : Iteration} : ReadsBack it ↔ ∀ x ∈ it.numbers, x.isFinite := by
  have hparts : ReadsBack it ↔ ReadsBack it.x ∧ ReadsBack it.fx ∧ ReadsBack it.derivative ∧
      ReadsBack it.nextX ∧ ReadsBack it.error := by
    rw [ReadsBack, read?_write]
    obtain ⟨index, x, fx, derivative, nextX, error⟩ := it
    simp [ReadsBack, Option.bind_eq_some_iff, and_left_comm]
  simp only [hparts, readsBack_float_iff, readsBack_option_float_iff, numbers_isFinite_iff]

end Iteration

/-! ## Results -/

namespace RootResult

/-- The doubles in a result. -/
def numbers (r : RootResult) : List Float :=
  r.root.toList ++ r.functionValue.toList ++ r.iterations.flatMap Iteration.numbers ++
    [r.executionTimeMs] ++ r.failure.toList.flatMap SolverError.numbers ++
    r.convergenceRate.toList ++ [r.tolerance]

/-- Every double in the result is finite. -/
def IsFinite (r : RootResult) : Prop :=
  ∀ x ∈ r.numbers, x.isFinite

instance (r : RootResult) : Decidable r.IsFinite :=
  inferInstanceAs (Decidable (∀ x ∈ _, _))

/-- Each field is read from what it is written as, whatever stands before the fields. -/
theorem ofFields?_append (before : List (String × Json)) (r : RootResult) :
    ofFields? (.object (before ++ r.fields)) = (do
      some {
        method := ← read? (write r.method)
        expression := ← read? (write r.expression)
        converged := ← read? (write r.converged)
        root := ← read? (write r.root)
        functionValue := ← read? (write r.functionValue)
        iterations := ← read? (write r.iterations)
        totalIterations := ← read? (write r.totalIterations)
        executionTimeMs := ← read? (write r.executionTimeMs)
        errorKind := ← read? (write r.errorKind)
        failure := ← read? (write r.failure)
        convergenceRate := ← read? (write r.convergenceRate)
        tolerance := ← read? (write r.tolerance)
        maxIterations := ← read? (write r.maxIterations) } : Option RootResult) := by
  simp only [ofFields?, fields, Json.required, Json.optional, Json.field?, List.reverse_append]
  simp

theorem ofFields?_eq_self_iff_parts {before : List (String × Json)} {r : RootResult} :
    ofFields? (.object (before ++ r.fields)) = some r ↔ ReadsBack r.root ∧
      ReadsBack r.functionValue ∧ ReadsBack r.iterations ∧ ReadsBack r.executionTimeMs ∧
      ReadsBack r.failure ∧ ReadsBack r.convergenceRate ∧ ReadsBack r.tolerance := by
  have hkind : read? (write r.errorKind) = some r.errorKind :=
    (readsBack_option_iff rfl).2 fun kind _ => SolverError.Kind.read?_write kind
  rw [ofFields?_append]
  obtain ⟨method, expression, converged, root, functionValue, iterations, totalIterations,
    executionTimeMs, errorKind, failure, convergenceRate, tolerance, maxIterations⟩ := r
  simp only [read?_write_nat, read?_write_bool, read?_write_string, Method.read?_write, hkind,
    Option.bind_eq_bind, Option.bind_some]
  simp [ReadsBack, Option.bind_eq_some_iff, and_left_comm]

theorem isFinite_iff {r : RootResult} : r.IsFinite ↔ (∀ x, r.root = some x → x.isFinite) ∧
    (∀ x, r.functionValue = some x → x.isFinite) ∧
    (∀ it ∈ r.iterations, ∀ x ∈ it.numbers, x.isFinite) ∧ r.executionTimeMs.isFinite ∧
    (∀ e, r.failure = some e → ∀ x ∈ e.numbers, x.isFinite) ∧
    (∀ x, r.convergenceRate = some x → x.isFinite) ∧ r.tolerance.isFinite := by
  simp only [IsFinite, numbers, and_assoc, List.forall_mem_append, List.forall_mem_flatMap,
    List.forall_mem_singleton, Option.mem_toList]

/-- **A result is read back if and only if every double in it is finite**, whatever stands before
its fields. -/
theorem ofFields?_eq_self_iff (before : List (String × Json)) {r : RootResult} :
    ofFields? (.object (before ++ r.fields)) = some r ↔ r.IsFinite := by
  have hrecords : ReadsBack r.iterations ↔
      ∀ it ∈ r.iterations, ∀ x ∈ it.numbers, x.isFinite := by
    simp only [readsBack_list_iff, Iteration.readsBack_iff]
  have hfailure : ReadsBack r.failure ↔
      ∀ e, r.failure = some e → ∀ x ∈ e.numbers, x.isFinite := by
    rw [readsBack_option_iff rfl]
    simp only [SolverError.readsBack_iff, Option.mem_def]
  rw [ofFields?_eq_self_iff_parts, hrecords, hfailure, isFinite_iff]
  simp only [readsBack_float_iff, readsBack_option_float_iff]

theorem readsBack_iff {r : RootResult} : ReadsBack r ↔ r.IsFinite :=
  ofFields?_eq_self_iff []

end RootResult

end RealRoots
