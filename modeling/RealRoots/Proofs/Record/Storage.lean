import RealRoots.Proofs.Record.Stored
import RealRoots.Proofs.Solver.Storage

/-!
# Decoding undoes encoding

**Theorem (`decoding_undoes_encoding`).** Every stored value is decoded from its text, as long as
its doubles are finite and its counts have 64 bits. So two values never share a text.

The types of the other modules are completed by comparisons and records here. The kind of an outcome
is written among the fields of the result or the comparison, and hides none of them: a field is
found by name, and no field is called `type`.
-/

namespace RealRoots

/-! ## Comparisons -/

theorem Verdict.read?_write (verdict : Verdict) : read? (write verdict) = some verdict := by
  cases verdict <;> rfl

namespace ComparisonInput

theorem read?_write (input : ComparisonInput) : read? (write input) = (do
    some {
      expression := ← read? (write input.expression)
      x0 := ← read? (write input.x0)
      x1 := ← read? (write input.x1)
      config := ← read? (write input.config)
      derivative := ← read? (write input.derivative) } : Option ComparisonInput) :=
  rfl

instance : Storable ComparisonInput where
  Fits input := Fits input.x0 ∧ Fits input.x1 ∧ Fits input.config ∧ Fits input.derivative
  readsBack {input} := by
    rintro ⟨hx0, hx1, hconfig, hderivative⟩
    simp [ReadsBack, read?_write, read?_write_of_fits hx0, read?_write_of_fits hx1,
      read?_write_of_fits hconfig, read?_write_of_fits hderivative]
  isWritable {input} := by
    rintro ⟨hx0, hx1, hconfig, hderivative⟩
    change Json.IsWritable (.object _)
    simp [Json.isWritable_object_iff, isWritable_of_fits hx0, isWritable_of_fits hx1,
      isWritable_of_fits hconfig, isWritable_of_fits hderivative, Json.isWritable_string]

end ComparisonInput

namespace NamedResult

theorem read?_write (r : NamedResult) : read? (write r) = (do
    some ⟨← read? (write r.name), ← read? (write r.result)⟩ : Option NamedResult) :=
  rfl

instance : Storable NamedResult where
  Fits r := Fits r.result
  readsBack {r} h := by
    simp [ReadsBack, read?_write, read?_write_of_fits h]
  isWritable {r} h := by
    change Json.IsWritable (.object _)
    simp [Json.isWritable_object_iff, isWritable_of_fits h, Json.isWritable_string]

end NamedResult

namespace Comparison

/-- Each field is read from what it is written as, whatever stands before the fields. -/
theorem ofFields?_append (before : List (String × Json)) (c : Comparison) :
    ofFields? (.object (before ++ c.fields)) = (do
      some {
        first := ← read? (write c.first)
        second := ← read? (write c.second)
        winner := ← read? (write c.winner)
        winnerByIterations := ← read? (write c.winnerByIterations)
        winnerByAccuracy := ← read? (write c.winnerByAccuracy)
        winnerByRate := ← read? (write c.winnerByRate)
        iterationDelta := ← read? (write c.iterationDelta)
        executionTimeDeltaMs := ← read? (write c.executionTimeDeltaMs) } : Option Comparison) := by
  simp only [ofFields?, fields, Json.required, Json.field?, List.reverse_append]
  simp

theorem ofFields?_eq_self (before : List (String × Json)) {c : Comparison} (hfirst : Fits c.first)
    (hsecond : Fits c.second) (htime : Fits c.executionTimeDeltaMs) :
    ofFields? (.object (before ++ c.fields)) = some c := by
  simp [ofFields?_append, read?_write_of_fits hfirst, read?_write_of_fits hsecond,
    read?_write_of_fits htime, Verdict.read?_write]

instance : Storable Comparison where
  Fits c := Fits c.first ∧ Fits c.second ∧ Fits c.iterationDelta ∧ Fits c.executionTimeDeltaMs
  readsBack := fun ⟨hfirst, hsecond, _, htime⟩ => ofFields?_eq_self [] hfirst hsecond htime
  isWritable {c} := by
    rintro ⟨hfirst, hsecond, hdelta, htime⟩
    refine Json.isWritable_object_iff.2 ?_
    simp [fields, isWritable_of_fits hfirst, isWritable_of_fits hsecond, isWritable_of_fits hdelta,
      isWritable_of_fits htime, Json.isWritable_spelled]

end Comparison

/-! ## Records -/

namespace Outcome

/-- The kind before the fields of a comparison does not hide any of them. -/
theorem readsBack_comparison {c : Comparison} (h : Fits c) : ReadsBack (comparison c) := by
  obtain ⟨hfirst, hsecond, -, htime⟩ := h
  have hfields := Comparison.ofFields?_eq_self [("type", .string "Comparison")] hfirst hsecond htime
  have hread : read? (write (comparison c)) =
      (Comparison.ofFields? (.object ([("type", .string "Comparison")] ++ c.fields))).map
        comparison :=
    read?_kind (by simp [Comparison.fields])
  rw [ReadsBack, hread, hfields, Option.map_some]

instance : Storable Outcome where
  Fits
    | single r => Fits r
    | comparison c => Fits c
  decidableFits
    | single r => inferInstanceAs (Decidable (Fits r))
    | comparison c => inferInstanceAs (Decidable (Fits c))
  readsBack {outcome} h := by
    cases outcome with
    | single r => exact readsBack_single_iff.2 (RootResult.readsBack_iff.1 (Storable.readsBack h))
    | comparison c => exact readsBack_comparison h
  isWritable {outcome} h := by
    have hkind : (Json.string outcome.kind).IsWritable := .string _
    refine Json.isWritable_object_iff.2 (List.forall_mem_cons.2 ⟨hkind, ?_⟩)
    cases outcome with
    | single r => exact Json.isWritable_object_iff.1 (isWritable_of_fits (a := r) h)
    | comparison c => exact Json.isWritable_object_iff.1 (isWritable_of_fits (a := c) h)

end Outcome

namespace Record

instance : Storable Record where
  Fits r := Fits r.outcome
  readsBack h := readsBack_iff.2 (Storable.readsBack h)
  isWritable {r} h := by
    have hid : (write r.id).IsWritable := .string _
    have hcreated : (write r.created).IsWritable := .string _
    change Json.IsWritable (.object _)
    simp [Json.isWritable_object_iff, hid, hcreated, isWritable_of_fits h, Json.isWritable_string]

end Record

/-! ## The stored format -/

/-- **Decoding undoes encoding over the whole stored format.** A value of any of these types whose
doubles are finite and whose counts have 64 bits is decoded from both its texts, and shares them
with no other such value. -/
theorem decoding_undoes_encoding :
    DecodesBack Iteration ∧ DecodesBack RootResult ∧ DecodesBack NamedResult ∧
      DecodesBack Comparison ∧ DecodesBack Record ∧ DecodesBack SolverError ∧
      DecodesBack FormulaError ∧ DecodesBack EvalError ∧ DecodesBack Settings ∧
      DecodesBack NewtonInput ∧ DecodesBack SecantInput ∧ DecodesBack ComparisonInput :=
  ⟨decodesBack, decodesBack, decodesBack, decodesBack, decodesBack, decodesBack, decodesBack,
    decodesBack, decodesBack, decodesBack, decodesBack, decodesBack⟩

/-- A double keeps its sign and a point, and the kind stands before the details. -/
example : (write (EvalError.nonFinite (-0))).compact =
    "\x7b\"type\":\"NonFinite\",\"details\":\x7b\"x\":-0.0\x7d\x7d" := by
  decide +kernel

/-- The record of a comparison of two runs that were cancelled at the largest count, after an
iterate that is a negative zero and one that is the least double above zero. -/
theorem cancelled_comparison_decodes :
    let first : Iteration := { index := 0, x := -0.0, fx := 1e300 }
    let second : Iteration := { index := 1, x := 5e-324, fx := 0.1, error := some 5e-324 }
    let run : RootResult :=
      { method := .secant, expression := "x", converged := false, root := none
        functionValue := none, iterations := [first, second]
        totalIterations := 18446744073709551615, executionTimeMs := 0.25
        errorKind := some .cancelled, failure := some (.cancelled 18446744073709551615)
        convergenceRate := none, tolerance := 1e-4, maxIterations := 18446744073709551615 }
    let record : Record :=
      .ofOutcome ⟨List.replicate 32 0, rfl⟩
        ⟨⟨2024, 2, 29, by decide, by decide, by decide⟩, 23, 59, 60, 500000000, by decide,
          by decide, by decide, by decide⟩
        (.comparison (.judge (.ofResult run) (.ofResult run)))
    decode? Record (write record).compact = some record ∧
      decode? Record (write record).pretty = some record := by
  intro first second run record
  obtain ⟨-, -, -, -, hrecords, -⟩ := decoding_undoes_encoding
  have hfits : Fits record := by decide +kernel
  exact ⟨hrecords.decodes hfits .compact, hrecords.decodes hfits .pretty⟩

end RealRoots
