import RealRoots.Proofs.Calendar.Timestamp
import RealRoots.Proofs.Record.Uuid
import RealRoots.Record

/-!
# Records are read back

**Theorem (`Record.readsBack_single_iff`).** The record of a run is read back from what it is
written as if and only if every double in its result is finite.
-/

namespace RealRoots

/-- The kind is found before fields none of which is called like it. -/
theorem Outcome.read?_kind {kind : String} {fields : List (String × Json)}
    (h : "type" ∉ fields.map Prod.fst) :
    (read? (Json.object (("type", .string kind) :: fields)) : Option Outcome) =
      ofKind? kind (.object (("type", .string kind) :: fields)) := by
  have hnone : fields.reverse.find? (fun field => field.1 = "type") = none := by
    rw [List.find?_eq_none]
    intro field hfield hname
    exact h (List.mem_map.2 ⟨field, List.mem_reverse.1 hfield, of_decide_eq_true hname⟩)
  have hkind : (Json.object (("type", .string kind) :: fields)).required "type" = some kind := by
    simp [Json.required, Json.field?, hnone, List.find?_append, read?]
  change (do
    ofKind? (← (Json.object (("type", .string kind) :: fields)).required "type") _) = _
  rw [hkind]
  rfl

/-- The kind before the fields of a result does not hide any of them. -/
theorem Outcome.readsBack_single_iff {r : RootResult} : ReadsBack (single r) ↔ r.IsFinite := by
  rw [← RootResult.ofFields?_eq_self_iff [("type", .string "Single")]]
  have hread : read? (write (single r)) =
      (RootResult.ofFields? (.object ([("type", .string "Single")] ++ r.fields))).map single :=
    Outcome.read?_kind (by simp [RootResult.fields])
  rw [ReadsBack, hread]
  simp

theorem Record.read?_write (r : Record) : read? (write r) = (do
    some {
      id := ← read? (write r.id)
      created := ← read? (write r.created)
      schemaVersion := ← read? (write r.schemaVersion)
      expression := ← read? (write r.expression)
      outcome := ← read? (write r.outcome) } : Option Record) :=
  rfl

/-- A record is read back if its outcome is. -/
theorem Record.readsBack_iff {r : Record} : ReadsBack r ↔ ReadsBack r.outcome := by
  have hid : read? (write r.id) = some r.id := r.id.readsBack
  have hcreated : read? (write r.created) = some r.created := r.created.readsBack
  obtain ⟨id, created, schemaVersion, expression, outcome⟩ := r
  rw [ReadsBack, read?_write]
  simp [hid, hcreated, ReadsBack, Option.bind_eq_some_iff]

/-- **The record of a run is read back if and only if every double in its result is finite.** -/
theorem Record.readsBack_single_iff {id : Uuid} {created : Timestamp} {r : RootResult} :
    ReadsBack (ofOutcome id created (.single r)) ↔ r.IsFinite :=
  Record.readsBack_iff.trans Outcome.readsBack_single_iff

end RealRoots
