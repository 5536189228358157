import RealRoots.Calendar.Timestamp
import RealRoots.Comparison
import RealRoots.Record.Uuid

/-!
# Records

A record is a finished calculation as it is handed on to be stored: an identifier, the time it was
made, the function text and the outcome.
-/

namespace RealRoots

/-- The version of the stored format. -/
def schemaVersion : String := "0.1.0"

inductive Outcome where
  /-- One run. -/
  | single (result : RootResult)
  /-- Both methods on one formula. -/
  | comparison (comparison : Comparison)
  deriving DecidableEq

namespace Outcome

def kind : Outcome → String
  | single _ => "Single"
  | comparison _ => "Comparison"

/-- Did any run converge? -/
def anyConverged : Outcome → Bool
  | single result => result.converged
  | comparison c => c.first.result.converged || c.second.result.converged

/-- The function text of the run, or of the first run. -/
def expression : Outcome → String
  | single result => result.expression
  | comparison c => c.first.result.expression

/-- The outcome of that kind with those fields. -/
def ofKind? (kind : String) (fields : Json) : Option Outcome :=
  match kind with
  | "Single" => (read? fields).map single
  | "Comparison" => (read? fields).map comparison
  | _ => none

/-- The kind is one more field, and in an array the first value. -/
instance : Stored Outcome where
  write outcome :=
    .object <| ("type", .string outcome.kind) ::
      match outcome with
      | .single result => result.fields
      | .comparison c => c.fields
  read?
    | .array (.string kind :: fields) => ofKind? kind (.array fields)
    | .object fields => do ofKind? (← (Json.object fields).required "type") (.object fields)
    | _ => none

end Outcome

structure Record where
  id : Uuid
  created : Timestamp
  schemaVersion : String
  expression : String
  outcome : Outcome
  deriving DecidableEq

namespace Record

/-- The record of an outcome. -/
def ofOutcome (id : Uuid) (created : Timestamp) (outcome : Outcome) : Record :=
  ⟨id, created, RealRoots.schemaVersion, outcome.expression, outcome⟩

instance : Stored Record where
  write r := .object [("id", write r.id), ("created", write r.created),
    ("schema_version", write r.schemaVersion), ("expression", write r.expression),
    ("outcome", write r.outcome)]
  read? := Json.readFields ["id", "created", "schema_version", "expression", "outcome"] []
    fun value => do
      some {
        id := ← value.required "id"
        created := ← value.required "created"
        schemaVersion := ← value.required "schema_version"
        expression := ← value.required "expression"
        outcome := ← value.required "outcome" }

end Record

end RealRoots
