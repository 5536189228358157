import RealRoots.Proofs.Json.ReadBack
import RealRoots.Proofs.Json.Texts

/-!
# Types whose values survive being stored

**Theorem (`decodesBack`).** A value of a storable type is decoded from each text it is encoded as,
and no other value has that text.

The value has to fit: its doubles are finite and its counts have 64 bits. A type is storable if a
value that fits is read back from its JSON, and this JSON has a text of its own. Both are said of
one type from what is said of its parts, so the stored format is covered field by field.

* `Storable`: the two laws, with what it means to fit.
* `decode?`, `IsTextOf`: from texts to values and back.
* `DecodesBack`: decoding undoes encoding.
-/

namespace RealRoots

/-- A stored type whose values are read back from their JSON and its texts. -/
class Storable (α : Type) [Stored α] where
  /-- Every double in the value is finite, and every count has 64 bits. -/
  Fits : α → Prop
  [decidableFits : DecidablePred Fits]
  readsBack {a : α} : Fits a → ReadsBack a
  isWritable {a : α} : Fits a → (write a).IsWritable

export Storable (Fits)

instance {α : Type} [Stored α] [Storable α] (a : α) : Decidable (Fits a) :=
  Storable.decidableFits a

/-! ## Decoding -/

/-- The value that a text encodes. -/
def decode? (α : Type) [Stored α] (text : String) : Option α :=
  (Json.parse? text).bind read?

/-- A value is encoded on one line or over several lines. -/
inductive IsTextOf {α : Type} [Stored α] (a : α) : String → Prop where
  | compact : IsTextOf a (write a).compact
  | pretty : IsTextOf a (write a).pretty

/-- Each text of a value is read as its JSON. -/
theorem IsTextOf.parse?_eq {α : Type} [Stored α] {a : α} {text : String} (h : IsTextOf a text)
    (hwritable : (write a).IsWritable) : Json.parse? text = some (write a) := by
  cases h with
  | compact => exact hwritable.parse?_compact
  | pretty => exact hwritable.parse?_pretty

/-- **Decoding undoes encoding**, so that a text encodes one value. -/
structure DecodesBack (α : Type) [Stored α] [Storable α] : Prop where
  decodes {a : α} {text : String} : Fits a → IsTextOf a text → decode? α text = some a
  unique {a b : α} {text : String} : Fits a → Fits b → IsTextOf a text → IsTextOf b text → a = b

section

variable {α : Type} [Stored α] [Storable α]

theorem read?_write_of_fits {a : α} (h : Fits a) : read? (write a) = some a :=
  Storable.readsBack h

theorem isWritable_of_fits {a : α} (h : Fits a) : (write a).IsWritable :=
  Storable.isWritable h

theorem decode?_eq {a : α} {text : String} (ha : Fits a) (h : IsTextOf a text) :
    decode? α text = some a := by
  rw [decode?, h.parse?_eq (isWritable_of_fits ha), Option.bind_some, read?_write_of_fits ha]

theorem decodesBack : DecodesBack α where
  decodes := decode?_eq
  unique ha hb hta htb :=
    Option.some_injective _ ((decode?_eq ha hta).symm.trans (decode?_eq hb htb))

end

/-! ## Parts -/

instance : Storable Float where
  Fits x := x.isFinite
  readsBack h := readsBack_float_iff.2 h
  isWritable {x} h := by
    rw [show write x = .number x from if_pos h]
    exact .number h

instance : Storable Nat where
  Fits n := n < countLimit
  readsBack _ := rfl
  isWritable h := .count h

instance : Storable Char where
  Fits _ := True
  readsBack {c} _ := by
    have htext : (String.singleton c).toList = [c] := String.toList_singleton c
    change (match (String.singleton c).toList with | [c] => some c | _ => none) = _
    rw [htext]
  isWritable _ := .string _

section

variable {α : Type} [Stored α] [Storable α]

/-- What may be absent, of a type that is not read from null. -/
@[reducible] def Storable.ofOption (hnull : read? .null = (none : Option α)) :
    Storable (Option α) where
  Fits a := ∀ b ∈ a, Fits b
  readsBack h := (readsBack_option_iff hnull).2 fun b hb => Storable.readsBack (h b hb)
  isWritable {a} h := by
    cases a with
    | none => exact .null
    | some a =>
      have ha : (write a).IsWritable := isWritable_of_fits (h a rfl)
      exact ha

instance : Storable (List α) where
  Fits items := ∀ a ∈ items, Fits a
  readsBack h := readsBack_list_iff.2 fun a ha => Storable.readsBack (h a ha)
  isWritable h := .array fun item hitem => by
    obtain ⟨a, ha, rfl⟩ := List.mem_map.1 hitem
    exact isWritable_of_fits (h a ha)

end

instance : Storable (Option Float) :=
  .ofOption rfl

/-! ## Objects -/

namespace Json

theorem isWritable_string (text : String) : (write text).IsWritable :=
  .string text

theorem isWritable_bool (b : Bool) : (write b).IsWritable :=
  .bool b

/-- A named value is written as its name. -/
theorem isWritable_spelled {α : Type} [Spelled α] (a : α) : (write a).IsWritable :=
  .string _

/-- The fields of an object are written one by one. -/
theorem isWritable_object_iff {fields : List (String × Json)} :
    (object fields).IsWritable ↔ ∀ field ∈ fields, field.2.IsWritable := by
  constructor
  · rintro ⟨⟩
    assumption
  · exact .object

theorem isWritable_tagged_iff {kind : String} {details : List (String × Json)} :
    (tagged kind details).IsWritable ↔ ∀ field ∈ details, field.2.IsWritable := by
  have hkind : (string kind).IsWritable := .string kind
  simp [tagged, isWritable_object_iff, hkind]

/-- A field that is left out when there is nothing to write. -/
theorem isWritable_present {α : Type} [Stored α] [Storable α] {name : String} {a : Option α}
    (h : ∀ b ∈ a, Fits b) :
    ∀ field ∈ (a.map fun b => (name, write b)).toList, field.2.IsWritable := by
  cases a with
  | none => nofun
  | some a =>
    rw [Option.map_some, Option.toList_some, List.forall_mem_singleton]
    exact isWritable_of_fits (h a rfl)

end Json

end RealRoots
