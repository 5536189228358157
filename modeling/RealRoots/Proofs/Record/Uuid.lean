import Mathlib
import RealRoots.Proofs.Json.ReadBack
import RealRoots.Record.Uuid

/-!
# Identifiers are read back

The text of an identifier is no list of digits alone, because it has hyphens. Without them it has
the digits of the identifier.
-/

namespace RealRoots.Uuid

theorem digit?_digitChar (d : Fin 16) : digit? (Nat.digitChar d.val) = some d := by
  revert d
  decide

theorem ofDigits?_map_digitChar (id : Uuid) :
    ofDigits? (id.digits.map fun d => Nat.digitChar d.val) = some id := by
  have hdigits (digits : List (Fin 16)) :
      (digits.map fun d => Nat.digitChar d.val).mapM digit? = some digits := by
    induction digits with
    | nil => rfl
    | cons d digits ih => simp [List.mapM_cons, digit?_digitChar, ih]
  simp [ofDigits?, hdigits, id.length_digits]

/-- A hyphen is no digit. -/
theorem ofDigits?_of_mem {cs : List Char} (h : '-' ∈ cs) : ofDigits? cs = none := by
  have hnone : cs.mapM digit? = none := by
    induction cs with
    | nil => cases h
    | cons c cs ih =>
      rw [List.mapM_cons]
      obtain rfl | h := List.mem_cons.1 h
      · rfl
      · cases digit? c <;> simp [ih h]
  rw [ofDigits?, hnone]
  rfl

/-- The hyphens between groups that are full are found again. -/
theorem withoutHyphens?_withHyphens {sizes : List Nat} {cs : List Char}
    (h : sizes.sum ≤ cs.length) : withoutHyphens? sizes (withHyphens sizes cs) = some cs := by
  fun_induction withHyphens sizes cs with
  | case1 size next sizes cs ih =>
    rw [List.sum_cons] at h
    have htake : (cs.take size).length = size := List.length_take_of_le (by omega)
    have hrest : (next :: sizes).sum ≤ (cs.drop size).length := by
      rw [List.length_drop]
      omega
    rw [withoutHyphens?, List.drop_left' htake, List.take_left' htake]
    simp only [ih hrest, Option.map_some, List.take_append_drop]
  | case2 sizes cs hone => rw [withoutHyphens?]; exact hone

/-- **An identifier is read back.** -/
theorem readsBack (id : Uuid) : ReadsBack id := by
  have hlong : groups.sum ≤ (id.digits.map fun d => Nat.digitChar d.val).length := by
    rw [List.length_map, id.length_digits]
    decide
  have hhyphen : '-' ∈ withHyphens groups (id.digits.map fun d => Nat.digitChar d.val) := by
    simp [groups, withHyphens]
  have htext : ofText? id.text = some id := by
    simp only [ofText?, text, String.toList_ofList]
    rw [ofDigits?_of_mem hhyphen, Option.none_or, ofGroups?, withoutHyphens?_withHyphens hlong,
      Option.bind_some, ofDigits?_map_digitChar, Option.some_or]
  exact htext

end RealRoots.Uuid
