import RealRoots.Proofs.Number.Doubles

/-!
# The order of doubles

A double that is a number has a rank in a linear order: first the side of zero and whether it is
infinite, then its exponent, then its mantissa (`rank?`). Doubles compare as their ranks do, and a
NaN compares with nothing, so what holds of a linear order holds of doubles that compare.
-/

namespace RealRoots

open Float.Model Float.Model.UnpackedFloat

/-- The rank of a double, by its parts. Both zeros have one rank. -/
def rank? : UnpackedFloat → Option (ℤ ×ₗ ℤ ×ₗ ℤ)
  | .notANumber => none
  | .infinity .negative => some (toLex (-2, toLex (0, 0)))
  | .finite .negative m e _ => some (toLex (-1, toLex (-e, -m)))
  | .zero _ => some (toLex (0, toLex (0, 0)))
  | .finite .positive m e _ => some (toLex (1, toLex (e, m)))
  | .infinity .positive => some (toLex (2, toLex (0, 0)))

theorem lt_iff_rank {u v : UnpackedFloat} :
    u.lt v = true ↔ ∃ a b, rank? u = some a ∧ rank? v = some b ∧ a < b := by
  rcases u with (_ | _) | _ | _ | ⟨_ | _, m, e, hm⟩ <;>
    rcases v with (_ | _) | _ | _ | ⟨_ | _, n, e', hn⟩ <;>
    simp [UnpackedFloat.lt, UnpackedFloat.compare, rank?, Prod.Lex.toLex_lt_toLex,
      Ordering.then_eq_lt, Ordering.then_eq_gt, Int.compare_eq_lt, Int.compare_eq_gt,
      Nat.compare_eq_lt, Nat.compare_eq_gt]
  -- What is left compares the signs of two infinities.
  rfl

theorem le_iff_rank {u v : UnpackedFloat} :
    u.le v = true ↔ ∃ a b, rank? u = some a ∧ rank? v = some b ∧ a ≤ b := by
  rcases u with (_ | _) | _ | _ | ⟨_ | _, m, e, hm⟩ <;>
    rcases v with (_ | _) | _ | _ | ⟨_ | _, n, e', hn⟩ <;>
    simp [UnpackedFloat.le, UnpackedFloat.compare, rank?, Prod.Lex.toLex_le_toLex,
      Ordering.isLE_then_iff_or, Ordering.swap_then, Int.compare_swap, Nat.compare_swap,
      Int.compare_eq_lt, Nat.isLE_compare, -Ordering.isLE_swap]
  case finite.negative.finite.negative => rw [eq_comm (a := e')]
  all_goals rfl

theorem beq_iff_rank {u v : UnpackedFloat} :
    u.beq v = true ↔ ∃ a, rank? u = some a ∧ rank? v = some a := by
  rcases u with (_ | _) | _ | _ | ⟨_ | _, m, e, hm⟩ <;>
    rcases v with (_ | _) | _ | _ | ⟨_ | _, n, e', hn⟩ <;>
    simp [UnpackedFloat.beq, UnpackedFloat.compare, rank?, Ordering.then_eq_eq]
  case finite.negative.finite.negative => omega
  case finite.positive.finite.positive => omega
  all_goals rfl

theorem not_lt_self (x : Float) : ¬ x < x := by
  rw [lt_iff, lt_iff_rank]
  rintro ⟨a, b, ha, hb, hlt⟩
  exact hlt.ne (Option.some.inj (ha.symm.trans hb))

theorem beq_of_le_of_ge {x y : Float} (h : x ≤ y) (h' : y ≤ x) : x == y := by
  rw [le_iff, le_iff_rank] at h h'
  obtain ⟨a, b, ha, hb, hle⟩ := h
  obtain ⟨b', a', hb', ha', hge⟩ := h'
  obtain rfl : a = a' := Option.some.inj (ha.symm.trans ha')
  obtain rfl : b = b' := Option.some.inj (hb.symm.trans hb')
  rw [beq_iff, beq_iff_rank]
  exact ⟨a, ha, le_antisymm hle hge ▸ hb⟩

/-- What is below a double is below all that are no smaller. -/
theorem lt_of_lt_of_le {x y z : Float} (h : x < y) (h' : y ≤ z) : x < z := by
  rw [lt_iff, lt_iff_rank] at h ⊢
  rw [le_iff, le_iff_rank] at h'
  obtain ⟨a, b, hx, hy, hlt⟩ := h
  obtain ⟨b', c, hy', hz, hle⟩ := h'
  obtain rfl : b = b' := Option.some.inj (hy.symm.trans hy')
  exact ⟨a, c, hx, hz, hlt.trans_le hle⟩

theorem not_lt_of_le {x y : Float} (h : y ≤ x) : ¬ x < y :=
  fun hlt => not_lt_self x (lt_of_lt_of_le hlt h)

/-! ## Doubles that are numbers -/

theorem not_isNaN_of_rank? {x : Float} {r : ℤ ×ₗ ℤ ×ₗ ℤ} (h : rank? x.toModel.unpack = some r) :
    ¬ x.isNaN := by
  change ¬ x.toModel.unpack.isNaN
  cases hx : x.toModel.unpack <;> rw [hx] at h
  case notANumber => cases h
  all_goals exact nofun

theorem not_isNaN_of_isFinite {x : Float} (h : x.isFinite) : ¬ x.isNaN := by
  change x.toModel.unpack.isFinite at h
  change ¬ x.toModel.unpack.isNaN
  cases hx : x.toModel.unpack <;> rw [hx] at h
  case notANumber => cases h
  all_goals exact nofun

theorem not_isNaN_of_le {x y : Float} (h : x ≤ y) : ¬ x.isNaN ∧ ¬ y.isNaN := by
  obtain ⟨a, b, ha, hb, -⟩ := le_iff_rank.1 (le_iff.1 h)
  exact ⟨not_isNaN_of_rank? ha, not_isNaN_of_rank? hb⟩

theorem isInf_of_not_isFinite {x : Float} (h : ¬ x.isFinite) (hnan : ¬ x.isNaN) : x.isInf := by
  change x.toModel.unpack.isInf
  change ¬ x.toModel.unpack.isNaN at hnan
  obtain hx | ⟨s, hx⟩ := not_isFinite_iff.1 h <;> rw [hx] at hnan ⊢
  · exact absurd rfl hnan
  · rfl

/-! ## Ranks of doubles -/

/-- The rank of a double. That of a NaN is arbitrary. -/
def rank (x : Float) : ℤ ×ₗ ℤ ×ₗ ℤ :=
  (rank? x.toModel.unpack).getD (toLex (0, toLex (0, 0)))

theorem rank?_eq {x : Float} (h : ¬ x.isNaN) : rank? x.toModel.unpack = some (rank x) := by
  change ¬ x.toModel.unpack.isNaN at h
  unfold rank
  cases hx : x.toModel.unpack with
  | notANumber =>
    rw [hx] at h
    exact absurd rfl h
  | infinity s | finite s => cases s <;> rfl
  | zero => rfl

section

variable {x y : Float} (hx : ¬ x.isNaN) (hy : ¬ y.isNaN)
include hx hy

theorem lt_iff_rank_lt : x < y ↔ rank x < rank y := by
  rw [lt_iff, lt_iff_rank, rank?_eq hx, rank?_eq hy]
  simp

end

end RealRoots
