import Mathlib
import RealRoots.Text.Range

/-!
# Digits are read back

The digits of a number spell it, and a run of digits ends where the text goes on with another
character.
-/

namespace RealRoots.Text

/-! ## The digits of a number -/

theorem isDigit_of_mem_toDigits {n : Nat} {c : Char} (h : c ∈ Nat.toDigits 10 n) : isDigit c := by
  have hdigit : c.isDigit := Nat.isDigit_of_mem_toDigits (by decide) (by decide) h
  simpa [isDigit, inRanges, Char.isDigit, UInt32.le_iff_toNat_le] using hdigit

theorem natOfDigits_toDigits (n : Nat) : natOfDigits (Nat.toDigits 10 n) = n :=
  Nat.ofDigitChars_ten_toDigits

theorem natOfDigits_cons (c : Char) (cs : List Char) :
    natOfDigits (c :: cs) = 10 ^ cs.length * digitValue c + natOfDigits cs := by
  change Nat.ofDigitChars 10 (c :: cs) 0 = _ + Nat.ofDigitChars 10 cs 0
  rw [Nat.ofDigitChars_cons, Nat.ofDigitChars_eq_ofDigitChars_zero, Nat.mul_zero, Nat.zero_add]
  rfl

/-- Zeros at the front count for nothing. -/
theorem natOfDigits_zeros_append (count : Nat) (cs : List Char) :
    natOfDigits (List.replicate count '0' ++ cs) = natOfDigits cs := by
  change Nat.ofDigitChars 10 (List.replicate count '0' ++ cs) 0 = Nat.ofDigitChars 10 cs 0
  rw [Nat.ofDigitChars_append, Nat.ofDigitChars_replicate_zero, Nat.mul_zero]

/-- Zeros at the end are factors of ten. -/
theorem natOfDigits_append_zeros (cs : List Char) (count : Nat) :
    natOfDigits (cs ++ List.replicate count '0') = 10 ^ count * natOfDigits cs := by
  change Nat.ofDigitChars 10 (cs ++ List.replicate count '0') 0 = _ * Nat.ofDigitChars 10 cs 0
  rw [Nat.ofDigitChars_append, Nat.ofDigitChars_replicate_zero]

theorem natOfDigits_lt {cs : List Char} (h : ∀ c ∈ cs, isDigit c) :
    natOfDigits cs < 10 ^ cs.length := by
  induction cs with
  | nil => exact Nat.one_pos
  | cons c cs ih =>
    rw [List.forall_mem_cons] at h
    have hvalue : digitValue c ≤ 9 := by
      have := h.1
      simp only [isDigit, inRanges, List.any_cons, List.any_nil, Bool.or_false, Bool.and_eq_true,
        decide_eq_true_eq] at this
      rw [digitValue]
      omega
    have hscaled := Nat.mul_le_mul_left (10 ^ cs.length) hvalue
    have := ih h.2
    rw [natOfDigits_cons, List.length_cons, Nat.pow_succ]
    omega

theorem lt_pow_length_toDigits (n : Nat) : n < 10 ^ (Nat.toDigits 10 n).length := by
  have hlt := natOfDigits_lt fun c (hc : c ∈ Nat.toDigits 10 n) => isDigit_of_mem_toDigits hc
  rwa [natOfDigits_toDigits] at hlt

/-- The digits of a number above zero do not start with a zero. -/
theorem head_toDigits_ne_zero {n : Nat} (h : n ≠ 0) : (Nat.toDigits 10 n).head? ≠ some '0' := by
  intro hhead
  obtain ⟨cs, hcs⟩ := List.head?_eq_some_iff.1 hhead
  have hvalue := natOfDigits_toDigits n
  have hlt : natOfDigits cs < 10 ^ cs.length :=
    natOfDigits_lt fun c hc => isDigit_of_mem_toDigits (hcs ▸ List.mem_cons_of_mem _ hc)
  rw [hcs, natOfDigits_cons] at hvalue
  have hzero : digitValue '0' = 0 := rfl
  rw [hzero, Nat.mul_zero, Nat.zero_add] at hvalue
  -- The other digits alone would be enough for the number.
  cases cs with
  | nil => exact h hvalue.symm
  | cons d cs =>
    have hlength := (Nat.length_toDigits_le_iff (by decide) (Nat.succ_pos cs.length)).2
      (hvalue ▸ hlt)
    rw [hcs, List.length_cons, List.length_cons] at hlength
    omega

/-! ## Runs -/

section

variable {p : Char → Bool} {cs rest : List Char} (hrun : ∀ c ∈ cs, p c)
  (hrest : ∀ c ∈ rest.head?, p c = false)

include hrun hrest

/-- A run ends where the text goes on with another character. -/
theorem takeWhile_run : (cs ++ rest).takeWhile p = cs := by
  rw [List.takeWhile_append_of_pos hrun, List.append_right_eq_self]
  cases rest with
  | nil => rfl
  | cons c rest => exact List.takeWhile_cons_of_neg (by simp [hrest c rfl])

theorem dropWhile_run : (cs ++ rest).dropWhile p = rest := by
  have happend : (cs ++ rest).takeWhile p ++ (cs ++ rest).dropWhile p = cs ++ rest :=
    List.takeWhile_append_dropWhile
  rw [takeWhile_run hrun hrest] at happend
  exact List.append_cancel_left happend

end

/-- The text goes on with a character that is no digit, if it goes on. -/
def EndsDigits (rest : List Char) : Prop :=
  ∀ c ∈ rest.head?, ¬ isDigit c

theorem endsDigits_cons {c : Char} (rest : List Char) (h : isDigit c = false) :
    EndsDigits (c :: rest) := by
  simp [EndsDigits, h]

section

variable {cs rest : List Char}

theorem EndsDigits.isDigit_eq_false (h : EndsDigits rest) :
    ∀ c ∈ rest.head?, isDigit c = false :=
  fun c hc => Bool.eq_false_iff.2 (h c hc)

theorem takeWhile_digits (hdigit : ∀ c ∈ cs, isDigit c) (hrest : EndsDigits rest) :
    (cs ++ rest).takeWhile isDigit = cs :=
  takeWhile_run hdigit hrest.isDigit_eq_false

theorem dropWhile_digits (hdigit : ∀ c ∈ cs, isDigit c) (hrest : EndsDigits rest) :
    (cs ++ rest).dropWhile isDigit = rest :=
  dropWhile_run hdigit hrest.isDigit_eq_false

theorem takeWhile_of_ends (hrest : EndsDigits rest) : rest.takeWhile isDigit = [] :=
  takeWhile_digits (List.forall_mem_nil _) hrest

theorem dropWhile_of_ends (hrest : EndsDigits rest) : rest.dropWhile isDigit = rest :=
  dropWhile_digits (List.forall_mem_nil _) hrest

end

end RealRoots.Text
