import Mathlib
import RealRoots.Calendar.Timestamp
import RealRoots.Proofs.Json.ReadBack
import RealRoots.Proofs.Text.Classes
import RealRoots.Proofs.Text.Digits

/-!
# Timestamps are read back

Each part of the text of a timestamp is read back by the scanner of that part, which stops where the
next part begins: a number ends at a character that is no digit.
-/

namespace RealRoots

theorem Scan.bind_of_eq {α β : Type} {p : Scan α} {cs rest : List Char} {a : α} (f : α → Scan β)
    (h : p cs = some (a, rest)) : (p >>= f) cs = f a rest := by
  change (p cs >>= fun x => f x.1 x.2) = _
  rw [h]
  rfl

theorem Scan.discard_of_eq {α : Type} {p : Scan α} {cs rest : List Char} {a : α}
    (h : p cs = some (a, rest)) : (discard p : Scan Unit) cs = some ((), rest) := by
  change (p cs >>= fun x => some ((), x.2)) = _
  rw [h]
  rfl

theorem Scan.guard_of {p : Prop} [Decidable p] (cs : List Char) (h : p) :
    (guard p : Scan Unit) cs = some ((), cs) := by
  rw [guard, if_pos h]
  rfl

theorem Scan.lift_of_eq {α : Type} {x : Option α} {a : α} (cs : List Char) (h : x = some a) :
    (liftM x : Scan α) cs = some (a, cs) := by
  rw [h]
  rfl

namespace Timestamp

open Text (EndsDigits endsDigits_cons takeWhile_digits)

/-! ## Digits -/

theorem isDigit_of_mem_padded {width n : Nat} {c : Char} (h : c ∈ padded width n) :
    Text.isDigit c := by
  rw [padded, List.mem_append] at h
  obtain h | h := h
  · obtain rfl := List.eq_of_mem_replicate h
    rfl
  · exact Text.isDigit_of_mem_toDigits h

theorem natOfDigits_padded (width n : Nat) : Text.natOfDigits (padded width n) = n := by
  rw [padded, Text.natOfDigits_zeros_append, Text.natOfDigits_toDigits]

theorem length_padded {width n : Nat} (h : n < 10 ^ width) (hwidth : 0 < width) :
    (padded width n).length = width := by
  have hle : (Nat.toDigits 10 n).length ≤ width :=
    (Nat.length_toDigits_le_iff (by decide) hwidth).2 h
  rw [padded, List.length_append, List.length_replicate]
  omega

theorem padded_ne_nil (width n : Nat) : padded width n ≠ [] := by
  simp [padded, Nat.toDigits_ne_nil]

/-! ## Scanners -/

theorem digits_append {cs rest : List Char} {most : Nat} (hdigit : ∀ c ∈ cs, Text.isDigit c)
    (hne : cs ≠ []) (hlength : cs.length ≤ most) (hrest : EndsDigits rest) :
    digits most (cs ++ rest) = some (cs, rest) := by
  have hempty : cs.isEmpty = false := by simpa using hne
  simp [digits, Scan.someOf, takeWhile_digits hdigit hrest, List.take_of_length_le hlength, hempty]

theorem digits_padded {width n most : Nat} {rest : List Char}
    (hlength : (padded width n).length ≤ most) (hrest : EndsDigits rest) :
    digits most (padded width n ++ rest) = some (padded width n, rest) :=
  digits_append (fun _ => isDigit_of_mem_padded) (padded_ne_nil width n) hlength hrest

theorem blanks_cons {c : Char} (rest : List Char) (h : Text.isBlank c = false) :
    blanks (c :: rest) = some ((), c :: rest) := by
  change some ((), (c :: rest).dropWhile Text.isBlank) = _
  rw [List.dropWhile_cons_of_neg (by simp [h])]

/-- Digits start with no sign and no blank. -/
theorem padded_eq_cons (width n : Nat) : ∃ c cs, padded width n = c :: cs ∧
    Text.isBlank c = false ∧ c ≠ '-' ∧ c ≠ '+' := by
  obtain ⟨c, cs, hcs⟩ := List.exists_cons_of_ne_nil (padded_ne_nil width n)
  have hdigit : Text.isDigit c := isDigit_of_mem_padded (hcs ▸ List.mem_cons_self)
  refine ⟨c, cs, hcs, Text.isBlank_of_isDigit hdigit, ?_, ?_⟩ <;> rintro rfl <;> cases hdigit

theorem blanks_padded (width n : Nat) (rest : List Char) :
    blanks (padded width n ++ rest) = some ((), padded width n ++ rest) := by
  obtain ⟨c, cs, hcs, hblank, -⟩ := padded_eq_cons width n
  rw [hcs]
  exact blanks_cons _ hblank

theorem mark_cons {c : Char} (rest : List Char) (h : Text.isBlank c = false) :
    mark c (c :: rest) = some ((), rest) := by
  have hone : Scan.oneOf [c] (c :: rest) = some (c, rest) := by
    simp [Scan.oneOf, Scan.satisfying]
  rw [mark, Scan.bind_of_eq _ (blanks_cons rest h), Scan.discard_of_eq hone]

/-- A number below one hundred, with a zero before it if it has one digit. -/
theorem number_padded {n : Nat} {rest : List Char} (h : n < 100) (hrest : EndsDigits rest) :
    number 2 (padded 2 n ++ rest) = some (n, rest) := by
  have hlength : (padded 2 n).length = 2 := length_padded h (by decide)
  rw [number, Scan.bind_of_eq _ (blanks_padded 2 n rest),
    Scan.bind_of_eq _ (digits_padded (Nat.le_of_eq hlength) hrest), natOfDigits_padded]
  rfl

theorem year_append (y : Int) {rest : List Char} (hrest : EndsDigits rest) :
    year (yearChars y ++ rest) = some (y, rest) := by
  have hsigned : digits (padded 4 y.natAbs ++ rest).length (padded 4 y.natAbs ++ rest) =
      some (padded 4 y.natAbs, rest) :=
    digits_padded (by simp) hrest
  unfold yearChars
  by_cases hneg : y < 0
  · rw [if_pos hneg, List.cons_append, year, Scan.bind_of_eq _ (blanks_cons _ rfl)]
    change (digits _ >>= fun digits => pure (-(Text.natOfDigits digits : Int))) _ = _
    rw [Scan.bind_of_eq _ hsigned, natOfDigits_padded]
    have hy : -(y.natAbs : Int) = y := by omega
    rw [hy]
    rfl
  · have hy : (y.natAbs : Int) = y := by omega
    rw [if_neg hneg]
    by_cases hlong : 9999 < y
    · rw [if_pos hlong, List.cons_append, year, Scan.bind_of_eq _ (blanks_cons _ rfl)]
      change (digits _ >>= fun digits => pure (Text.natOfDigits digits : Int)) _ = _
      rw [Scan.bind_of_eq _ hsigned, natOfDigits_padded, hy]
      rfl
    · have hlength : (padded 4 y.natAbs).length = 4 := length_padded (by omega) (by decide)
      have hread : digits 4 (padded 4 y.natAbs ++ rest) = some (padded 4 y.natAbs, rest) :=
        digits_padded (Nat.le_of_eq hlength) hrest
      obtain ⟨c, cs, hcs, hblank, hminus, hplus⟩ := padded_eq_cons 4 y.natAbs
      rw [if_neg hlong, year, Scan.bind_of_eq _ (blanks_padded 4 y.natAbs rest)]
      have hget : (get : Scan (List Char)) (padded 4 y.natAbs ++ rest) =
          some (padded 4 y.natAbs ++ rest, padded 4 y.natAbs ++ rest) := rfl
      rw [Scan.bind_of_eq _ hget]
      have hplain : (digits 4 >>= fun digits => pure (Text.natOfDigits digits : Int))
          (padded 4 y.natAbs ++ rest) = some (y, rest) := by
        rw [Scan.bind_of_eq _ hread, natOfDigits_padded, hy]
        rfl
      refine Eq.trans (congrFun ?_ _) hplain
      split
      · rename_i heq
        rw [hcs] at heq
        exact absurd (List.cons.inj heq).1 hminus
      · rename_i heq
        rw [hcs] at heq
        exact absurd (List.cons.inj heq).1 hplus
      · rfl

/-- The digits of a fraction, which count in units of `unit` nanoseconds. -/
theorem fraction_padded {width nanosecond unit : Nat} (hunit : unit = 10 ^ (9 - width))
    (hwidth : 0 < width) (hle : width ≤ 9) (h : nanosecond < 1000000000)
    (hdvd : nanosecond % unit = 0) :
    fraction ('.' :: padded width (nanosecond / unit) ++ ['Z']) = some (nanosecond, ['Z']) := by
  have hpow : 10 ^ width * unit = 1000000000 := by
    rw [hunit, ← Nat.pow_add, Nat.add_sub_cancel' hle]
  have hlength : (padded width (nanosecond / unit)).length = width :=
    length_padded (Nat.div_lt_of_lt_mul (by rw [Nat.mul_comm, hpow]; exact h)) hwidth
  have hread : digits (padded width (nanosecond / unit) ++ ['Z']).length
      (padded width (nanosecond / unit) ++ ['Z']) =
        some (padded width (nanosecond / unit), ['Z']) :=
    digits_padded (by simp) (endsDigits_cons _ rfl)
  rw [List.cons_append]
  change (digits _ >>= fun digits =>
    pure (Text.natOfDigits (digits.take 9) * Nat.pow 10 (9 - digits.length))) _ = _
  rw [Scan.bind_of_eq _ hread, List.take_of_length_le (Nat.le_trans (Nat.le_of_eq hlength) hle),
    natOfDigits_padded, hlength]
  have hvalue : nanosecond / unit * Nat.pow 10 (9 - width) = nanosecond := by
    change nanosecond / unit * 10 ^ (9 - width) = nanosecond
    rw [← hunit, Nat.div_mul_cancel (Nat.dvd_of_mod_eq_zero hdvd)]
  rw [hvalue]
  rfl

theorem fraction_append {nanosecond : Nat} (h : nanosecond < 1000000000) :
    fraction (fractionChars nanosecond ++ ['Z']) = some (nanosecond, ['Z']) := by
  unfold fractionChars
  split
  · rename_i hzero
    rw [hzero]
    rfl
  · split
    · exact fraction_padded rfl (by decide) (by decide) h ‹_›
    · split
      · exact fraction_padded rfl (by decide) (by decide) h ‹_›
      · have hread := @fraction_padded 9 nanosecond 1 rfl (by decide) (by decide) h (Nat.mod_one _)
        rwa [Nat.div_one] at hread

theorem endsDigits_fractionChars (nanosecond : Nat) :
    EndsDigits (fractionChars nanosecond ++ ['Z']) := by
  unfold fractionChars
  split
  · exact endsDigits_cons _ rfl
  · split
    · exact endsDigits_cons _ rfl
    · split <;> exact endsDigits_cons _ rfl

theorem offset_zulu : offset ['Z'] = some (0, []) := by
  rfl

/-- At no offset the parts are those of universal time. -/
theorem of?_self (t : Timestamp) :
    of? t.date (60 * t.hour + t.minute) t.second t.nanosecond = some t := by
  have hour := t.hour_lt
  have minute := t.minute_lt
  have hrange : 60 * t.hour + t.minute < 24 * 60 ∧ t.second ≤ 60 ∧ t.nanosecond < 1000000000 :=
    ⟨by omega, t.second_le, t.nanosecond_lt⟩
  have hhour : (60 * t.hour + t.minute) / 60 = t.hour := by omega
  have hminute : (60 * t.hour + t.minute) % 60 = t.minute := by omega
  rw [of?, dif_pos hrange]
  simp only [hhour, hminute]

theorem toUniversal?_zero (date : Date) {minutes : Nat} (h : minutes < 24 * 60) :
    toUniversal? date minutes 0 = some (date, minutes) := by
  have hlow : ¬ (minutes : Int) - 0 < 0 := by omega
  have hhigh : ¬ (24 * 60 : Int) ≤ (minutes : Int) - 0 := by omega
  simp only [toUniversal?, if_neg hlow, if_neg hhigh]
  simp

theorem daysInMonth_le (year : Int) (month : Nat) : daysInMonth year month ≤ 31 := by
  unfold daysInMonth
  split
  · split <;> decide
  · split <;> decide

theorem scan_text (t : Timestamp) : scan t.text.toList = some (t, []) := by
  have hmonth := t.date.month_mem
  have hday := t.date.day_mem
  have hdays := daysInMonth_le t.date.year t.date.month
  have hhour := t.hour_lt
  have hminute := t.minute_lt
  have hsecond := t.second_le
  have hend : blanks [] = some ((), []) := rfl
  simp only [text, String.toList_ofList, List.append_assoc, List.cons_append]
  rw [scan, Scan.bind_of_eq _ (year_append _ (endsDigits_cons _ rfl)),
    Scan.bind_of_eq _ (mark_cons _ rfl),
    Scan.bind_of_eq _ (number_padded (by omega) (endsDigits_cons _ rfl)),
    Scan.bind_of_eq _ (mark_cons _ rfl),
    Scan.bind_of_eq _ (number_padded (by omega) (endsDigits_cons _ rfl)),
    Scan.bind_of_eq _ (Scan.discard_of_eq (a := 'T') rfl),
    Scan.bind_of_eq _ (number_padded (by omega) (endsDigits_cons _ rfl)),
    Scan.bind_of_eq _ (mark_cons _ rfl),
    Scan.bind_of_eq _ (number_padded (by omega) (endsDigits_cons _ rfl)),
    Scan.bind_of_eq _ (mark_cons _ rfl),
    Scan.bind_of_eq _ (number_padded (by omega) (endsDigits_fractionChars _)),
    Scan.bind_of_eq _ (fraction_append t.nanosecond_lt), Scan.bind_of_eq _ (blanks_cons _ rfl),
    Scan.bind_of_eq _ offset_zulu, Scan.bind_of_eq _ hend,
    Scan.bind_of_eq _ (Scan.guard_of _ ⟨hhour, hminute⟩),
    Scan.bind_of_eq _ (Scan.lift_of_eq _ t.date.of?_self),
    Scan.bind_of_eq _ (Scan.lift_of_eq _ (toUniversal?_zero _ (by omega)))]
  exact Scan.lift_of_eq _ t.of?_self

/-- **A timestamp is read back.** -/
theorem readsBack (t : Timestamp) : ReadsBack t := by
  change ofText? t.text = some t
  rw [ofText?, Scan.whole?, scan_text]

end Timestamp

end RealRoots
