import RealRoots.Text.Alphabet
import RealRoots.Text.Blank

/-!
# Character classes that have nothing in common

The first character of a text decides what kind of token starts there, because blanks, digits and
letters are different characters. Each class is a list of ranges, so it is enough to look at the
ends of the ranges.
-/

namespace RealRoots.Text

/-- No range of the one list meets one of the other. -/
def areApart (ranges others : List (Nat × Nat)) : Bool :=
  ranges.all fun r => others.all fun s => r.2 < s.1 || s.2 < r.1

theorem inRanges_eq_false {ranges others : List (Nat × Nat)} (h : areApart ranges others) {c : Char}
    (hc : inRanges ranges c) : inRanges others c = false := by
  simp only [inRanges, List.any_eq_true, List.any_eq_false, Bool.and_eq_true, decide_eq_true_eq]
    at hc ⊢
  obtain ⟨r, hr, hlow, hhigh⟩ := hc
  intro s hs
  have hrs := List.all_eq_true.1 (List.all_eq_true.1 h r hr) s hs
  simp only [Bool.or_eq_true, decide_eq_true_eq] at hrs
  omega

theorem startsName_eq_false {ranges : List (Nat × Nat)} (hletter : areApart ranges letterRanges)
    (hunderscore : inRanges ranges '_' = false) {c : Char} (hc : inRanges ranges c) :
    startsName c = false := by
  have hne : c ≠ '_' := by
    rintro rfl
    simp [hunderscore] at hc
  simp [startsName, show isLetter c = false from inRanges_eq_false hletter hc, hne]

theorem startsName_of_isDigit {c : Char} (h : isDigit c) : startsName c = false :=
  startsName_eq_false (by decide +kernel) (by decide) h

theorem isBlank_of_isDigit {c : Char} (h : isDigit c) : isBlank c = false :=
  inRanges_eq_false (by decide) h

theorem isBlank_of_continuesName {c : Char} (h : continuesName c) : isBlank c = false := by
  rw [continuesName, Bool.or_eq_true, Bool.or_eq_true, beq_iff_eq] at h
  obtain (h | h) | rfl := h
  · exact inRanges_eq_false (by decide +kernel) h
  · exact inRanges_eq_false (by decide +kernel) h
  · rfl

theorem isBlank_of_startsName {c : Char} (h : startsName c) : isBlank c = false :=
  isBlank_of_continuesName (continuesName_of_startsName h)

end RealRoots.Text
