import Mathlib
import RealRoots.Number.Literal
import RealRoots.Proofs.Text.Digits

/-!
# Literals are scanned as a whole

A literal is well formed if its parts are digits, there are some, and an exponent has a mark,
perhaps a sign, and digits of its own. The scanner takes well-formed literals, and always the
longest one.

* `Literal.wellFormed_scan`: what the scanner takes is well formed, if it has digits.
* `Literal.length_scan_append_le`: it takes at least the literal that the text starts with.
* `Literal.scan_spelling_append`: it takes no more where nothing follows that a number goes on with.
* `Literal.readFloat?_spelling`: the whole text of a literal is read as the double it stands for.
-/

namespace RealRoots

open Text (EndsDigits endsDigits_cons takeWhile_digits dropWhile_digits)

/-- Nothing follows that a number could go on with. -/
def EndsNumber (rest : List Char) : Prop :=
  ∀ c, rest.head? = some c → Text.isDigit c = false ∧ c ≠ '.' ∧ c ≠ 'e' ∧ c ≠ 'E'

theorem EndsNumber.endsDigits {rest : List Char} (h : EndsNumber rest) : EndsDigits rest := by
  intro c hc
  simp [(h c hc).1]

theorem endsNumber_nil : EndsNumber [] := by
  simp [EndsNumber]

/-! ## Exponents -/

namespace Exponent

/-- A mark, perhaps a sign, and digits. -/
structure WellFormed (e : Exponent) : Prop where
  mark : e.mark = 'e' ∨ e.mark = 'E'
  sign : ∀ s ∈ e.sign, s = '+' ∨ s = '-'
  nonempty : e.digits ≠ []
  digits : ∀ c ∈ e.digits, Text.isDigit c

theorem WellFormed.isDigit_mark {e : Exponent} (h : e.WellFormed) :
    Text.isDigit e.mark = false := by
  obtain hmark | hmark := h.mark <;> rw [hmark] <;> decide

theorem WellFormed.mark_ne {e : Exponent} (h : e.WellFormed) : e.mark ≠ '.' := by
  obtain hmark | hmark := h.mark <;> rw [hmark] <;> decide

theorem scan_none {rest : List Char} (h : EndsNumber rest) : scan rest = (none, rest) := by
  cases rest with
  | nil => rfl
  | cons c rest =>
    obtain ⟨-, -, he, hE⟩ := h c rfl
    simp [scan, he, hE]

/-- An exponent takes all the digits that follow. -/
theorem scan_append {e : Exponent} (h : e.WellFormed) (rest : List Char) :
    scan (e.spelling ++ rest) =
      (some { e with digits := e.digits ++ rest.takeWhile Text.isDigit },
        rest.dropWhile Text.isDigit) := by
  obtain ⟨mark, sign, digits⟩ := e
  obtain ⟨hmark, hsign, hne, hdigits⟩ := h
  have htake : (digits ++ rest).takeWhile Text.isDigit = digits ++ rest.takeWhile Text.isDigit :=
    List.takeWhile_append_of_pos hdigits
  have hdrop : (digits ++ rest).dropWhile Text.isDigit = rest.dropWhile Text.isDigit :=
    List.dropWhile_append_of_pos hdigits
  obtain ⟨d, ds, rfl⟩ := List.exists_cons_of_ne_nil hne
  have hd : Text.isDigit d := hdigits d List.mem_cons_self
  have hmark : (mark == 'e' || mark == 'E') = true := by
    simpa using hmark
  cases sign with
  | none =>
    have hplus : d ≠ '+' := by rintro rfl; cases hd
    have hminus : d ≠ '-' := by rintro rfl; cases hd
    simp only [spelling, Option.toList_none, List.cons_append, List.nil_append] at htake hdrop ⊢
    simp [scan, hplus, hminus, htake, hdrop, hmark]
  | some s =>
    have hs : (s == '+' || s == '-') = true := by
      simpa using hsign s rfl
    simp only [spelling, Option.toList_some, List.cons_append, List.nil_append] at htake hdrop ⊢
    simp [scan, htake, hdrop, hmark, hs]

theorem scan_spelling_append {e : Exponent} (h : e.WellFormed) {rest : List Char}
    (hrest : EndsDigits rest) : scan (e.spelling ++ rest) = (some e, rest) := by
  rw [scan_append h, Text.takeWhile_of_ends hrest, Text.dropWhile_of_ends hrest, List.append_nil]

theorem length_scan_le (cs : List Char) : (scan cs).2.length ≤ cs.length := by
  have h := congrArg List.length (scan_spelling cs)
  rw [List.length_append] at h
  omega

theorem wellFormed_scan {cs : List Char} {e : Exponent} (h : (scan cs).1 = some e) :
    e.WellFormed := by
  revert h
  fun_cases scan cs with
  | case1 mark rest sign tail heq digits hdigits =>
    rw [Bool.and_eq_true] at hdigits
    obtain ⟨hmark, hne⟩ := hdigits
    rintro ⟨⟩
    refine ⟨by simpa using hmark, ?_, by simpa using hne, ?_⟩
    · intro s hs
      cases rest with
      | nil =>
        cases heq
        cases hs
      | cons c rest =>
        simp only at heq
        split at heq
        · cases heq
          cases hs
          rename_i hsign
          simpa using hsign
        · cases heq
          cases hs
    · exact fun c hc => List.mem_takeWhile_imp hc
  | case2 => intro h; cases h
  | case3 => intro h; cases h

end Exponent

/-! ## Literals -/

namespace Literal

/-- Digits with perhaps a point among them or at either end, and perhaps an exponent. -/
structure WellFormed (l : Literal) : Prop where
  whole : ∀ c ∈ l.whole, Text.isDigit c
  fraction : ∀ ds ∈ l.fraction, ∀ c ∈ ds, Text.isDigit c
  exponent : ∀ e ∈ l.exponent, e.WellFormed
  hasDigits : l.hasDigits

/-- The text of the exponent, if there is one. -/
def exponentChars (l : Literal) : List Char :=
  (l.exponent.map Exponent.spelling).getD []

/-- The text of the point and what follows it. -/
def tailChars (l : Literal) : List Char :=
  (l.fraction.map ('.' :: ·)).getD [] ++ l.exponentChars

theorem scanFraction_of_head {cs : List Char} (h : cs.head? ≠ some '.') :
    scanFraction cs = (none, cs) := by
  rw [scanFraction]
  rintro rest rfl
  exact h rfl

theorem length_scanFraction_le (cs : List Char) : (scanFraction cs).2.length ≤ cs.length := by
  have h := congrArg List.length (scanFraction_spelling cs)
  rw [List.length_append] at h
  omega

theorem spelling_append (l : Literal) (rest : List Char) :
    l.spelling ++ rest = l.whole ++ (l.tailChars ++ rest) := by
  rw [spelling, tailChars, exponentChars]
  simp only [List.append_assoc]

section

variable {l : Literal} (h : l.WellFormed) {rest : List Char}

include h

/-- A literal starts with a digit, or with a point and a digit. -/
theorem head_spelling : ∃ c cs, l.spelling = c :: cs ∧
    (Text.isDigit c ∨ c = '.' ∧ ∃ d ds, cs = d :: ds ∧ Text.isDigit d) := by
  have hspelling := l.spelling_append []
  rw [List.append_nil, List.append_nil] at hspelling
  cases hwhole : l.whole with
  | cons c cs =>
    rw [hwhole] at hspelling
    exact ⟨c, cs ++ l.tailChars, hspelling, .inl (h.whole c (hwhole ▸ List.mem_cons_self))⟩
  | nil =>
    have hdigits := h.hasDigits
    rw [hwhole, List.nil_append, tailChars] at hspelling
    cases hfraction : l.fraction with
    | none => simp [hasDigits, hwhole, hfraction] at hdigits
    | some ds =>
      cases ds with
      | nil => simp [hasDigits, hwhole, hfraction] at hdigits
      | cons d ds =>
        rw [hfraction] at hspelling
        exact ⟨'.', _, hspelling, .inr ⟨rfl, d, _, rfl,
          h.fraction _ hfraction d List.mem_cons_self⟩⟩

theorem endsDigits_exponentChars_of_some {e : Exponent} (he : l.exponent = some e) :
    EndsDigits (l.exponentChars ++ rest) := by
  rw [exponentChars, he]
  exact endsDigits_cons _ (h.exponent e he).isDigit_mark

theorem head?_exponentChars_of_some {e : Exponent} (he : l.exponent = some e) :
    (l.exponentChars ++ rest).head? ≠ some '.' := by
  intro hc
  rw [exponentChars, he] at hc
  exact (h.exponent e he).mark_ne (Option.some.inj hc)

/-- After the digits of a fraction at most the rest is left. -/
theorem length_scan_exponentChars_le :
    (Exponent.scan ((l.exponentChars ++ rest).dropWhile Text.isDigit)).2.length ≤
      rest.length := by
  cases he : l.exponent with
  | none =>
    rw [exponentChars, he]
    exact (Exponent.length_scan_le _).trans (List.dropWhile_suffix _).length_le
  | some e =>
    rw [Text.dropWhile_of_ends (endsDigits_exponentChars_of_some h he), exponentChars, he,
      Option.map_some, Option.getD_some, Exponent.scan_append (h.exponent e he)]
    exact (List.dropWhile_suffix _).length_le

/-- **The scanner takes at least the literal that the text starts with.** -/
theorem length_scan_append_le : (scan (l.spelling ++ rest)).2.length ≤ rest.length := by
  have hdigits : (Exponent.scan ((l.exponentChars ++ rest).dropWhile Text.isDigit)).2.length ≤
      rest.length := length_scan_exponentChars_le h
  rw [spelling_append, scan, List.dropWhile_append_of_pos h.whole]
  cases hfraction : l.fraction with
  | some ds =>
    have htail : (l.tailChars ++ rest).dropWhile Text.isDigit =
        '.' :: (ds ++ (l.exponentChars ++ rest)) := by
      rw [tailChars, hfraction]
      simp [show Text.isDigit '.' = false by decide]
    rw [htail, scanFraction, List.dropWhile_append_of_pos (h.fraction ds hfraction)]
    exact hdigits
  | none =>
    have htail : l.tailChars = l.exponentChars := by
      rw [tailChars, hfraction]
      rfl
    rw [htail]
    cases he : l.exponent with
    | none =>
      have hempty : l.exponentChars = [] := by
        rw [exponentChars, he]
        rfl
      rw [hempty, List.nil_append]
      calc
        _ ≤ _ := Exponent.length_scan_le _
        _ ≤ _ := length_scanFraction_le _
        _ ≤ rest.length := (List.dropWhile_suffix _).length_le
    | some e =>
      -- The mark is no point, so the exponent is what is scanned next.
      have hdrop : (l.exponentChars ++ rest).dropWhile Text.isDigit = l.exponentChars ++ rest :=
        Text.dropWhile_of_ends (endsDigits_exponentChars_of_some h he)
      rw [hdrop] at hdigits
      rw [hdrop, scanFraction_of_head (head?_exponentChars_of_some h he)]
      exact hdigits

section

variable (hrest : EndsNumber rest)

include hrest

theorem endsDigits_exponentChars : EndsDigits (l.exponentChars ++ rest) := by
  cases he : l.exponent with
  | none =>
    rw [exponentChars, he]
    exact hrest.endsDigits
  | some e => exact endsDigits_exponentChars_of_some h he

theorem endsDigits_tailChars : EndsDigits (l.tailChars ++ rest) := by
  rw [tailChars]
  cases l.fraction with
  | none => exact endsDigits_exponentChars h hrest
  | some ds => exact endsDigits_cons _ rfl

theorem scan_exponentChars : Exponent.scan (l.exponentChars ++ rest) = (l.exponent, rest) := by
  rw [exponentChars]
  cases he : l.exponent with
  | none => exact Exponent.scan_none hrest
  | some e => exact Exponent.scan_spelling_append (h.exponent e he) hrest.endsDigits

theorem scanFraction_tailChars :
    scanFraction (l.tailChars ++ rest) = (l.fraction, l.exponentChars ++ rest) := by
  rw [tailChars, List.append_assoc]
  cases hf : l.fraction with
  | none =>
    rw [Option.map_none, Option.getD_none, List.nil_append]
    apply scanFraction_of_head
    cases he : l.exponent with
    | none =>
      rw [exponentChars, he]
      exact fun hc => (hrest _ hc).2.1 rfl
    | some e => exact head?_exponentChars_of_some h he
  | some ds =>
    have hends := endsDigits_exponentChars h hrest
    rw [Option.map_some, Option.getD_some, List.cons_append, scanFraction,
      takeWhile_digits (h.fraction ds hf) hends, dropWhile_digits (h.fraction ds hf) hends]

/-- **A literal is scanned from its spelling.** -/
theorem scan_spelling_append : scan (l.spelling ++ rest) = (l, rest) := by
  have hends := endsDigits_tailChars h hrest
  rw [spelling_append, scan, takeWhile_digits h.whole hends, dropWhile_digits h.whole hends]
  simp only [scanFraction_tailChars h hrest, scan_exponentChars h hrest]

end

end

/-- What is scanned is well formed, but for a point without digits. -/
theorem wellFormed_scan {cs : List Char} (h : (scan cs).1.hasDigits) : (scan cs).1.WellFormed where
  whole _ hc := List.mem_takeWhile_imp hc
  fraction ds hds c hc := by
    change (scanFraction (cs.dropWhile Text.isDigit)).1 = some ds at hds
    unfold scanFraction at hds
    split at hds
    · cases hds
      exact List.mem_takeWhile_imp hc
    · cases hds
  exponent _ he := Exponent.wellFormed_scan he
  hasDigits := h

/-! ## Reading a literal -/

theorem toLower_of_isDigit {c : Char} (h : Text.isDigit c) : c.toLower = c := by
  have hrange : 0x30 ≤ c.toNat ∧ c.toNat ≤ 0x39 := by
    simpa [Text.isDigit, Text.inRanges] using h
  have hupper : ¬ (c.val ≥ 'A'.val ∧ c.val ≤ 'Z'.val) := by
    intro hc
    have : 0x41 ≤ c.toNat := UInt32.le_iff_toNat_le.1 hc.1
    omega
  rw [Char.toLower, dif_neg hupper]

/-- A literal is no name for infinity or NaN. -/
theorem toLower_spelling_ne {l : Literal} (h : l.WellFormed) (name : String)
    (hname : ∀ c ∈ name.toList.head?, Text.isDigit c = false ∧ c ≠ '.') :
    String.ofList (l.spelling.map Char.toLower) ≠ name := by
  rintro rfl
  obtain ⟨c, cs, hspelling, hc⟩ := head_spelling h
  have hlower : c.toLower = c := by
    obtain hc | ⟨rfl, -⟩ := hc
    · exact toLower_of_isDigit hc
    · decide
  rw [hspelling, String.toList_ofList, List.map_cons, List.head?_cons, hlower] at hname
  obtain ⟨hdigit, hpoint⟩ := hname c rfl
  obtain hc | ⟨hc, -⟩ := hc
  · rw [hdigit] at hc
    cases hc
  · exact hpoint hc

/-- **A literal is read as the double that it stands for.** -/
theorem readFloat?_spelling {l : Literal} (h : l.WellFormed) :
    readFloat? (String.ofList l.spelling) = some l.toDecimal.toFloat := by
  have hscan := scan_spelling_append h endsNumber_nil
  rw [List.append_nil] at hscan
  have hunsigned : readUnsigned? l.spelling = some l.toDecimal.toFloat := by
    have hinf := toLower_spelling_ne h "inf" (by simp; decide)
    have hinfinity := toLower_spelling_ne h "infinity" (by simp; decide)
    have hnan := toLower_spelling_ne h "nan" (by simp; decide)
    simp [readUnsigned?, hinf, hinfinity, hnan, hscan, h.hasDigits]
  obtain ⟨c, cs, hspelling, hc⟩ := head_spelling h
  have hsign : c ≠ '-' ∧ c ≠ '+' := by
    obtain hc | ⟨rfl, -⟩ := hc
    · constructor <;> rintro rfl <;> cases hc
    · decide
  rw [hspelling] at hunsigned ⊢
  rw [readFloat?, String.toList_ofList]
  split
  · rename_i heq
    exact absurd (List.head_eq_of_cons_eq heq) hsign.1
  · rename_i heq
    exact absurd (List.head_eq_of_cons_eq heq) hsign.2
  · exact hunsigned

end Literal

end RealRoots
