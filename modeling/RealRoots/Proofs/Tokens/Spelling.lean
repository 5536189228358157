import Mathlib
import RealRoots.Expr.Token
import RealRoots.Proofs.Number.Literals
import RealRoots.Proofs.Text.Classes

/-!
# How tokens are spelled

A token is a numeral, a name, or a sign or bracket. Its text settles what it is.

* `Token.Kind.SpelledAs`: the texts of each kind of token.
* `Lexeme.spelledAs_of_read?`: what is read at the front of a text is the text of a token. A literal
  is always read as a double.
* `Lexeme.exists_read?_append`: where a text starts with a token, at least that token is read.
-/

namespace RealRoots

/-- The text of a number: digits with perhaps a point among them or at either end, and perhaps an
exponent that has digits. -/
def IsNumeral (cs : List Char) : Prop :=
  ∃ l : Literal, l.WellFormed ∧ l.spelling = cs

namespace Token.Kind

/-- The sign or bracket with that text. Two stars are the same sign as `^`. -/
def ofSign? : List Char → Option Kind
  | ['+'] => some plus
  | ['-'] => some minus
  | ['*'] => some star
  | ['*', '*'] => some caret
  | ['/'] => some slash
  | ['^'] => some caret
  | ['('] => some leftParen
  | [')'] => some rightParen
  | [','] => some comma
  | _ => none

/-- The texts that a token of this kind may have. -/
inductive SpelledAs : Kind → List Char → Prop
  | number {cs : List Char} {value : Float} :
      IsNumeral cs → readFloat? (String.ofList cs) = some value → SpelledAs (number value) cs
  | identifier {c : Char} {cs : List Char} :
      Text.startsName c → (∀ d ∈ cs, Text.continuesName d) →
      SpelledAs (identifier (String.ofList (c :: cs))) (c :: cs)
  | sign {kind : Kind} {cs : List Char} : ofSign? cs = some kind → SpelledAs kind cs

/-- Every numeral is the text of a number. -/
theorem exists_spelledAs_of_isNumeral {cs : List Char} (h : IsNumeral cs) :
    ∃ value, SpelledAs (number value) cs := by
  obtain ⟨l, hl, rfl⟩ := h
  exact ⟨_, .number ⟨l, hl, rfl⟩ (Literal.readFloat?_spelling hl)⟩

/-! ## The texts of one kind -/

theorem SpelledAs.isNumeral {value : Float} {cs : List Char} (h : SpelledAs (.number value) cs) :
    IsNumeral cs ∧ readFloat? (String.ofList cs) = some value := by
  cases h with
  | number hnumeral hvalue => exact ⟨hnumeral, hvalue⟩
  | sign hsign =>
    unfold ofSign? at hsign
    split at hsign <;> cases hsign

theorem SpelledAs.isName {name : String} {cs : List Char} (h : SpelledAs (.identifier name) cs) :
    String.ofList cs = name ∧
      ∃ c cs', cs = c :: cs' ∧ Text.startsName c ∧ ∀ d ∈ cs', Text.continuesName d := by
  cases h with
  | identifier hstarts hcontinues => exact ⟨rfl, _, _, rfl, hstarts, hcontinues⟩
  | sign hsign =>
    unfold ofSign? at hsign
    split at hsign <;> cases hsign

theorem SpelledAs.eq_star {cs : List Char} (h : SpelledAs .star cs) : cs = ['*'] := by
  cases h with
  | sign hsign =>
    unfold ofSign? at hsign
    split at hsign <;> first | rfl | cases hsign

/-! ## The first character of a token -/

/-- The first characters of signs and brackets: those from `(` to `-`, `/` and `^`. -/
def startsSign (c : Char) : Bool :=
  Text.inRanges [(0x28, 0x2D), (0x2F, 0x2F), (0x5E, 0x5E)] c

theorem exists_cons_of_ofSign? {kind : Kind} {cs : List Char} (h : ofSign? cs = some kind) :
    ∃ c cs', cs = c :: cs' ∧ startsSign c := by
  unfold ofSign? at h
  split at h
  case h_10 => cases h
  all_goals exact ⟨_, _, rfl, rfl⟩

theorem exists_cons_of_isNumeral {cs : List Char} (h : IsNumeral cs) :
    ∃ c cs', cs = c :: cs' ∧ (Text.isDigit c ∨ c = '.') := by
  obtain ⟨l, hl, rfl⟩ := h
  obtain ⟨c, cs, hcs, hc⟩ := Literal.head_spelling hl
  exact ⟨c, cs, hcs, hc.imp_right And.left⟩

theorem startsSign_eq_false_of_number {c : Char} (h : Text.isDigit c ∨ c = '.') :
    startsSign c = false := by
  obtain h | rfl := h
  · exact Text.inRanges_eq_false (by decide) h
  · rfl

theorem startsName_eq_false_of_number {c : Char} (h : Text.isDigit c ∨ c = '.') :
    Text.startsName c = false := by
  obtain h | rfl := h
  · exact Text.startsName_of_isDigit h
  · decide +kernel

theorem startsName_eq_false_of_sign {c : Char} (h : startsSign c) : Text.startsName c = false :=
  Text.startsName_eq_false (by decide +kernel) (by decide) h

/-- A token is not empty and starts with no blank. -/
theorem SpelledAs.exists_cons {kind : Kind} {cs : List Char} (h : kind.SpelledAs cs) :
    ∃ c cs', cs = c :: cs' ∧ Text.isBlank c = false := by
  cases h with
  | number h =>
    obtain ⟨c, cs', rfl, hc⟩ := exists_cons_of_isNumeral h
    refine ⟨c, cs', rfl, ?_⟩
    obtain hc | rfl := hc
    · exact Text.isBlank_of_isDigit hc
    · rfl
  | identifier hstarts => exact ⟨_, _, rfl, Text.isBlank_of_startsName hstarts⟩
  | sign h =>
    obtain ⟨c, cs', rfl, hc⟩ := exists_cons_of_ofSign? h
    exact ⟨c, cs', rfl, Text.inRanges_eq_false (by decide) hc⟩

/-- **The text of a token settles its kind.** -/
theorem SpelledAs.unique {kind kind' : Kind} {cs : List Char} (h : kind.SpelledAs cs)
    (h' : kind'.SpelledAs cs) : kind = kind' := by
  cases h with
  | number hcs hvalue =>
    obtain ⟨c, cs', rfl, hc⟩ := exists_cons_of_isNumeral hcs
    cases h' with
    | number hcs' hvalue' => rw [Option.some.inj (hvalue.symm.trans hvalue')]
    | identifier hstarts => simp [startsName_eq_false_of_number hc] at hstarts
    | sign hsign =>
      obtain ⟨d, ds, ⟨⟩, hd⟩ := exists_cons_of_ofSign? hsign
      simp [startsSign_eq_false_of_number hc] at hd
  | @identifier c cs hstarts =>
    generalize hcs : c :: cs = text at h'
    cases h' with
    | number hnumeral =>
      subst hcs
      obtain ⟨d, ds, ⟨⟩, hd⟩ := exists_cons_of_isNumeral hnumeral
      simp [startsName_eq_false_of_number hd] at hstarts
    | identifier => rfl
    | sign hsign =>
      subst hcs
      obtain ⟨d, ds, ⟨⟩, hd⟩ := exists_cons_of_ofSign? hsign
      simp [startsName_eq_false_of_sign hd] at hstarts
  | sign hsign =>
    obtain ⟨c, cs', rfl, hc⟩ := exists_cons_of_ofSign? hsign
    cases h' with
    | number hnumeral =>
      obtain ⟨d, ds, ⟨⟩, hd⟩ := exists_cons_of_isNumeral hnumeral
      simp [startsSign_eq_false_of_number hd] at hc
    | identifier hstarts => simp [startsName_eq_false_of_sign hc] at hstarts
    | sign hsign' => exact Option.some.inj (hsign.symm.trans hsign')

end Token.Kind

/-! ## What is read at the front of a text -/

namespace Lexeme

open Token.Kind (SpelledAs startsSign ofSign?)

theorem startsNumber_cons_eq_false {c : Char} (cs : List Char) (hdigit : Text.isDigit c = false)
    (hpoint : c ≠ '.') : startsNumber (c :: cs) = false := by
  unfold startsNumber
  split
  · rename_i heq
    exact absurd (List.head_eq_of_cons_eq heq) hpoint
  · rename_i heq
    rw [← List.head_eq_of_cons_eq heq]
    exact hdigit
  · rfl

theorem startsNumber_append {cs : List Char} (h : IsNumeral cs) (rest : List Char) :
    startsNumber (cs ++ rest) := by
  obtain ⟨l, hl, rfl⟩ := h
  obtain ⟨c, cs, hcs, hc⟩ := Literal.head_spelling hl
  rw [hcs]
  obtain hc | ⟨rfl, d, ds, rfl, hd⟩ := hc
  · have hpoint : c ≠ '.' := by
      rintro rfl
      cases hc
    rw [List.cons_append, startsNumber]
    · exact hc
    · rintro d ds rfl
      exact absurd rfl hpoint
  · exact hd

theorem hasDigits_scan {cs : List Char} (h : startsNumber cs) :
    (Literal.scan cs).1.hasDigits := by
  unfold startsNumber at h
  split at h
  · simp [Literal.scan, Literal.scanFraction, Literal.hasDigits, h,
      show Text.isDigit '.' = false by decide]
  · simp [Literal.scan, Literal.hasDigits, h]
  · cases h

theorem read?_of_startsNumber {cs : List Char} (h : startsNumber cs) :
    read? cs = some (number h) := dif_pos h

theorem read?_of_startsName {c : Char} (cs : List Char) (h : Text.startsName c) :
    read? (c :: cs) = some (name c cs) := by
  have hnumber : ¬ (Text.isDigit c ∨ c = '.') := fun hc => by
    simp [Token.Kind.startsName_eq_false_of_number hc] at h
  rw [not_or, Bool.not_eq_true] at hnumber
  have hstarts := startsNumber_cons_eq_false cs hnumber.1 hnumber.2
  rw [read?, dif_neg (by simp [hstarts])]
  exact if_pos h

theorem read?_of_startsSign {c : Char} (cs : List Char) (h : startsSign c) :
    read? (c :: cs) = sign? (c :: cs) := by
  have hnumber : ¬ (Text.isDigit c ∨ c = '.') := fun hc => by
    simp [Token.Kind.startsSign_eq_false_of_number hc] at h
  rw [not_or, Bool.not_eq_true] at hnumber
  have hstarts := startsNumber_cons_eq_false cs hnumber.1 hnumber.2
  rw [read?, dif_neg (by simp [hstarts])]
  exact if_neg (by simp [Token.Kind.startsName_eq_false_of_sign h])

theorem spelledAs_of_sign? {cs : List Char} {l : Lexeme cs} (h : sign? cs = some l) :
    ∃ kind, l.kind? = some kind ∧ kind.SpelledAs l.spelling := by
  unfold sign? at h
  split at h
  case h_10 => cases h
  all_goals
    cases h
    exact ⟨_, rfl, .sign rfl⟩

/-- A sign is read, but for a star before another star. -/
theorem exists_sign?_eq {kind : Token.Kind} {cs rest : List Char} (h : ofSign? cs = some kind)
    (hstar : kind = .star → rest.head? ≠ some '*') :
    ∃ l, sign? (cs ++ rest) = some l ∧ l.kind? = some kind ∧ l.spelling = cs := by
  unfold ofSign? at h
  split at h
  case h_3 =>
    cases h
    refine ⟨single .star '*' rest, ?_, rfl, rfl⟩
    change sign? ('*' :: rest) = _
    rw [sign?]
    rintro rest' rfl
    exact hstar rfl rfl
  case h_10 => cases h
  all_goals
    cases h
    exact ⟨_, rfl, rfl, rfl⟩

theorem exists_sign?_append {kind : Token.Kind} {cs : List Char} (h : ofSign? cs = some kind)
    (rest : List Char) : ∃ l, sign? (cs ++ rest) = some l ∧ cs.length ≤ l.spelling.length := by
  by_cases hstar : kind = .star ∧ rest.head? = some '*'
  · -- The two stars make a power sign.
    obtain ⟨rfl, hhead⟩ := hstar
    obtain ⟨rest', rfl⟩ := List.head?_eq_some_iff.1 hhead
    obtain rfl := (SpelledAs.sign h).eq_star
    exact ⟨_, rfl, by simp⟩
  · obtain ⟨l, hl, -, hspelling⟩ := exists_sign?_eq h (not_and.1 hstar)
    exact ⟨l, hl, by rw [hspelling]⟩

/-- **What is read at the front of a text is a token.** In particular, a literal that is cut out of
a text is read as a double. -/
theorem spelledAs_of_read? {cs : List Char} {l : Lexeme cs} (h : read? cs = some l) :
    ∃ kind, l.kind? = some kind ∧ kind.SpelledAs l.spelling := by
  unfold read? at h
  split at h
  · rename_i hnumber
    cases h
    have hl := Literal.wellFormed_scan (hasDigits_scan hnumber)
    have hvalue := Literal.readFloat?_spelling hl
    exact ⟨_, congrArg (Option.map _) hvalue, .number ⟨_, hl, rfl⟩ hvalue⟩
  · split at h
    · split at h
      · rename_i hname
        cases h
        exact ⟨_, rfl, .identifier hname fun d hd => List.mem_takeWhile_imp hd⟩
      · exact spelledAs_of_sign? h
    · cases h

/-- **Where a text starts with a token, at least that token is read.** -/
theorem exists_read?_append {kind : Token.Kind} {cs : List Char} (h : kind.SpelledAs cs)
    (rest : List Char) :
    ∃ l, read? (cs ++ rest) = some l ∧ cs.length ≤ l.spelling.length := by
  cases h with
  | number hnumeral =>
    refine ⟨_, read?_of_startsNumber (startsNumber_append hnumeral rest), ?_⟩
    obtain ⟨literal, hl, rfl⟩ := hnumeral
    have hrest : (Literal.scan (literal.spelling ++ rest)).2.length ≤ rest.length :=
      Literal.length_scan_append_le hl
    have hall := congrArg List.length (Literal.scan_spelling (literal.spelling ++ rest))
    rw [List.length_append, List.length_append] at hall
    change literal.spelling.length ≤ (Literal.scan (literal.spelling ++ rest)).1.spelling.length
    omega
  | @identifier c cs hstarts hcontinues =>
    refine ⟨_, read?_of_startsName (cs ++ rest) hstarts, ?_⟩
    simp [name, List.takeWhile_append_of_pos hcontinues]
  | sign hsign =>
    obtain ⟨c, cs, rfl, hc⟩ := Token.Kind.exists_cons_of_ofSign? hsign
    rw [List.cons_append, read?_of_startsSign _ hc]
    exact exists_sign?_append hsign rest

end Lexeme

end RealRoots
