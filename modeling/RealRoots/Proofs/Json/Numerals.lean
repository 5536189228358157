import RealRoots.Json.Reader
import RealRoots.Json.Text
import RealRoots.Proofs.Number.Literals
import RealRoots.Proofs.Number.Reading

/-!
# JSON numbers are read back

**Theorem (`Json.takes_jsonNumber`).** A finite double is read from its text, whatever follows that
no number goes on with. The same holds of a count of 64 bits (`Json.takes_count`).

A decimal is written in one of three ways: a whole number with `.0`, digits with a point among them,
or digits with an exponent. Each is a plain literal (`Literal.IsPlain`), which the scanner takes as
a whole (`Literal.scan_spelling_append`). It stands for the decimal, or in the first case for ten
times as many tenths, which round to the same double.
-/

namespace RealRoots

/-! ## Literals -/

/-- An exponent as JSON writes it. -/
structure Exponent.IsPlain (e : Exponent) : Prop where
  mark : e.mark = 'e'
  sign : e.sign = none ∨ e.sign = some '-'
  nonempty : e.digits ≠ []
  digits : ∀ c ∈ e.digits, Text.isDigit c

/-- A literal as JSON writes it. -/
structure Literal.IsPlain (l : Literal) : Prop where
  whole : ∀ c ∈ l.whole, Text.isDigit c
  fraction : ∀ ds, l.fraction = some ds → ∀ c ∈ ds, Text.isDigit c
  exponent : ∀ e, l.exponent = some e → e.IsPlain
  wellSpelled : Json.wellSpelled l

theorem Exponent.IsPlain.wellFormed {e : Exponent} (h : e.IsPlain) : e.WellFormed where
  mark := .inl h.mark
  sign s hs := by
    obtain hsign | hsign := h.sign <;> rw [hsign] at hs <;> cases hs
    exact .inr rfl
  nonempty := h.nonempty
  digits := h.digits

namespace Literal.IsPlain

variable {l : Literal}

theorem whole_ne_nil (h : l.IsPlain) : l.whole ≠ [] := by
  intro hnil
  have := h.wellSpelled
  simp [Json.wellSpelled, hnil] at this

theorem wellFormed (h : l.IsPlain) : l.WellFormed where
  whole := h.whole
  fraction := h.fraction
  exponent e he := (h.exponent e he).wellFormed
  hasDigits := by simp [Literal.hasDigits, h.whole_ne_nil]

end Literal.IsPlain

/-! ## Numbers -/

namespace Json

open Text (Front)

/-- The reader has found `a` at the front of the text, and `rest` after it. -/
def Takes {α : Type} {cs : List Char} (front : Option (Front Char α cs)) (a : α)
    (rest : List Char) : Prop :=
  ∃ f, front = some f ∧ f.value = a ∧ f.rest = rest

variable {l : Literal} {rest : List Char}

theorem takes_literal (h : l.IsPlain) (hrest : EndsNumber rest) :
    Takes (literal? (l.spelling ++ rest)) l rest := by
  have hscan := Literal.scan_spelling_append h.wellFormed hrest
  have hwell : wellSpelled (Literal.scan (l.spelling ++ rest)).1 := by
    rw [hscan]
    exact h.wellSpelled
  rw [literal?, dif_pos hwell]
  exact ⟨_, rfl, congrArg Prod.fst hscan, congrArg Prod.snd hscan⟩

/-- A literal starts with a digit. -/
theorem spelling_eq_cons (h : l.IsPlain) : ∃ c cs, l.spelling = c :: cs ∧ Text.isDigit c := by
  obtain ⟨c, cs, hcs⟩ := List.exists_cons_of_ne_nil h.whole_ne_nil
  refine ⟨c, cs ++ l.tailChars, ?_, h.whole c (hcs ▸ List.mem_cons_self)⟩
  rw [Literal.spelling, hcs, Literal.tailChars, Literal.exponentChars]
  simp only [List.append_assoc, List.cons_append]

/-- A literal without a sign. -/
theorem takes_number (h : l.IsPlain) (hrest : EndsNumber rest) :
    Takes (number? (l.spelling ++ rest)) (ofLiteral l) rest := by
  obtain ⟨f, hf, hvalue, hrest⟩ := takes_literal h hrest
  obtain ⟨c, cs, hcs, hdigit⟩ := spelling_eq_cons h
  have hminus : ∀ rest', l.spelling ++ rest ≠ '-' :: rest' := by
    intro rest' heq
    rw [hcs] at heq
    cases List.head_eq_of_cons_eq heq
    cases hdigit
  rw [number?, hf]
  · exact ⟨_, rfl, congrArg ofLiteral hvalue, hrest⟩
  · exact hminus

/-- A literal behind a minus sign. -/
theorem takes_number_neg (h : l.IsPlain) (hrest : EndsNumber rest) :
    Takes (number? ('-' :: (l.spelling ++ rest))) (.number (-l.toDecimal.toFloat)) rest := by
  obtain ⟨f, hf, hvalue, hrest⟩ := takes_literal h hrest
  rw [number?, hf]
  exact ⟨_, rfl, congrArg (fun l : Literal => Json.number (-l.toDecimal.toFloat)) hvalue, hrest⟩

/-- The whole part has no zero in front of other digits, and the fraction has digits. -/
theorem wellSpelled_of {whole : List Char} {fraction : Option (List Char)}
    (exponent : Option Exponent) (hne : whole ≠ [])
    (hwhole : whole.length = 1 ∨ whole.head? ≠ some '0') (hfraction : ∀ ds ∈ fraction, ds ≠ []) :
    wellSpelled ⟨whole, fraction, exponent⟩ := by
  have hall : fraction.all fun digits => !digits.isEmpty := by
    cases fraction with
    | none => rfl
    | some ds => simpa using hfraction ds rfl
  simp [wellSpelled, hne, hwhole, hall]

theorem toDigits_spelling (n : Nat) :
    (Nat.toDigits 10 n).length = 1 ∨ (Nat.toDigits 10 n).head? ≠ some '0' := by
  by_cases h : n = 0
  · rw [h]
    exact .inl rfl
  · exact .inr (Text.head_toDigits_ne_zero h)

/-- The digits of a count are read as it. -/
theorem takes_count {n : Nat} (h : n < countLimit) (hrest : EndsNumber rest) :
    Takes (number? ((toString n).toList ++ rest)) (.count n) rest := by
  let l : Literal := ⟨Nat.toDigits 10 n, none, none⟩
  have hl : l.IsPlain := ⟨fun _ => Text.isDigit_of_mem_toDigits, nofun, nofun,
    wellSpelled_of none Nat.toDigits_ne_nil (toDigits_spelling n) nofun⟩
  have hspelling : (toString n).toList = l.spelling := by
    simp [l, Literal.spelling]
  have hvalue : ofLiteral l = .count n := by
    simp [ofLiteral, l, Text.natOfDigits_toDigits, h]
  rw [hspelling, ← hvalue]
  exact takes_number hl hrest

end Json

/-! ## Decimals -/

namespace Decimal

/-- A whole number without an exponent is its digits and zeros. -/
theorem positional_whole (digits zeros : Nat) (hzero : digits = 0 → zeros = 0) :
    ∃ whole : List Char, positional ⟨digits, zeros⟩ = whole ∧ whole ≠ [] ∧
      (∀ c ∈ whole, Text.isDigit c) ∧ (whole.length = 1 ∨ whole.head? ≠ some '0') ∧
      Text.natOfDigits whole = 10 ^ zeros * digits := by
  let whole := Nat.toDigits 10 digits ++ List.replicate zeros '0'
  have hpositional : positional ⟨digits, zeros⟩ = whole := by
    change Nat.toDigits 10 digits ++ (if digits = 0 then [] else List.replicate zeros '0') = whole
    split
    · rename_i h
      simp [whole, hzero h]
    · rfl
  have hdigit : ∀ c ∈ whole, Text.isDigit c := by
    intro c hc
    obtain hc | hc := List.mem_append.1 hc
    · exact Text.isDigit_of_mem_toDigits hc
    · obtain rfl := List.eq_of_mem_replicate hc
      rfl
  have hspelled : whole.length = 1 ∨ whole.head? ≠ some '0' := by
    by_cases h : digits = 0
    · exact .inl (by simp [whole, h, hzero h])
    · obtain ⟨c, cs, hcs⟩ :=
        List.exists_cons_of_ne_nil (Nat.toDigits_ne_nil (b := 10) (n := digits))
      have hhead := Text.head_toDigits_ne_zero h
      rw [hcs] at hhead
      exact .inr (by simpa [whole, hcs] using hhead)
  refine ⟨whole, hpositional, by simp [whole, Nat.toDigits_ne_nil], hdigit, hspelled, ?_⟩
  rw [Text.natOfDigits_append_zeros, Text.natOfDigits_toDigits]

/-- A whole number with `.0` behind it. -/
theorem positional_zero (digits zeros : Nat) (hzero : digits = 0 → zeros = 0) :
    ∃ l : Literal, l.IsPlain ∧ positional ⟨digits, zeros⟩ ++ ['.', '0'] = l.spelling ∧
      l.fraction.isSome ∧ l.toDecimal = ⟨10 ^ (zeros + 1) * digits, -1⟩ := by
  obtain ⟨whole, hpositional, hne, hdigit, hspelled, hvalue⟩ := positional_whole digits zeros hzero
  refine ⟨⟨whole, some ['0'], none⟩, ⟨hdigit, ?_, nofun, ?_⟩, ?_, rfl, ?_⟩
  · rintro _ ⟨⟩ c hc
    obtain rfl := List.mem_singleton.1 hc
    rfl
  · exact Json.wellSpelled_of none hne hspelled (by simp)
  · rw [hpositional]
    simp [Literal.spelling]
  · have htenfold : Text.natOfDigits (whole ++ ['0']) = 10 ^ (zeros + 1) * digits := by
      have happend := Text.natOfDigits_append_zeros whole 1
      rw [hvalue, ← Nat.mul_assoc, ← Nat.pow_add, Nat.add_comm] at happend
      exact happend
    simp [Literal.toDecimal, ofParts, htenfold]

/-- Digits with a point before the last ones of them. -/
theorem positional_point {digits places : Nat} (hne : digits ≠ 0) :
    ∃ l : Literal, l.IsPlain ∧ positional ⟨digits, .negSucc places⟩ = l.spelling ∧
      l.fraction.isSome ∧ l.toDecimal = ⟨digits, .negSucc places⟩ := by
  let cs := Nat.toDigits 10 digits
  let padded := List.replicate (places + 2 - cs.length) '0' ++ cs
  have hlength : padded.length = max (places + 2) cs.length := by
    simp only [padded, List.length_append, List.length_replicate]
    omega
  have hpadded : ∀ c ∈ padded, Text.isDigit c := by
    intro c hc
    obtain hc | hc := List.mem_append.1 hc
    · obtain rfl := List.eq_of_mem_replicate hc
      rfl
    · exact Text.isDigit_of_mem_toDigits hc
  have hfraction : (padded.drop (padded.length - (places + 1))).length = places + 1 := by
    rw [List.length_drop]
    omega
  refine ⟨⟨padded.take (padded.length - (places + 1)),
    some (padded.drop (padded.length - (places + 1))), none⟩,
    ⟨fun c hc => hpadded c (List.mem_of_mem_take hc), ?_, nofun, ?_⟩, ?_, rfl, ?_⟩
  · rintro _ ⟨⟩ c hc
    exact hpadded c (List.mem_of_mem_drop hc)
  · have hwhole : (padded.take (padded.length - (places + 1))).length =
        padded.length - (places + 1) := by
      rw [List.length_take]
      omega
    apply Json.wellSpelled_of
    · intro hnil
      rw [hnil, List.length_nil] at hwhole
      omega
    · by_cases hlong : cs.length ≤ places + 2
      · left
        omega
      · right
        have hcs : padded = cs := by
          simp only [padded]
          rw [Nat.sub_eq_zero_of_le (by omega)]
          rfl
        rw [List.head?_take, if_neg (by omega), hcs]
        exact Text.head_toDigits_ne_zero hne
    · rintro _ ⟨⟩ hnil
      rw [hnil] at hfraction
      cases hfraction
  · rw [Literal.spelling]
    simp only [Option.map_some, Option.getD_some, Option.map_none, Option.getD_none,
      List.append_nil]
    rfl
  · have hvalue : Text.natOfDigits padded = digits := by
      rw [Text.natOfDigits_zeros_append, Text.natOfDigits_toDigits]
    simp only [Literal.toDecimal, ofParts, Option.getD_some, List.take_append_drop, hvalue,
      hfraction, Option.map_none, Option.getD_none]
    congr 1

/-- The exponent as it is written. -/
def plainExponent (k : Int) : Exponent :=
  ⟨'e', if k < 0 then some '-' else none, Nat.toDigits 10 k.natAbs⟩

theorem plainExponent_isPlain (k : Int) : (plainExponent k).IsPlain := by
  refine ⟨rfl, ?_, Nat.toDigits_ne_nil, fun _ => Text.isDigit_of_mem_toDigits⟩
  unfold plainExponent
  split
  · exact .inr rfl
  · exact .inl rfl

theorem plainExponent_value (k : Int) : (plainExponent k).value = k := by
  simp only [plainExponent, Exponent.value, Text.natOfDigits_toDigits]
  by_cases hneg : k < 0
  · rw [if_pos hneg, if_pos rfl]
    omega
  · rw [if_neg hneg, if_neg nofun]
    omega

theorem plainExponent_spelling (k : Int) :
    (plainExponent k).spelling = 'e' :: (toString k).toList := by
  cases k with
  | ofNat n =>
    have htext : (toString (Int.ofNat n)).toList = Nat.toDigits 10 n := by
      change (Nat.repr n).toList = _
      exact Nat.toList_repr
    have hsign : ¬ Int.ofNat n < 0 := by simp
    rw [htext, plainExponent, Exponent.spelling, if_neg hsign]
    rfl
  | negSucc n =>
    have htext : (toString (Int.negSucc n)).toList = '-' :: Nat.toDigits 10 (n + 1) := by
      change ("-" ++ Nat.repr (n + 1)).toList = _
      rw [String.toList_append, Nat.toList_repr]
      rfl
    rw [htext, plainExponent, Exponent.spelling, if_pos (Int.negSucc_lt_zero n)]
    rfl

/-- Digits with an exponent. -/
theorem scientific_eq (d : Decimal) :
    ∃ l : Literal, l.IsPlain ∧ d.scientific = l.spelling ∧ l.exponent.isSome ∧ l.toDecimal = d := by
  obtain ⟨digits, exponent⟩ := d
  obtain ⟨first, others, hcs⟩ :=
    List.exists_cons_of_ne_nil (Nat.toDigits_ne_nil (b := 10) (n := digits))
  have hdigits : ∀ c ∈ first :: others, Text.isDigit c := by
    rw [← hcs]
    exact fun _ => Text.isDigit_of_mem_toDigits
  have hvalue : Text.natOfDigits (first :: others) = digits := by
    rw [← hcs, Text.natOfDigits_toDigits]
  have hfirst : ∀ c ∈ [first], Text.isDigit c := by simpa using (List.forall_mem_cons.1 hdigits).1
  let k : Int := exponent + (first :: others).length - 1
  have hplain (e : Exponent) (he : some (plainExponent k) = some e) : e.IsPlain := by
    cases he
    exact plainExponent_isPlain k
  simp only [scientific, digitChars, hcs]
  cases others with
  | nil =>
    refine ⟨⟨[first], none, some (plainExponent k)⟩, ⟨hfirst, by simp, hplain,
      Json.wellSpelled_of _ (List.cons_ne_nil _ _) (.inl rfl) (by simp)⟩, ?_, rfl, ?_⟩
    · simp [Literal.spelling, plainExponent_spelling, k]
    · simp [Literal.toDecimal, ofParts, hvalue, plainExponent_value, k]
  | cons second others =>
    refine ⟨⟨[first], some (second :: others), some (plainExponent k)⟩, ⟨hfirst, ?_, hplain,
      Json.wellSpelled_of _ (List.cons_ne_nil _ _) (.inl rfl) (by simp)⟩, ?_, rfl, ?_⟩
    · rintro _ ⟨⟩
      exact (List.forall_mem_cons.1 hdigits).2
    · simp [Literal.spelling, plainExponent_spelling, k]
    · simp [Literal.toDecimal, ofParts, hvalue, plainExponent_value, k]
      omega

/-- **A decimal is written as a literal that stands for it**, or for the same whole number with one
more place. -/
theorem jsonChars_eq (d : Decimal) (hzero : d.digits = 0 → d.exponent = 0) :
    ∃ l : Literal, l.IsPlain ∧ d.jsonChars = l.spelling ∧ (l.fraction.isSome ∨ l.exponent.isSome) ∧
      (l.toDecimal = d ∨ ∃ zeros : Nat, d.exponent = zeros ∧
        zeros + (Nat.toDigits 10 d.digits).length ≤ 16 ∧
        l.toDecimal = ⟨10 ^ (zeros + 1) * d.digits, -1⟩) := by
  obtain ⟨digits, exponent⟩ := d
  unfold jsonChars
  dsimp only at hzero ⊢
  split
  · rename_i h
    obtain ⟨zeros, rfl⟩ := Int.eq_ofNat_of_zero_le h.1
    have hshort : zeros + (Nat.toDigits 10 digits).length ≤ 16 := by
      have hpoint := h.2
      simp only [digitChars] at hpoint
      omega
    obtain ⟨l, hl, htext, hfraction, hvalue⟩ := positional_zero digits zeros (by omega)
    exact ⟨l, hl, htext, .inl hfraction, .inr ⟨zeros, rfl, hshort, hvalue⟩⟩
  · split
    · rename_i hlong h
      obtain ⟨l, hl, htext, hfraction, hvalue⟩ : ∃ l : Literal, l.IsPlain ∧
          positional ⟨digits, exponent⟩ = l.spelling ∧ l.fraction.isSome ∧
            l.toDecimal = ⟨digits, exponent⟩ := by
        cases exponent with
        | ofNat zeros => exact absurd ⟨Int.natCast_nonneg zeros, h.2⟩ hlong
        | negSucc places =>
          exact positional_point fun h => nomatch hzero h
      exact ⟨l, hl, htext, .inl hfraction, .inl hvalue⟩
    · obtain ⟨l, hl, htext, hexponent, hvalue⟩ := scientific_eq ⟨digits, exponent⟩
      exact ⟨l, hl, htext, .inr hexponent, .inl hvalue⟩

end Decimal

/-! ## Doubles -/

namespace Json

variable {rest : List Char}

theorem ofLiteral_of_isSome {l : Literal} (h : l.fraction.isSome ∨ l.exponent.isSome) :
    ofLiteral l = .number l.toDecimal.toFloat := by
  obtain ⟨whole, fraction, exponent⟩ := l
  cases fraction <;> cases exponent <;> simp_all [ofLiteral]

/-- **A finite double is written as a literal that stands for its size**, behind its sign. -/
theorem jsonNumber_eq {x : Float} (h : x.isFinite) : ∃ (negative : Bool) (l : Literal), l.IsPlain ∧
    (jsonNumber x).toList = (if negative then ['-'] else []) ++ l.spelling ∧
    (l.fraction.isSome ∨ l.exponent.isSome) ∧
    (if negative then -l.toDecimal.toFloat else l.toDecimal.toFloat) = x := by
  obtain ⟨negative, size, hshape⟩ := Shape.of_eq_finite h
  obtain ⟨l, hl, htext, hsome, hvalue⟩ := (Decimal.shortest .even size).jsonChars_eq
    Decimal.exponent_shortest
  have hfloat : l.toDecimal.toFloat = (Decimal.shortest .even size).toFloat := by
    obtain hvalue | ⟨zeros, hzeros, hshort, hvalue⟩ := hvalue
    · rw [hvalue]
    · have hlt : (Decimal.shortest .even size).digits * 10 ^ zeros < 10 ^ 16 := by
        refine Nat.lt_of_lt_of_le ?_ (Nat.pow_le_pow_right (by decide) hshort)
        rw [Nat.pow_add, Nat.mul_comm]
        exact Nat.mul_lt_mul_of_pos_left (Text.lt_pow_length_toDigits _) (Nat.pow_pos (by decide))
      rw [hvalue, Decimal.toFloat_whole hlt, ← hzeros]
  refine ⟨negative, l, hl, ?_, hsome, ?_⟩
  · rw [jsonNumber, signedText]
    simp only [hshape, htext, String.toList_ofList]
    cases negative <;> rfl
  · rw [hfloat]
    exact Decimal.signed_toFloat_shortest hshape .even

/-- **A finite double is read from its text.** -/
theorem takes_jsonNumber {x : Float} (h : x.isFinite) (hrest : EndsNumber rest) :
    Takes (number? ((jsonNumber x).toList ++ rest)) (.number x) rest := by
  obtain ⟨negative, l, hl, hchars, hsome, hx⟩ := jsonNumber_eq h
  rw [hchars, ← hx]
  cases negative with
  | false =>
    have htakes := takes_number hl hrest
    rw [ofLiteral_of_isSome hsome] at htakes
    exact htakes
  | true => exact takes_number_neg hl hrest

/-- A double starts with its sign or a digit. -/
theorem jsonNumber_eq_cons {x : Float} (h : x.isFinite) : ∃ c cs, (jsonNumber x).toList = c :: cs ∧
    (c = '-' ∨ Text.isDigit c) := by
  obtain ⟨negative, l, hl, hchars, -⟩ := jsonNumber_eq h
  obtain ⟨c, cs, hcs, hdigit⟩ := spelling_eq_cons hl
  rw [hchars, hcs]
  cases negative with
  | false => exact ⟨c, cs, rfl, .inr hdigit⟩
  | true => exact ⟨'-', c :: cs, rfl, .inl rfl⟩

end Json

end RealRoots
