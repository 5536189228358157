import RealRoots.Proofs.Json.Numerals

/-!
# JSON texts are read back

**Theorem (`Json.IsWritable.parse?_compact`, `Json.IsWritable.parse?_pretty`).** A value whose
doubles are finite and whose counts have 64 bits is read back from both its layouts.

The proof is by induction on the value, with `Spells` as what is shown of each part: its text is
read as it after blanks, and up to whatever a number could not go on with. Both layouts put the same
blanks around every item and field, none on one line and a line break with some spaces otherwise, so
`takes_items` and `takes_fields` serve both. The readers recur on the length of the rest, so each is
first opened once for every character that may come next.
-/

namespace RealRoots.Json

open Text (Front)

/-! ## Readers by what comes next -/

section

variable {cs tail rest : List Char}

theorem takes_value_of_quote {text : List Char} (h : skipSpace cs = '"' :: tail)
    (htext : Takes (quoted? tail) text rest) :
    Takes (value? cs) (.string (String.ofList text)) rest := by
  obtain ⟨f, hf, rfl, rfl⟩ := htext
  rw [value?]
  split
  · rename_i h'
    cases h.symm.trans h'
    rw [hf]
    exact ⟨_, rfl, rfl, rfl⟩
  · rename_i h'
    cases h.symm.trans h'
  · rename_i h'
    cases h.symm.trans h'
  · rename_i hne _ _
    exact absurd h (hne tail)

theorem takes_value_of_bracket {items : List Json} (h : skipSpace cs = '[' :: tail)
    (hitems : Takes (items? true tail) items rest) : Takes (value? cs) (.array items) rest := by
  obtain ⟨f, hf, rfl, rfl⟩ := hitems
  rw [value?]
  split
  · rename_i h'
    cases h.symm.trans h'
  · rename_i h'
    cases h.symm.trans h'
    rw [hf]
    exact ⟨_, rfl, rfl, rfl⟩
  · rename_i h'
    cases h.symm.trans h'
  · rename_i hne _
    exact absurd h (hne tail)

theorem takes_value_of_brace {fields : List (String × Json)} (h : skipSpace cs = '\x7b' :: tail)
    (hfields : Takes (fields? true tail) fields rest) :
    Takes (value? cs) (.object fields) rest := by
  obtain ⟨f, hf, rfl, rfl⟩ := hfields
  rw [value?]
  split
  · rename_i h'
    cases h.symm.trans h'
  · rename_i h'
    cases h.symm.trans h'
  · rename_i h'
    cases h.symm.trans h'
    rw [hf]
    exact ⟨_, rfl, rfl, rfl⟩
  · rename_i hne
    exact absurd h (hne tail)

/-- Before a number or a word. -/
theorem takes_value_of_start {value : Json} (hquote : ∀ t, skipSpace cs ≠ '"' :: t)
    (hbracket : ∀ t, skipSpace cs ≠ '[' :: t) (hbrace : ∀ t, skipSpace cs ≠ '\x7b' :: t)
    (h : Takes ((number? (skipSpace cs)).or (word? (skipSpace cs))) value rest) :
    Takes (value? cs) value rest := by
  obtain ⟨f, hf, rfl, rfl⟩ := h
  rw [value?]
  split
  · rename_i h'
    exact absurd h' (hquote _)
  · rename_i h'
    exact absurd h' (hbracket _)
  · rename_i h'
    exact absurd h' (hbrace _)
  · rw [hf]
    exact ⟨_, rfl, rfl, rfl⟩

theorem takes_items_nil (h : skipSpace cs = ']' :: tail) : Takes (items? true cs) [] tail := by
  rw [items?]
  split
  · rename_i h'
    cases h.symm.trans h'
    exact ⟨_, rfl, rfl, rfl⟩
  · rename_i hne
    exact absurd h (hne tail)

theorem takes_items_last {start : Bool} {item : Json} (hcs : ∀ t, skipSpace cs ≠ ']' :: t)
    (hitem : Takes (value? cs) item rest) (h : skipSpace rest = ']' :: tail) :
    Takes (items? start cs) [item] tail := by
  obtain ⟨f, hf, rfl, rfl⟩ := hitem
  rw [items?]
  split
  · rename_i h'
    exact absurd h' (hcs _)
  · rw [hf, Option.bind_eq_bind, Option.bind_some]
    split
    · rename_i h'
      cases h.symm.trans h'
      exact ⟨_, rfl, rfl, rfl⟩
    · rename_i h'
      cases h.symm.trans h'
    · rename_i hne _
      exact absurd h (hne tail)

theorem takes_items_cons {start : Bool} {item : Json} {items : List Json} {last : List Char}
    (hcs : ∀ t, skipSpace cs ≠ ']' :: t) (hitem : Takes (value? cs) item rest)
    (h : skipSpace rest = ',' :: tail) (hitems : Takes (items? false tail) items last) :
    Takes (items? start cs) (item :: items) last := by
  obtain ⟨f, hf, rfl, rfl⟩ := hitem
  obtain ⟨g, hg, rfl, rfl⟩ := hitems
  rw [items?]
  split
  · rename_i h'
    exact absurd h' (hcs _)
  · rw [hf, Option.bind_eq_bind, Option.bind_some]
    split
    · rename_i h'
      cases h.symm.trans h'
    · rename_i h'
      cases h.symm.trans h'
      rw [hg]
      exact ⟨_, rfl, rfl, rfl⟩
    · rename_i hne
      exact absurd h (hne tail)

theorem takes_fields_nil (h : skipSpace cs = '\x7d' :: tail) :
    Takes (fields? true cs) [] tail := by
  rw [fields?]
  split
  · rename_i h'
    cases h.symm.trans h'
    exact ⟨_, rfl, rfl, rfl⟩
  · rename_i h'
    cases h.symm.trans h'
  · rename_i hne _
    exact absurd h (hne tail)

theorem takes_fields_last (start : Bool) {name behind : List Char} {value : Json}
    (hcs : skipSpace cs = '"' :: tail) (hname : Takes (quoted? tail) name rest)
    {colon : List Char} (hcolon : skipSpace rest = ':' :: colon)
    (hvalue : Takes (value? colon) value behind) {last : List Char}
    (h : skipSpace behind = '\x7d' :: last) :
    Takes (fields? start cs) [(String.ofList name, value)] last := by
  obtain ⟨f, hf, rfl, rfl⟩ := hname
  obtain ⟨g, hg, rfl, rfl⟩ := hvalue
  rw [fields?]
  split
  · rename_i h'
    cases hcs.symm.trans h'
  · rename_i h'
    cases hcs.symm.trans h'
    simp only [hf, Option.bind_eq_bind, Option.bind_some]
    split
    · rename_i h'
      cases hcolon.symm.trans h'
      simp only [hg, Option.bind_some]
      split
      · rename_i h'
        cases h.symm.trans h'
        exact ⟨_, rfl, rfl, rfl⟩
      · rename_i h'
        cases h.symm.trans h'
      · rename_i hne _
        exact absurd h (hne last)
    · rename_i hne
      exact absurd hcolon (hne colon)
  · rename_i hne
    exact absurd hcs (hne tail)

theorem takes_fields_cons (start : Bool) {name behind : List Char} {value : Json}
    {fields : List (String × Json)} (hcs : skipSpace cs = '"' :: tail)
    (hname : Takes (quoted? tail) name rest) {colon : List Char}
    (hcolon : skipSpace rest = ':' :: colon) (hvalue : Takes (value? colon) value behind)
    {next last : List Char} (h : skipSpace behind = ',' :: next)
    (hfields : Takes (fields? false next) fields last) :
    Takes (fields? start cs) ((String.ofList name, value) :: fields) last := by
  obtain ⟨f, hf, rfl, rfl⟩ := hname
  obtain ⟨g, hg, rfl, rfl⟩ := hvalue
  obtain ⟨g', hg', rfl, rfl⟩ := hfields
  rw [fields?]
  split
  · rename_i h'
    cases hcs.symm.trans h'
  · rename_i h'
    cases hcs.symm.trans h'
    simp only [hf, Option.bind_eq_bind, Option.bind_some]
    split
    · rename_i h'
      cases hcolon.symm.trans h'
      simp only [hg, Option.bind_some]
      split
      · rename_i h'
        cases h.symm.trans h'
      · rename_i h'
        cases h.symm.trans h'
        rw [hg']
        exact ⟨_, rfl, rfl, rfl⟩
      · rename_i hne
        exact absurd h (hne next)
    · rename_i hne
      exact absurd hcolon (hne colon)
  · rename_i hne
    exact absurd hcs (hne tail)

end

/-! ## Texts in quotes -/

/-- The unit of a control character is written with four digits. -/
theorem unit?_hexPair {n : Nat} (h : n < 0x20) :
    unit? '0' '0' (Nat.digitChar (n / 16)) (Nat.digitChar (n % 16)) = some n := by
  revert n
  decide

/-- A character is written as itself, with a letter after a backslash, or by its unit. -/
theorem escapeChar_cases (c : Char) :
    (c ≠ '"' ∧ c ≠ '\\' ∧ ¬ c.toNat < 0x20 ∧ escapeChar c = [c]) ∨
    (∃ e, e ≠ 'u' ∧ unescape? e = some c ∧ escapeChar c = ['\\', e]) ∨
    (c.toNat < 0x20 ∧ escapeChar c = '\\' :: 'u' :: '0' :: '0' :: hexPair c.toNat) := by
  have hbackspace (h : c.toNat = 0x8) : c = Char.ofNat 0x8 := by rw [← h, Char.ofNat_toNat]
  have hfeed (h : c.toNat = 0xC) : c = Char.ofNat 0xC := by rw [← h, Char.ofNat_toNat]
  unfold escapeChar
  split
  · exact .inr (.inl ⟨'"', by decide, by simp [*, unescape?], rfl⟩)
  split
  · exact .inr (.inl ⟨'\\', by decide, by simp [*, unescape?], rfl⟩)
  split
  · exact .inr (.inl ⟨'n', by decide, by simp [*, unescape?], rfl⟩)
  split
  · exact .inr (.inl ⟨'t', by decide, by simp [*, unescape?], rfl⟩)
  split
  · exact .inr (.inl ⟨'r', by decide, by simp [*, unescape?], rfl⟩)
  split
  · rename_i h
    exact .inr (.inl ⟨'b', by decide, by rw [hbackspace h]; rfl, rfl⟩)
  split
  · rename_i h
    exact .inr (.inl ⟨'f', by decide, by rw [hfeed h]; rfl, rfl⟩)
  split
  · rename_i h
    exact .inr (.inr ⟨h, rfl⟩)
  · rename_i hquote hback _ _ _ _ _ h
    exact .inl ⟨hquote, hback, h, rfl⟩

/-- **A character is read from its escape.** -/
theorem takes_quotedChar (c : Char) (rest : List Char) :
    Takes (quotedChar? (escapeChar c ++ rest)) c rest := by
  obtain ⟨-, hback, h, heq⟩ | ⟨e, he, hescape, heq⟩ | ⟨h, heq⟩ := escapeChar_cases c <;> rw [heq]
  · rw [List.singleton_append, quotedChar?, if_neg (not_or.2 ⟨h, hback⟩)]
    · exact ⟨_, rfl, rfl, rfl⟩
    · exact fun _ _ _ _ _ hc => absurd hc hback
    · exact fun _ _ hc => absurd hc hback
  · rw [List.cons_append, List.singleton_append, quotedChar?, hescape]
    · exact ⟨_, rfl, rfl, rfl⟩
    · exact fun _ _ _ _ _ hu => absurd hu he
  · have hunit : ofUnit? c.toNat = some c := by
      rw [ofUnit?, if_pos (.inl (by omega)), Char.ofNat_toNat]
    rw [hexPair]
    simp only [List.cons_append, List.nil_append]
    rw [quotedChar?, unit?_hexPair h, Option.bind_eq_bind, Option.bind_some, hunit]
    exact ⟨_, rfl, rfl, rfl⟩

/-- No character is written with a quote in front. -/
theorem escapeChar_ne_quote (c : Char) (cs rest : List Char) :
    escapeChar c ++ cs ≠ '"' :: rest := by
  obtain ⟨hquote, -, -, heq⟩ | ⟨e, -, -, heq⟩ | ⟨-, heq⟩ := escapeChar_cases c <;> rw [heq]
  · exact fun h => hquote (List.head_eq_of_cons_eq h)
  · simp
  · simp

/-- **A text is read from between its quotes.** -/
theorem takes_quoted (text rest : List Char) :
    Takes (quoted? (text.flatMap escapeChar ++ '"' :: rest)) text rest := by
  induction text with
  | nil =>
    rw [List.flatMap_nil, List.nil_append, quoted?]
    exact ⟨_, rfl, rfl, rfl⟩
  | cons c text ih =>
    rw [List.flatMap_cons, List.append_assoc]
    obtain ⟨f, hf, hvalue, hrest⟩ := takes_quotedChar c (text.flatMap escapeChar ++ '"' :: rest)
    rw [← hrest] at ih
    obtain ⟨g, hg, htext, hrest'⟩ := ih
    rw [quoted?, hf, Option.bind_eq_bind, Option.bind_some]
    · simp only [hg]
      exact ⟨_, rfl, by simp only [hvalue, htext], hrest'⟩
    · exact fun _ h => escapeChar_ne_quote c _ _ h

/-! ## Texts of values -/

/-- The characters are read as the value, after blanks and before anything that a number could not
go on with. They start with no blank and no closing bracket. -/
structure Spells (text : List Char) (value : Json) : Prop where
  takes : ∀ cs rest, skipSpace cs = text ++ rest → EndsNumber rest → Takes (value? cs) value rest
  starts : ∃ c cs, text = c :: cs ∧ isSpace c = false ∧ c ≠ ']'

/-- All characters are blanks. -/
def Blank (gap : List Char) : Prop :=
  ∀ c ∈ gap, isSpace c

theorem blank_nil : Blank [] := nofun

theorem skipSpace_cons {c : Char} (h : isSpace c = false) (rest : List Char) :
    skipSpace (c :: rest) = c :: rest := by
  rw [skipSpace, List.dropWhile_cons_of_neg (by simp [h])]

theorem Blank.skipSpace {gap : List Char} (h : Blank gap) (rest : List Char) :
    skipSpace (gap ++ rest) = Json.skipSpace rest := by
  rw [Json.skipSpace, List.dropWhile_append_of_pos h]
  rfl

/-- After blanks stands the character that is no blank. -/
theorem Blank.skipSpace_cons {gap : List Char} (h : Blank gap) {c : Char} (hc : isSpace c = false)
    (rest : List Char) : Json.skipSpace (gap ++ c :: rest) = c :: rest := by
  rw [h.skipSpace, Json.skipSpace_cons hc]

theorem endsNumber_cons {c : Char} (h : Text.isDigit c = false ∧ c ≠ '.' ∧ c ≠ 'e' ∧ c ≠ 'E')
    (rest : List Char) : EndsNumber (c :: rest) := by
  intro d hd
  cases hd
  exact h

/-- Neither a blank nor what may stand after a value goes on with a number. -/
theorem Blank.endsNumber {gap : List Char} (h : Blank gap) {c : Char}
    (hc : Text.isDigit c = false ∧ c ≠ '.' ∧ c ≠ 'e' ∧ c ≠ 'E') (rest : List Char) :
    EndsNumber (gap ++ c :: rest) := by
  cases gap with
  | nil => exact endsNumber_cons hc rest
  | cons d gap =>
    have hd : isSpace d := h d List.mem_cons_self
    simp only [isSpace, Bool.or_eq_true, beq_iff_eq, or_assoc] at hd
    apply endsNumber_cons
    rcases hd with rfl | rfl | rfl | rfl <;> decide

theorem Spells.skipSpace {gap text : List Char} {value : Json} (h : Spells text value)
    (hgap : Blank gap) (rest : List Char) :
    Json.skipSpace (gap ++ (text ++ rest)) = text ++ rest := by
  obtain ⟨c, cs, rfl, hspace, -⟩ := h.starts
  exact hgap.skipSpace_cons hspace _

theorem Spells.ne_bracket {text : List Char} {value : Json} (h : Spells text value)
    (rest t : List Char) : text ++ rest ≠ ']' :: t := by
  obtain ⟨c, cs, rfl, -, hne⟩ := h.starts
  exact fun ht => hne (List.head_eq_of_cons_eq ht)

/-- The text of a value is read after blanks. -/
theorem Spells.takes_of_blank {gap text rest : List Char} {value : Json} (h : Spells text value)
    (hgap : Blank gap) (hrest : EndsNumber rest) :
    Takes (value? (gap ++ (text ++ rest))) value rest :=
  h.takes _ rest (h.skipSpace hgap rest) hrest

/-- A whole text is read as the value that it spells. -/
theorem Spells.parse?_eq {text : String} {value : Json} (h : Spells text.toList value) :
    parse? text = some value := by
  have hspace : Json.skipSpace text.toList = text.toList ++ [] := by
    have := h.skipSpace blank_nil []
    rwa [List.append_nil] at this ⊢
  obtain ⟨f, hf, rfl, hrest⟩ := h.takes text.toList [] hspace nofun
  rw [parse?, hf, Option.bind_eq_bind, Option.bind_some, hrest]
  rfl

/-! ## Items and fields -/

section

variable {gap close rest : List Char}

/-- Items with commas between them, each behind the same blanks. -/
theorem takes_items {text : Json → List Char} (hgap : Blank gap) (hclose : Blank close)
    {items : List Json} (hne : items ≠ []) (h : ∀ item ∈ items, Spells (text item) item)
    (start : Bool) : Takes (items? start (gap ++
      (List.intercalate (',' :: gap) (items.map text) ++ (close ++ ']' :: rest)))) items rest := by
  induction items generalizing start with
  | nil => exact absurd rfl hne
  | cons item items ih =>
    have hitem := h item List.mem_cons_self
    cases items with
    | nil =>
      rw [List.map_singleton, List.intercalate_singleton]
      have hafter : EndsNumber (close ++ ']' :: rest) := hclose.endsNumber (by decide) rest
      apply takes_items_last _ (hitem.takes_of_blank hgap hafter)
        (hclose.skipSpace_cons (by decide) rest)
      rw [hitem.skipSpace hgap]
      exact hitem.ne_bracket _
    | cons next items =>
      have hafter (rest : List Char) : EndsNumber (',' :: (gap ++ rest)) :=
        endsNumber_cons (by decide) _
      have hitems := ih nofun (fun i hi => h i (List.mem_cons_of_mem _ hi)) false
      rw [List.map_cons, List.map_cons, List.intercalate_cons_cons, List.append_assoc,
        List.append_assoc, List.cons_append]
      apply takes_items_cons _ (hitem.takes_of_blank hgap (hafter _)) _ hitems
      · rw [hitem.skipSpace hgap]
        exact hitem.ne_bracket _
      · exact skipSpace_cons (by decide) _

theorem toList_quote (text : String) :
    (quote text).toList = '"' :: (text.toList.flatMap escapeChar ++ ['"']) := by
  rw [quote, String.toList_ofList]
  rfl

/-- A name, a colon and a value. -/
def fieldChars (space : List Char) (text : Json → List Char) (field : String × Json) : List Char :=
  (quote field.1).toList ++ ':' :: (space ++ text field.2)

/-- The name of a field is read after blanks, and behind it stand the colon and the value. -/
theorem takes_name {space : List Char} {text : Json → List Char} (hgap : Blank gap)
    (field : String × Json) (rest : List Char) : ∃ tail,
    skipSpace (gap ++ (fieldChars space text field ++ rest)) = '"' :: tail ∧
      Takes (quoted? tail) field.1.toList (':' :: (space ++ (text field.2 ++ rest))) := by
  refine ⟨_, ?_, takes_quoted field.1.toList (':' :: (space ++ (text field.2 ++ rest)))⟩
  rw [fieldChars, toList_quote]
  simp only [List.append_assoc, List.cons_append, List.nil_append]
  exact hgap.skipSpace_cons (by decide) _

theorem takes_fields {space : List Char} {text : Json → List Char} (hspace : Blank space)
    (hgap : Blank gap) (hclose : Blank close) {fields : List (String × Json)} (hne : fields ≠ [])
    (h : ∀ field ∈ fields, Spells (text field.2) field.2) (start : Bool) :
    Takes (fields? start (gap ++
      (List.intercalate (',' :: gap) (fields.map (fieldChars space text)) ++
        (close ++ '\x7d' :: rest)))) fields rest := by
  induction fields generalizing start with
  | nil => exact absurd rfl hne
  | cons field fields ih =>
    have hfield := h field List.mem_cons_self
    have hcolon (rest : List Char) : skipSpace (':' :: rest) = ':' :: rest :=
      skipSpace_cons (by decide) rest
    have hself : (String.ofList field.1.toList, field.2) = field := by rw [String.ofList_toList]
    cases fields with
    | nil =>
      rw [List.map_singleton, List.intercalate_singleton]
      have hafter : EndsNumber (close ++ '\x7d' :: rest) := hclose.endsNumber (by decide) rest
      obtain ⟨tail, hquote, hname⟩ := takes_name hgap field (close ++ '\x7d' :: rest)
      have htakes := takes_fields_last start hquote hname (hcolon _)
        (hfield.takes_of_blank hspace hafter) (hclose.skipSpace_cons (by decide) rest)
      rwa [hself] at htakes
    | cons next fields =>
      have hafter (rest : List Char) : EndsNumber (',' :: (gap ++ rest)) :=
        endsNumber_cons (by decide) _
      have hfields := ih nofun (fun f hf => h f (List.mem_cons_of_mem _ hf)) false
      rw [List.map_cons, List.map_cons, List.intercalate_cons_cons, List.append_assoc,
        List.append_assoc, List.cons_append]
      obtain ⟨tail, hquote, hname⟩ := takes_name hgap field (',' :: (gap ++
        (List.intercalate (',' :: gap) ((next :: fields).map (fieldChars space text)) ++
          (close ++ '\x7d' :: rest))))
      have htakes := takes_fields_cons start hquote hname (hcolon _)
        (hfield.takes_of_blank hspace (hafter _)) (skipSpace_cons (by decide) _) hfields
      rwa [hself] at htakes

end

/-! ## Values -/

theorem spells_string (text : String) : Spells (quote text).toList (.string text) := by
  constructor
  · intro cs rest hcs _
    rw [toList_quote, List.cons_append, List.append_assoc, List.singleton_append] at hcs
    have htakes := takes_value_of_quote hcs (takes_quoted text.toList rest)
    rwa [String.ofList_toList] at htakes
  · rw [toList_quote]
    exact ⟨_, _, rfl, by decide, by decide⟩

/-- A number or a word is read if it starts like one. -/
theorem spells_of_start {c : Char} {text : List Char} {value : Json} (hc : isSpace c = false)
    (hne : c ∉ ['"', '[', ']', '\x7b'])
    (h : ∀ rest, EndsNumber rest →
      Takes ((number? (c :: text ++ rest)).or (word? (c :: text ++ rest))) value rest) :
    Spells (c :: text) value := by
  simp only [List.mem_cons, List.not_mem_nil, or_false, not_or] at hne
  obtain ⟨hquote, hopen, hclose, hbrace⟩ := hne
  constructor
  · intro cs rest hcs hrest
    apply takes_value_of_start <;> rw [hcs]
    · exact fun _ ht => hquote (List.head_eq_of_cons_eq ht)
    · exact fun _ ht => hopen (List.head_eq_of_cons_eq ht)
    · exact fun _ ht => hbrace (List.head_eq_of_cons_eq ht)
    · exact h rest hrest
  · exact ⟨c, text, rfl, hc, hclose⟩

theorem spells_null : Spells "null".toList .null :=
  spells_of_start (by decide) (by decide) fun _ _ => ⟨_, rfl, rfl, rfl⟩

theorem spells_bool (b : Bool) : Spells (if b then "true" else "false").toList (.bool b) := by
  cases b with
  | true => exact spells_of_start (by decide) (by decide) fun _ _ => ⟨_, rfl, rfl, rfl⟩
  | false => exact spells_of_start (by decide) (by decide) fun _ _ => ⟨_, rfl, rfl, rfl⟩

theorem spells_array_nil : Spells ['[', ']'] (.array []) := by
  constructor
  · intro cs rest hcs _
    exact takes_value_of_bracket hcs (takes_items_nil (skipSpace_cons (by decide) rest))
  · exact ⟨_, _, rfl, by decide, by decide⟩

theorem spells_object_nil : Spells ['\x7b', '\x7d'] (.object []) := by
  constructor
  · intro cs rest hcs _
    exact takes_value_of_brace hcs (takes_fields_nil (skipSpace_cons (by decide) rest))
  · exact ⟨_, _, rfl, by decide, by decide⟩

section

variable {gap close : List Char}

theorem spells_array {text : Json → List Char} (hgap : Blank gap) (hclose : Blank close)
    {items : List Json} (hne : items ≠ []) (h : ∀ item ∈ items, Spells (text item) item) :
    Spells ('[' :: (gap ++ (List.intercalate (',' :: gap) (items.map text) ++ (close ++ [']']))))
      (.array items) := by
  constructor
  · intro cs rest hcs _
    simp only [List.cons_append, List.append_assoc, List.nil_append] at hcs
    exact takes_value_of_bracket hcs (takes_items hgap hclose hne h true)
  · exact ⟨_, _, rfl, by decide, by decide⟩

theorem spells_object {space : List Char} {text : Json → List Char} (hspace : Blank space)
    (hgap : Blank gap) (hclose : Blank close) {fields : List (String × Json)} (hne : fields ≠ [])
    (h : ∀ field ∈ fields, Spells (text field.2) field.2) :
    Spells ('\x7b' :: (gap ++
      (List.intercalate (',' :: gap) (fields.map (fieldChars space text)) ++ (close ++ ['\x7d']))))
      (.object fields) := by
  constructor
  · intro cs rest hcs _
    simp only [List.cons_append, List.append_assoc, List.nil_append] at hcs
    exact takes_value_of_brace hcs (takes_fields hspace hgap hclose hne h true)
  · exact ⟨_, _, rfl, by decide, by decide⟩

end

/-- A number starts with its sign or a digit. -/
theorem spells_of_number {text : List Char} {value : Json}
    (hstart : ∃ c cs, text = c :: cs ∧ (c = '-' ∨ Text.isDigit c))
    (h : ∀ rest, EndsNumber rest → Takes (number? (text ++ rest)) value rest) :
    Spells text value := by
  obtain ⟨c, cs, rfl, hc⟩ := hstart
  have hne (d : Char) (hd : d ∈ [' ', '\n', '\t', '\r', '"', '[', ']', '\x7b']) : c ≠ d := by
    rintro rfl
    simp only [List.mem_cons, List.not_mem_nil, or_false] at hd
    rcases hd with rfl | rfl | rfl | rfl | rfl | rfl | rfl | rfl <;> revert hc <;> decide
  apply spells_of_start
  · simp [isSpace, hne]
  · simp [hne]
  · intro rest hrest
    obtain ⟨f, hf, hvalue⟩ := h rest hrest
    rw [hf]
    exact ⟨f, rfl, hvalue⟩

theorem spells_count {n : Nat} (h : n < countLimit) : Spells (toString n).toList (.count n) := by
  refine spells_of_number ?_ fun _ => takes_count h
  have hdigits : (toString n).toList = Nat.toDigits 10 n := Nat.toList_repr
  obtain ⟨c, cs, hcs⟩ := List.exists_cons_of_ne_nil (Nat.toDigits_ne_nil (b := 10) (n := n))
  rw [hdigits, hcs]
  exact ⟨c, cs, rfl, .inr (Text.isDigit_of_mem_toDigits (hcs ▸ List.mem_cons_self))⟩

theorem spells_number {x : Float} (h : x.isFinite) : Spells (jsonNumber x).toList (.number x) :=
  spells_of_number (jsonNumber_eq_cons h) fun _ => takes_jsonNumber h

/-! ## Both layouts -/

/-- The value can be told by a text: its counts have 64 bits, and its doubles are finite. -/
inductive IsWritable : Json → Prop
  | null : IsWritable .null
  | bool (b : Bool) : IsWritable (.bool b)
  | count {n : Nat} : n < countLimit → IsWritable (.count n)
  | number {x : Float} : x.isFinite → IsWritable (.number x)
  | string (text : String) : IsWritable (.string text)
  | array {items : List Json} : (∀ item ∈ items, IsWritable item) → IsWritable (.array items)
  | object {fields : List (String × Json)} : (∀ field ∈ fields, IsWritable field.2) →
      IsWritable (.object fields)

theorem toList_compactItems (items : List Json) :
    (compactItems items).map String.toList = items.map fun item => item.compact.toList := by
  induction items with
  | nil => rfl
  | cons item items ih => rw [compactItems, List.map_cons, ih, List.map_cons]

theorem toList_compactFields (fields : List (String × Json)) :
    (compactFields fields).map String.toList =
      fields.map (fieldChars [] fun value => value.compact.toList) := by
  induction fields with
  | nil => rfl
  | cons field fields ih =>
    rw [compactFields, List.map_cons, ih, List.map_cons, fieldChars, String.toList_append,
      String.toList_append, List.append_assoc]
    rfl

/-- **The value on one line is read back.** -/
theorem IsWritable.spells_compact {value : Json} (h : value.IsWritable) :
    Spells value.compact.toList value := by
  induction h with
  | null => exact spells_null
  | bool b => exact spells_bool b
  | count h => exact spells_count h
  | number h => exact spells_number h
  | string text => exact spells_string text
  | @array items _ ih =>
    cases items with
    | nil => exact spells_array_nil
    | cons item items =>
      rw [compact, String.toList_append, String.toList_append, String.toList_intercalate,
        toList_compactItems, List.append_assoc]
      exact spells_array blank_nil blank_nil (List.cons_ne_nil _ _) ih
  | @object fields _ ih =>
    cases fields with
    | nil => exact spells_object_nil
    | cons field fields =>
      rw [compact, String.toList_append, String.toList_append, String.toList_intercalate,
        toList_compactFields, List.append_assoc]
      exact spells_object blank_nil blank_nil blank_nil (List.cons_ne_nil _ _) ih

theorem toList_prettyItems (level : Nat) (items : List Json) :
    (prettyItems level items).map String.toList =
      items.map fun item => (item.prettyAt level).toList := by
  induction items with
  | nil => rfl
  | cons item items ih => rw [prettyItems, List.map_cons, ih, List.map_cons]

theorem toList_prettyFields (level : Nat) (fields : List (String × Json)) :
    (prettyFields level fields).map String.toList =
      fields.map (fieldChars [' '] fun value => (value.prettyAt level).toList) := by
  induction fields with
  | nil => rfl
  | cons field fields ih =>
    rw [prettyFields, List.map_cons, ih, List.map_cons, fieldChars, String.toList_append,
      String.toList_append, List.append_assoc]
    rfl

/-- The blanks of a level stand behind the opening bracket and each comma. -/
theorem toList_bracketed {opening closing : String} (level : Nat) {items : List String}
    (h : items ≠ []) : (bracketed opening closing level items).toList = opening.toList ++
      ((newLine (level + 1)).toList ++
        (List.intercalate (',' :: (newLine (level + 1)).toList) (items.map String.toList) ++
          ((newLine level).toList ++ closing.toList))) := by
  have hempty : ¬ items.isEmpty := by simpa using h
  rw [bracketed, if_neg hempty]
  simp only [String.toList_append, String.toList_intercalate, List.append_assoc]
  rfl

theorem blank_newLine (level : Nat) : Blank (newLine level).toList := by
  have hchars : (newLine level).toList = '\n' :: List.replicate (2 * level) ' ' := by
    simp [newLine]
  intro c hc
  rw [hchars] at hc
  obtain rfl | hc := List.mem_cons.1 hc
  · decide
  · obtain rfl := List.eq_of_mem_replicate hc
    decide

/-- **The value over several lines is read back.** -/
theorem IsWritable.spells_prettyAt {value : Json} (h : value.IsWritable) (level : Nat) :
    Spells (value.prettyAt level).toList value := by
  induction h generalizing level with
  | null => exact spells_null
  | bool b => exact spells_bool b
  | count h => exact spells_count h
  | number h => exact spells_number h
  | string text => exact spells_string text
  | @array items _ ih =>
    cases items with
    | nil =>
      rw [prettyAt, prettyItems, bracketed, List.isEmpty_nil, if_pos rfl]
      exact spells_array_nil
    | cons item items =>
      rw [prettyAt, toList_bracketed level (by simp [prettyItems]), toList_prettyItems]
      exact spells_array (blank_newLine _) (blank_newLine _) (List.cons_ne_nil _ _)
        fun item hitem => ih item hitem (level + 1)
  | @object fields _ ih =>
    cases fields with
    | nil =>
      rw [prettyAt, prettyFields, bracketed, List.isEmpty_nil, if_pos rfl]
      exact spells_object_nil
    | cons field fields =>
      have hspace : Blank [' '] := by simp [Blank, isSpace]
      rw [prettyAt, toList_bracketed level (by simp [prettyFields]), toList_prettyFields]
      exact spells_object hspace (blank_newLine _) (blank_newLine _) (List.cons_ne_nil _ _)
        fun field hfield => ih field hfield (level + 1)

/-- **A writable value is read back from its text**, in either layout. -/
theorem IsWritable.parse?_compact {value : Json} (h : value.IsWritable) :
    parse? value.compact = some value :=
  h.spells_compact.parse?_eq

theorem IsWritable.parse?_pretty {value : Json} (h : value.IsWritable) :
    parse? value.pretty = some value :=
  (h.spells_prettyAt 0).parse?_eq

end RealRoots.Json
