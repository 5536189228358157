import Mathlib
import RealRoots.Proofs.Results
import RealRoots.Proofs.Tokens.Spelling

/-!
# A text is cut into blanks and longest tokens

A piece of a text is a token with the blanks before it, and the token is the longest that starts
where it stands. What is left after the last piece is blank, or it is blanks and then a character
with which no token starts.

* `tokensFrom_piece`, `tokensFrom_joined`: one piece, and then any number of pieces, in front of a
  text.
* `exists_pieces`: the pieces of a text, by induction on its length.
* `Piece.IsCut.reach`: how far a longest token reaches, by its kind.
* `tokenize_partition`: the tokens are those of the pieces, and the error names the character where
  they end.
-/

namespace RealRoots

/-- A token of a text, and the blanks before it. -/
structure Piece where
  gap : List Char
  kind : Token.Kind
  spelling : List Char

namespace Piece

def chars (p : Piece) : List Char :=
  p.gap ++ p.spelling

/-- Blanks, and the text of a token of that kind. In front of `rest` no longer token starts there.
-/
structure IsCut (p : Piece) (rest : List Char) : Prop where
  gap : ∀ c ∈ p.gap, Text.isBlank c
  spelled : p.kind.SpelledAs p.spelling
  longest : ∀ kind cs, Token.Kind.SpelledAs kind cs → cs <+: p.spelling ++ rest →
    cs.length ≤ p.spelling.length

/-- The text of the pieces. -/
def joined (pieces : List Piece) : List Char :=
  pieces.flatMap chars

/-- Each piece is cut as it should be, in front of the pieces after it and `rest`. -/
def AllCut : List Piece → List Char → Prop
  | [], _ => True
  | p :: pieces, rest => p.IsCut (joined pieces ++ rest) ∧ AllCut pieces rest

/-- The tokens of the pieces, of which the first starts after `position` bytes. -/
def tokens (position : Nat) : List Piece → List Token
  | [] => []
  | p :: pieces =>
    ⟨p.kind, position + Text.byteCount p.gap⟩ :: tokens (position + Text.byteCount p.chars) pieces

/-- How far a token reaches in front of `rest`: a name goes on as long as a name may, a number is
the longest numeral, and a single star is not the first of two. -/
structure Reach (p : Piece) (rest : List Char) : Prop where
  identifier : ∀ name, p.kind = .identifier name →
    String.ofList p.spelling = name ∧
      (p.spelling ++ rest).takeWhile Text.continuesName = p.spelling
  number : ∀ value, p.kind = .number value →
    IsNumeral p.spelling ∧ readFloat? (String.ofList p.spelling) = some value ∧
      ∀ cs, IsNumeral cs → cs <+: p.spelling ++ rest → cs.length ≤ p.spelling.length
  star : p.kind = .star → p.spelling = ['*'] ∧ rest.head? ≠ some '*'

end Piece

/-- No token starts the text. -/
def StartsNoToken (cs : List Char) : Prop :=
  ∀ kind spelling, Token.Kind.SpelledAs kind spelling → ¬ spelling <+: cs

/-! ## What is read, and the longest token -/

namespace Lexeme

theorem spelling_prefix {cs : List Char} (l : Lexeme cs) : l.spelling <+: cs :=
  ⟨l.rest, l.spelling_append_rest⟩

theorem longest_of_read? {cs : List Char} {l : Lexeme cs} (h : read? cs = some l)
    {kind : Token.Kind} {spelling : List Char} (hspelled : kind.SpelledAs spelling)
    (hstart : spelling <+: cs) : spelling.length ≤ l.spelling.length := by
  obtain ⟨rest, rfl⟩ := hstart
  obtain ⟨l', hl', hlength⟩ := exists_read?_append hspelled rest
  rwa [Option.some.inj (h.symm.trans hl')]

/-- **Nothing is read exactly where no token starts.** -/
theorem read?_eq_none_iff {cs : List Char} : read? cs = none ↔ StartsNoToken cs := by
  constructor
  · rintro h kind spelling hspelled ⟨rest, rfl⟩
    obtain ⟨l, hl, -⟩ := exists_read?_append hspelled rest
    rw [h] at hl
    cases hl
  · intro h
    cases hread : read? cs with
    | none => rfl
    | some l =>
      obtain ⟨kind, -, hspelled⟩ := spelledAs_of_read? hread
      exact absurd l.spelling_prefix (h kind _ hspelled)

end Lexeme

/-! ## One piece -/

/-- The longest token of a text is what is read. -/
theorem Lexeme.read?_of_longest {kind : Token.Kind} {spelling rest : List Char}
    (hspelled : kind.SpelledAs spelling)
    (hlongest : ∀ kind' cs, Token.Kind.SpelledAs kind' cs → cs <+: spelling ++ rest →
      cs.length ≤ spelling.length) :
    ∃ l, read? (spelling ++ rest) = some l ∧ l.kind? = some kind ∧ l.spelling = spelling ∧
      l.rest = rest := by
  obtain ⟨l, hl, hle⟩ := exists_read?_append hspelled rest
  obtain ⟨kind', hkind', hspelled'⟩ := spelledAs_of_read? hl
  have hge := hlongest kind' l.spelling hspelled' l.spelling_prefix
  obtain ⟨hspelling, hrest⟩ := List.append_inj l.spelling_append_rest (le_antisymm hge hle)
  rw [hspelling] at hspelled'
  exact ⟨l, hl, hspelled'.unique hspelled ▸ hkind', hspelling, hrest⟩

theorem tokensFrom_of_read? {cs : List Char} {l : Lexeme cs} {kind : Token.Kind}
    (hblank : ∀ c ∈ cs.head?, Text.isBlank c = false) (hread : Lexeme.read? cs = some l)
    (hkind : l.kind? = some kind) (position : Nat) :
    tokensFrom position cs = (do
      let tokens ← tokensFrom (position + Text.byteCount l.spelling) l.rest
      .ok (⟨kind, position⟩ :: tokens)) := by
  cases cs with
  | nil => cases hread
  | cons c cs =>
    rw [tokensFrom, if_neg (by simp [hblank c rfl]), hread]
    simp only [hkind]

theorem head?_append_of_spelledAs {kind : Token.Kind} {spelling : List Char}
    (h : kind.SpelledAs spelling) (rest : List Char) :
    ∀ c ∈ (spelling ++ rest).head?, Text.isBlank c = false := by
  obtain ⟨c, cs, rfl, hblank⟩ := h.exists_cons
  simpa using hblank

/-- **A piece in front of a text gives its token in front of the tokens of the text.** -/
theorem tokensFrom_piece {p : Piece} {rest : List Char} (h : p.IsCut rest) (position : Nat) :
    tokensFrom position (p.chars ++ rest) = (do
      let tokens ← tokensFrom (position + Text.byteCount p.chars) rest
      .ok (⟨p.kind, position + Text.byteCount p.gap⟩ :: tokens)) := by
  obtain ⟨l, hread, hkind, hspelling, hrest⟩ := Lexeme.read?_of_longest h.spelled h.longest
  rw [Piece.chars, List.append_assoc, tokensFrom_blanks h.gap,
    tokensFrom_of_read? (head?_append_of_spelledAs h.spelled rest) hread hkind, hspelling, hrest,
    Text.byteCount_append, Nat.add_assoc]

/-! ## All pieces -/

theorem joined_cons (p : Piece) (pieces : List Piece) :
    Piece.joined (p :: pieces) = p.chars ++ Piece.joined pieces := rfl

/-- **The tokens of the pieces come first, and then those of the rest.** -/
theorem tokensFrom_joined {pieces : List Piece} {rest : List Char}
    (h : Piece.AllCut pieces rest) (position : Nat) :
    tokensFrom position (Piece.joined pieces ++ rest) = (do
      let tokens ← tokensFrom (position + Text.byteCount (Piece.joined pieces)) rest
      .ok (Piece.tokens position pieces ++ tokens)) := by
  induction pieces generalizing position with
  | nil =>
    change tokensFrom position rest = (tokensFrom position rest >>= fun tokens => .ok tokens)
    cases tokensFrom position rest <;> rfl
  | cons p pieces ih =>
    obtain ⟨hp, hpieces⟩ := h
    rw [joined_cons, List.append_assoc, tokensFrom_piece hp, ih hpieces, Text.byteCount_append,
      Nat.add_assoc]
    cases tokensFrom _ rest <;> rfl

/-- How a text ends after its tokens: with blanks, or at a character that starts no token. -/
inductive Ends : List Char → Prop
  | blank {last : List Char} : (∀ c ∈ last, Text.isBlank c) → Ends last
  | stuck {gap after : List Char} {c : Char} : (∀ d ∈ gap, Text.isBlank d) →
      Text.isBlank c = false → StartsNoToken (c :: after) → Ends (gap ++ c :: after)

/-- Blanks at the front belong to the next piece. -/
theorem exists_pieces_cons {c : Char} (hc : Text.isBlank c) {cs : List Char}
    (h : ∃ pieces rest, cs = Piece.joined pieces ++ rest ∧ Piece.AllCut pieces rest ∧ Ends rest) :
    ∃ pieces rest, c :: cs = Piece.joined pieces ++ rest ∧ Piece.AllCut pieces rest ∧
      Ends rest := by
  obtain ⟨_ | ⟨p, pieces⟩, rest, rfl, hcut, hends⟩ := h
  · refine ⟨[], c :: cs, rfl, trivial, ?_⟩
    cases hends with
    | blank hblank => exact .blank (List.forall_mem_cons.2 ⟨hc, hblank⟩)
    | @stuck gap after d hgap hd hstuck =>
      exact @Ends.stuck (c :: gap) after d (List.forall_mem_cons.2 ⟨hc, hgap⟩) hd hstuck
  · refine ⟨{ p with gap := c :: p.gap } :: pieces, rest, rfl, ⟨?_, hcut.2⟩, hends⟩
    exact { hcut.1 with gap := List.forall_mem_cons.2 ⟨hc, hcut.1.gap⟩ }

/-- **Every text is cut into pieces**, up to its end or to a character that starts no token. -/
theorem exists_pieces (cs : List Char) :
    ∃ pieces rest, cs = Piece.joined pieces ++ rest ∧ Piece.AllCut pieces rest ∧ Ends rest := by
  match cs with
  | [] => exact ⟨[], [], rfl, trivial, .blank (by simp)⟩
  | c :: cs =>
    by_cases hc : Text.isBlank c
    · exact exists_pieces_cons hc (exists_pieces cs)
    · cases hread : Lexeme.read? (c :: cs) with
      | none =>
        refine ⟨[], c :: cs, rfl, trivial, ?_⟩
        exact @Ends.stuck [] cs c (by simp) (by simpa using hc) (Lexeme.read?_eq_none_iff.1 hread)
      | some l =>
        have hlt : l.rest.length ≤ cs.length := Nat.le_of_lt_succ l.rest_length_lt
        obtain ⟨pieces, rest, hrest, hcut, hends⟩ := exists_pieces l.rest
        obtain ⟨kind, -, hspelled⟩ := Lexeme.spelledAs_of_read? hread
        have htext : c :: cs = l.spelling ++ (Piece.joined pieces ++ rest) := by
          rw [← hrest, l.spelling_append_rest]
        refine ⟨⟨[], kind, l.spelling⟩ :: pieces, rest, ?_, ⟨⟨by simp, hspelled, ?_⟩, hcut⟩, hends⟩
        · rw [joined_cons, List.append_assoc]
          exact htext
        · intro kind' spelling hspelled' hstart
          exact Lexeme.longest_of_read? hread hspelled' (htext ▸ hstart)
termination_by cs.length

/-! ## Where a token ends -/

namespace Piece

variable {gap rest : List Char} (hgap : ∀ c ∈ gap, Text.isBlank c)

include hgap

theorem isCut_of_read? {kind : Token.Kind} {spelling : List Char} {l : Lexeme (spelling ++ rest)}
    (hread : Lexeme.read? (spelling ++ rest) = some l) (hkind : l.kind? = some kind)
    (hspelling : l.spelling = spelling) : (⟨gap, kind, spelling⟩ : Piece).IsCut rest where
  gap := hgap
  spelled := by
    obtain ⟨kind', hkind', hspelled⟩ := Lexeme.spelledAs_of_read? hread
    rw [hspelling, Option.some.inj (hkind'.symm.trans hkind)] at hspelled
    exact hspelled
  longest kind' cs hspelled hstart := by
    have hle := Lexeme.longest_of_read? hread hspelled hstart
    rwa [hspelling] at hle

theorem isCut_number {l : Literal} (hl : l.WellFormed) (hrest : EndsNumber rest) :
    (⟨gap, .number l.toDecimal.toFloat, l.spelling⟩ : Piece).IsCut rest := by
  have hstarts := Lexeme.startsNumber_append ⟨l, hl, rfl⟩ rest
  have hscan := Literal.scan_spelling_append hl hrest
  refine isCut_of_read? hgap (Lexeme.read?_of_startsNumber hstarts) ?_ ?_
  · simp only [Lexeme.number, hscan, Literal.readFloat?_spelling hl, Option.map_some]
  · simp only [Lexeme.number, hscan]

theorem isCut_name {name : String} {c : Char} {cs : List Char} (hname : name.toList = c :: cs)
    (hstarts : Text.startsName c) (hcontinues : ∀ d ∈ cs, Text.continuesName d)
    (hrest : ∀ d ∈ rest.head?, Text.continuesName d = false) :
    (⟨gap, .identifier name, name.toList⟩ : Piece).IsCut rest := by
  obtain rfl : name = String.ofList (c :: cs) := by rw [← hname, String.ofList_toList]
  have htake : (cs ++ rest).takeWhile Text.continuesName = cs := Text.takeWhile_run hcontinues hrest
  rw [hname]
  refine isCut_of_read? hgap (Lexeme.read?_of_startsName (cs ++ rest) hstarts) ?_ ?_
  · simp only [Lexeme.name, htake]
  · simp only [Lexeme.name, htake]

theorem isCut_sign {kind : Token.Kind} {spelling : List Char}
    (h : Token.Kind.ofSign? spelling = some kind) (hstar : kind = .star → rest.head? ≠ some '*') :
    (⟨gap, kind, spelling⟩ : Piece).IsCut rest := by
  obtain ⟨l, hl, hkind, hspelling⟩ := Lexeme.exists_sign?_eq h hstar
  refine isCut_of_read? hgap ?_ hkind hspelling
  rw [← hl]
  obtain ⟨c, cs, rfl, hc⟩ := Token.Kind.exists_cons_of_ofSign? h
  exact Lexeme.read?_of_startsSign _ hc

end Piece

/-! ## How far tokens reach -/

namespace Piece.IsCut

variable {p : Piece} {rest : List Char} (h : p.IsCut rest)

include h

theorem not_spelledAs_concat {c : Char} {rest' : List Char} (hrest : rest = c :: rest')
    (kind : Token.Kind) : ¬ kind.SpelledAs (p.spelling ++ [c]) := by
  intro hspelled
  have hlength := h.longest kind _ hspelled ⟨rest', by simp [hrest]⟩
  simp at hlength

theorem takeWhile_continuesName {name : String} (hkind : p.kind = .identifier name) :
    (p.spelling ++ rest).takeWhile Text.continuesName = p.spelling := by
  obtain ⟨-, c, cs, hspelling, hstarts, hcontinues⟩ := (hkind ▸ h.spelled).isName
  have hall : ∀ d ∈ p.spelling, Text.continuesName d := by
    rw [hspelling]
    exact List.forall_mem_cons.2 ⟨Text.continuesName_of_startsName hstarts, hcontinues⟩
  refine Text.takeWhile_run hall fun d hd => Bool.eq_false_iff.2 fun hcontinue => ?_
  -- A character that the name could go on with would make it longer.
  obtain ⟨rest', hrest⟩ := List.head?_eq_some_iff.1 hd
  refine h.not_spelledAs_concat hrest (.identifier (String.ofList (c :: (cs ++ [d])))) ?_
  rw [hspelling, List.cons_append]
  exact .identifier hstarts (List.forall_mem_append.2 ⟨hcontinues, by simpa using hcontinue⟩)

/-- **The longest token reaches as far as its kind allows.** -/
theorem reach : p.Reach rest where
  identifier _ hkind := ⟨(hkind ▸ h.spelled).isName.1, h.takeWhile_continuesName hkind⟩
  number _ hkind := by
    obtain ⟨hnumeral, hvalue⟩ := (hkind ▸ h.spelled).isNumeral
    refine ⟨hnumeral, hvalue, fun cs hcs hstart => ?_⟩
    obtain ⟨value, hspelled⟩ := Token.Kind.exists_spelledAs_of_isNumeral hcs
    exact h.longest _ cs hspelled hstart
  star hkind := by
    have hspelling := (hkind ▸ h.spelled).eq_star
    refine ⟨hspelling, fun hhead => ?_⟩
    obtain ⟨rest', hrest⟩ := List.head?_eq_some_iff.1 hhead
    refine h.not_spelledAs_concat hrest .caret ?_
    rw [hspelling]
    exact .sign rfl

end Piece.IsCut

/-! ## The tokens of a text -/

section

variable {text : String} {pieces : List Piece}

theorem tokenize_of_blank {last : List Char} (htext : text.toList = Piece.joined pieces ++ last)
    (hcut : Piece.AllCut pieces last) (hlast : ∀ c ∈ last, Text.isBlank c) :
    tokenize text = .ok (Piece.tokens 0 pieces) := by
  rw [tokenize, htext, tokensFrom_joined hcut, tokensFrom_of_blank hlast, ok_bind, List.append_nil]

theorem tokenize_of_stuck {gap after : List Char} {c : Char}
    (htext : text.toList = Piece.joined pieces ++ (gap ++ c :: after))
    (hcut : Piece.AllCut pieces (gap ++ c :: after)) (hgap : ∀ d ∈ gap, Text.isBlank d)
    (hc : Text.isBlank c = false) (hstuck : StartsNoToken (c :: after)) :
    tokenize text =
      .error (.unexpectedCharacter c (Text.byteCount (Piece.joined pieces ++ gap))) := by
  rw [tokenize, htext, tokensFrom_joined hcut, tokensFrom_blanks hgap, tokensFrom,
    if_neg (by simp [hc]), Lexeme.read?_eq_none_iff.2 hstuck, Text.byteCount_append, Nat.zero_add]
  rfl

theorem tokenize_eq_ok_iff {tokens : List Token} : tokenize text = .ok tokens ↔
    ∃ pieces last, text.toList = Piece.joined pieces ++ last ∧ Piece.AllCut pieces last ∧
      (∀ c ∈ last, Text.isBlank c) ∧ tokens = Piece.tokens 0 pieces := by
  constructor
  · intro h
    obtain ⟨pieces, rest, htext, hcut, hends⟩ := exists_pieces text.toList
    cases hends with
    | blank hblank =>
      rw [tokenize_of_blank htext hcut hblank] at h
      exact ⟨pieces, rest, htext, hcut, hblank, (Except.ok.inj h).symm⟩
    | stuck hgap hc hstuck =>
      rw [tokenize_of_stuck htext hcut hgap hc hstuck] at h
      cases h
  · rintro ⟨pieces, last, htext, hcut, hlast, rfl⟩
    exact tokenize_of_blank htext hcut hlast

theorem tokenize_eq_error_iff {e : FormulaError} : tokenize text = .error e ↔
    ∃ pieces gap c after, text.toList = Piece.joined pieces ++ (gap ++ c :: after) ∧
      Piece.AllCut pieces (gap ++ c :: after) ∧ (∀ d ∈ gap, Text.isBlank d) ∧
      Text.isBlank c = false ∧ StartsNoToken (c :: after) ∧
      e = .unexpectedCharacter c (Text.byteCount (Piece.joined pieces ++ gap)) := by
  constructor
  · intro h
    obtain ⟨pieces, rest, htext, hcut, hends⟩ := exists_pieces text.toList
    cases hends with
    | blank hblank =>
      rw [tokenize_of_blank htext hcut hblank] at h
      cases h
    | @stuck gap after c hgap hc hstuck =>
      rw [tokenize_of_stuck htext hcut hgap hc hstuck] at h
      exact ⟨pieces, gap, c, after, htext, hcut, hgap, hc, hstuck, (Except.error.inj h).symm⟩
  · rintro ⟨pieces, gap, c, after, htext, hcut, hgap, hc, hstuck, rfl⟩
    exact tokenize_of_stuck htext hcut hgap hc hstuck

end

/-- **Tokens are a partition of the text.** A text that is blanks and longest tokens gives these,
each at the byte at which it starts. Any other text is such a partition up to a character at which
no token starts, and the error names that character and the byte at which it stands. What a token is
follows from its text alone, and every numeral is read as a double, so that none is refused. -/
theorem tokenize_partition (text : String) :
    (∀ tokens, tokenize text = .ok tokens ↔
      ∃ pieces last, text.toList = Piece.joined pieces ++ last ∧ Piece.AllCut pieces last ∧
        (∀ c ∈ last, Text.isBlank c) ∧ tokens = Piece.tokens 0 pieces) ∧
    (∀ e, tokenize text = .error e ↔
      ∃ pieces gap c after, text.toList = Piece.joined pieces ++ (gap ++ c :: after) ∧
        Piece.AllCut pieces (gap ++ c :: after) ∧ (∀ d ∈ gap, Text.isBlank d) ∧
        Text.isBlank c = false ∧ StartsNoToken (c :: after) ∧
        e = .unexpectedCharacter c (Text.byteCount (Piece.joined pieces ++ gap))) ∧
    (∀ number position, tokenize text ≠ .error (.invalidNumber number position)) ∧
    (∀ p rest, Piece.IsCut p rest → p.Reach rest) ∧
    (∀ kind kind' cs, Token.Kind.SpelledAs kind cs → Token.Kind.SpelledAs kind' cs → kind = kind') ∧
    (∀ cs, IsNumeral cs → ∃ value, readFloat? (String.ofList cs) = some value) := by
  refine ⟨fun _ => tokenize_eq_ok_iff, fun _ => tokenize_eq_error_iff, ?_, fun _ _ h => h.reach,
    fun _ _ _ h h' => h.unique h', ?_⟩
  · intro number position h
    obtain ⟨_, _, _, _, -, -, -, -, -, heq⟩ := tokenize_eq_error_iff.1 h
    cases heq
  · intro cs h
    obtain ⟨value, hspelled⟩ := Token.Kind.exists_spelledAs_of_isNumeral h
    exact ⟨value, hspelled.isNumeral.2⟩

/-- A mark without digits is no exponent, and positions count bytes. -/
example : (tokenize "2e+ π**.5").toOption.map (List.map Token.position) =
    some [0, 1, 2, 4, 6, 8] := by
  decide +kernel

end RealRoots
