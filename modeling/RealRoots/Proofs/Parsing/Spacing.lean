import RealRoots.Formula
import RealRoots.Proofs.Json.Storable
import RealRoots.Proofs.Parsing.Exactness
import RealRoots.Proofs.Parsing.Positions
import RealRoots.Proofs.Tokens.Spacing

/-!
# Blanks between tokens do not matter

**Theorem (`parse_of_spacedOut`).** A text with blanks added at its start, at its end or between its
tokens has the same tokens, and parsing gives the same tree, or the same error at the place to which
its token was moved. In particular the source of a formula, which is its trimmed text, is read as
that formula again, and so is its JSON.

The wider text is cut into the same tokens, each at a place of its own
(`Piece.exists_tokens_eq_map_move`), and the parser moves with the tokens (`Phrase.moves`).
-/

namespace RealRoots

open Grammar

/-! ## Where the tokens stand -/

namespace Piece

variable {pieces pieces' : List Piece} {rest : List Char}

theorem le_position_of_mem_tokens {n : Nat} {token : Token} (h : token ∈ tokens n pieces) :
    n ≤ token.position := by
  induction pieces generalizing n with
  | nil => cases h
  | cons p pieces ih =>
    obtain rfl | h := List.mem_cons.1 h
    · exact Nat.le_add_right _ _
    · exact Nat.le_trans (Nat.le_add_right _ _) (ih h)

theorem IsCut.byteCount_gap_lt {p : Piece} (h : p.IsCut rest) :
    Text.byteCount p.gap < Text.byteCount p.chars := by
  obtain ⟨c, cs, hspelling, -⟩ := h.spelled.exists_cons
  rw [chars, hspelling, Text.byteCount_append, Text.byteCount]
  have := c.utf8Size_pos
  omega

/-- **The wider text has the same tokens at other places.** -/
theorem exists_tokens_eq_map_move (hcut : AllCut pieces rest)
    (h : List.Forall₂ SpacedOut pieces pieces') (n n' : Nat) :
    ∃ f, tokens n' pieces' = (tokens n pieces).map (Token.move f) := by
  induction h generalizing n n' with
  | nil => exact ⟨id, rfl⟩
  | @cons p p' pieces pieces' hp _ ih =>
    obtain ⟨f, hf⟩ := ih hcut.2 (n + Text.byteCount p.chars) (n' + Text.byteCount p'.chars)
    have hlt := hcut.1.byteCount_gap_lt
    refine ⟨Function.update f (n + Text.byteCount p.gap) (n' + Text.byteCount p'.gap), ?_⟩
    rw [tokens, tokens, List.map_cons, hf, Token.move, hp.kind, Function.update_self]
    -- The tokens after the first one stand after it, so that the map is theirs.
    refine congrArg _ (List.map_congr_left fun token htoken => ?_)
    have hle := le_position_of_mem_tokens htoken
    rw [Token.move, Token.move, Function.update_of_ne (by omega)]

end Piece

/-! ## Whole texts -/

theorem tokenize_of_spacedOut {text text' : String} (h : SpacedOut text text') :
    ∃ tokens f, tokenize text = .ok tokens ∧ tokenize text' = .ok (tokens.map (Token.move f)) := by
  obtain ⟨pieces, last, pieces', last', htext, hcut, hlast, htext', hpieces, hlast'⟩ := h
  obtain ⟨f, hf⟩ := Piece.exists_tokens_eq_map_move hcut hpieces 0 0
  refine ⟨_, f, tokenize_of_blank htext hcut hlast, hf ▸ ?_⟩
  exact tokenize_of_blank htext' (hcut.spacedOut hpieces hlast') (hlast'.isBlank hlast)

theorem parse_trim {text : String} {t : Expr} (h : parse text = .ok t) :
    parse (Text.trim text) = .ok t ∧ Text.trim (Text.trim text) = Text.trim text := by
  have hblank : ¬ Text.allBlank text := fun hblank => by
    rw [parse_of_blank hblank] at h
    cases h
  cases htokens : tokenize text with
  | error e =>
    rw [parse_of_no_tokens htokens] at h
    cases h
  | ok tokens =>
    obtain ⟨hspaced, htrim⟩ := spacedOut_trim htokens hblank
    obtain ⟨tokens, f, hnarrow, hwide⟩ := tokenize_of_spacedOut hspaced
    rw [parse_move hnarrow hwide] at h
    exact ⟨eq_ok_of_moved h, htrim⟩

/-- The source of a formula is read as the formula. -/
theorem Formula.read_source {text : String} {f : Formula} (h : read text = .ok f) :
    f.source = Text.trim text ∧ read f.source = .ok f := by
  simp only [read, parse, bind_eq_ok] at h
  obtain ⟨_, ⟨t, ht, ⟨⟩⟩, ⟨⟩, hcheck, ⟨⟩⟩ := h
  obtain ⟨hparse, htrim⟩ := parse_trim ht
  refine ⟨rfl, ?_⟩
  rw [read, parse, hparse, ok_bind, ok_bind, htrim, hcheck, ok_bind]

theorem Formula.decode?_of_read {f : Formula} (h : read f.source = .ok f) {text : String}
    (htext : IsTextOf f text) : decode? Formula text = some f := by
  have hread : read? (write f) = some f := toOption_eq_some.2 h
  rw [decode?, htext.parse?_eq (Json.isWritable_string f.source), Option.bind_some, hread]

/-- **Blanks between tokens do not matter.** If blanks are added to a text at its start, at its end
or between two of its tokens, it has the same tokens at other places, and it parses to the same tree
or fails with the same error at the place where its token stands now. The source of a formula is its
text without the blanks at the ends; it is read as the formula, and the formula is decoded from
each text that it is encoded as. -/
theorem parse_of_spacedOut (text : String) :
    (∀ text', SpacedOut text text' → ∃ tokens tokens',
      tokenize text = .ok tokens ∧ tokenize text' = .ok tokens' ∧
      (∃ f, tokens' = tokens.map (Token.move f)) ∧
      ∀ f, tokens' = tokens.map (Token.move f) → parse text' = moved f id (parse text)) ∧
    (∀ f, Formula.read text = .ok f → f.source = Text.trim text ∧ Formula.read f.source = .ok f ∧
      ∀ json, IsTextOf f json → decode? Formula json = some f) := by
  constructor
  · intro text' hspaced
    obtain ⟨tokens, f, htokens, htokens'⟩ := tokenize_of_spacedOut hspaced
    refine ⟨tokens, _, htokens, htokens', ⟨f, rfl⟩, fun g hg => ?_⟩
    exact parse_move htokens (htokens'.trans (congrArg _ hg))
  · intro f hread
    obtain ⟨hsource, hagain⟩ := Formula.read_source hread
    exact ⟨hsource, hagain, fun _ => Formula.decode?_of_read hagain⟩

theorem spacedOut_twice_x : SpacedOut "2x" " 2\u2003x\n" := by
  have htwo : Literal.WellFormed ⟨['2'], none, none⟩ := 
    ⟨List.all_eq_true.1 rfl, nofun, nofun, rfl⟩
  have hname : "x".toList = ['x'] := rfl
  have hcut : Piece.AllCut [⟨[], _, ['2']⟩, ⟨[], .identifier "x", ['x']⟩] [] :=
    ⟨Piece.isCut_number (List.forall_mem_nil _) htwo (by rintro c ⟨⟩; decide),
      Piece.isCut_name (List.forall_mem_nil _) hname (by decide +kernel) (List.forall_mem_nil _)
        nofun, trivial⟩
  exact ⟨_, [], [⟨[' '], _, ['2']⟩, ⟨['\u2003'], .identifier "x", ['x']⟩], ['\n'], rfl, hcut,
    List.forall_mem_nil _, rfl,
    .cons ⟨.blank rfl .nil, rfl, rfl⟩ (.cons ⟨.blank rfl .nil, rfl, rfl⟩ .nil), .blank rfl .nil⟩

theorem parse_twice_x : parse "2x" = .ok (.binary .mul (.number 2) .x) := by
  have htokens : tokenize "2x" = .ok [⟨.number 2, 0⟩, ⟨.identifier "x", 1⟩] :=
    toOption_eq_some.1 (by decide +kernel)
  have hderives : ∃ d : Derivation .sum,
      d.Derives [⟨.number 2, 0⟩, ⟨.identifier "x", 1⟩] ∧ d.tree = .binary .mul (.number 2) .x ∧
        d.Within :=
    ⟨.term (.implicit (.factor (.unsigned (.bare (.number 2)))) (.bare (.name "x" .x (.x rfl)))),
      ⟨by simp [Derivation.Valid, Derivation.yield, EndsInNumber, StartsFactor], rfl⟩, rfl,
      by decide, by decide⟩
  exact parse_eq_ok_iff.2 ⟨_, htokens, Phrase.expr_eq_ok_iff.2 hderives⟩

/-- Blanks of three kinds around and between the factors of `2x`. -/
theorem parse_of_spacedOut_twice_x :
    SpacedOut "2x" " 2\u2003x\n" ∧
    parse " 2\u2003x\n" = .ok (.binary .mul (.number 2) .x) ∧
    Formula.read " 2\u2003x\n" = .ok ⟨"2\u2003x", .binary .mul (.number 2) .x⟩ ∧
    Formula.read "2\u2003x" = .ok ⟨"2\u2003x", .binary .mul (.number 2) .x⟩ ∧
    decode? Formula "\"2\u2003x\"" = some ⟨"2\u2003x", .binary .mul (.number 2) .x⟩ := by
  obtain ⟨_, _, -, -, ⟨f, rfl⟩, hmoved⟩ := (parse_of_spacedOut "2x").1 _ spacedOut_twice_x
  have hparse : parse " 2\u2003x\n" = .ok (.binary .mul (.number 2) .x) := by
    rw [hmoved f rfl, parse_twice_x]
    rfl
  have hread : Formula.read " 2\u2003x\n" = .ok ⟨"2\u2003x", .binary .mul (.number 2) .x⟩ := by
    have htrim : Text.trim " 2\u2003x\n" = "2\u2003x" := by decide +kernel
    have hcheck : Formula.check ⟨"2\u2003x", .binary .mul (.number 2) .x⟩ = .ok () :=
      toOption_eq_some.1 (by decide +kernel)
    rw [Formula.read, Formula.parse, hparse, ok_bind, ok_bind, htrim, hcheck, ok_bind]
  obtain ⟨-, hagain, hdecode⟩ := (parse_of_spacedOut " 2\u2003x\n").2 _ hread
  have htext : (write (⟨"2\u2003x", .binary .mul (.number 2) .x⟩ : Formula)).compact =
      "\"2\u2003x\"" := by
    decide +kernel
  exact ⟨spacedOut_twice_x, hparse, hread, hagain, hdecode _ (htext ▸ .compact)⟩

end RealRoots
