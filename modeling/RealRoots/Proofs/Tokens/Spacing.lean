import Mathlib
import RealRoots.Proofs.Tokens.Partition

/-!
# Blanks between tokens

Blanks may be added to a text at its start, at its end and between its tokens, and it has the same
tokens. The reason is that no token has a blank in it: a token that starts in the wider text starts
in the narrow one too, so the longest one stays the longest.

* `Token.Kind.SpelledAs.isBlank_eq_false`: no character of a token is blank.
* `SpacedOut`: one text is another one with blanks added between tokens.
* `Piece.AllCut.spacedOut`: the wider text is cut into the same tokens.
* `spacedOut_trim`: a text is the trimmed text with blanks at its ends.
-/

namespace RealRoots

/-! ## No token has a blank in it -/

theorem Exponent.WellFormed.isBlank_eq_false {e : Exponent} (h : e.WellFormed) :
    ∀ c ∈ e.spelling, Text.isBlank c = false := by
  simp only [spelling, List.cons_append, List.forall_mem_cons, List.forall_mem_append]
  refine ⟨?_, ?_, fun c hc => Text.isBlank_of_isDigit (h.digits c hc)⟩
  · obtain hmark | hmark := h.mark <;> rw [hmark] <;> rfl
  · intro s hs
    obtain rfl | rfl := h.sign s (Option.mem_toList.1 hs) <;> rfl

theorem Literal.WellFormed.isBlank_eq_false {l : Literal} (h : l.WellFormed) :
    ∀ c ∈ l.spelling, Text.isBlank c = false := by
  simp only [spelling, List.forall_mem_append]
  refine ⟨⟨fun c hc => Text.isBlank_of_isDigit (h.whole c hc), ?_⟩, ?_⟩
  · cases hf : l.fraction with
    | none => simp
    | some digits =>
      rw [Option.map_some, Option.getD_some, List.forall_mem_cons]
      exact ⟨rfl, fun c hc => Text.isBlank_of_isDigit (h.fraction digits hf c hc)⟩
  · cases he : l.exponent with
    | none => simp
    | some e => exact (h.exponent e he).isBlank_eq_false

theorem Token.Kind.isBlank_of_ofSign? {kind : Kind} {cs : List Char} (h : ofSign? cs = some kind) :
    ∀ c ∈ cs, Text.isBlank c = false := by
  unfold ofSign? at h
  split at h
  case h_10 => cases h
  all_goals exact fun c hc => Bool.eq_false_iff.2 (List.any_eq_false.1 rfl c hc)

/-- **No character of a token is blank.** -/
theorem Token.Kind.SpelledAs.isBlank_eq_false {kind : Kind} {cs : List Char}
    (h : kind.SpelledAs cs) : ∀ c ∈ cs, Text.isBlank c = false := by
  cases h with
  | number hnumeral =>
    obtain ⟨l, hl, rfl⟩ := hnumeral
    exact hl.isBlank_eq_false
  | identifier hstarts hcontinues =>
    rw [List.forall_mem_cons]
    exact ⟨Text.isBlank_of_startsName hstarts, fun c hc =>
      Text.isBlank_of_continuesName (hcontinues c hc)⟩
  | sign hsign => exact isBlank_of_ofSign? hsign

/-! ## Adding blanks -/

/-- The second text is the first one with blanks added anywhere. -/
inductive BlanksAdded : List Char → List Char → Prop
  | nil : BlanksAdded [] []
  | keep (c : Char) {cs cs' : List Char} : BlanksAdded cs cs' → BlanksAdded (c :: cs) (c :: cs')
  | blank {c : Char} {cs cs' : List Char} : Text.isBlank c → BlanksAdded cs cs' →
      BlanksAdded cs (c :: cs')

namespace BlanksAdded

variable {cs cs' ds ds' : List Char}

theorem refl (cs : List Char) : BlanksAdded cs cs := by
  induction cs with
  | nil => exact .nil
  | cons c cs ih => exact .keep c ih

theorem of_blank (h : ∀ c ∈ cs, Text.isBlank c) : BlanksAdded [] cs := by
  induction cs with
  | nil => exact .nil
  | cons c cs ih =>
    rw [List.forall_mem_cons] at h
    exact .blank h.1 (ih h.2)

theorem append (h : BlanksAdded cs cs') (h' : BlanksAdded ds ds') :
    BlanksAdded (cs ++ ds) (cs' ++ ds') := by
  induction h with
  | nil => exact h'
  | keep c _ ih => exact .keep c ih
  | blank hc _ ih => exact .blank hc ih

theorem isBlank (h : BlanksAdded cs cs') (hcs : ∀ c ∈ cs, Text.isBlank c) :
    ∀ c ∈ cs', Text.isBlank c := by
  induction h with
  | nil => exact hcs
  | keep c _ ih =>
    rw [List.forall_mem_cons] at hcs ⊢
    exact ⟨hcs.1, ih hcs.2⟩
  | blank hc _ ih => exact List.forall_mem_cons.2 ⟨hc, ih hcs⟩

/-- What has no blank in it starts the wider text only if it starts the narrow one. -/
theorem isPrefix_of_isPrefix {word : List Char} (h : BlanksAdded cs cs')
    (hword : ∀ c ∈ word, Text.isBlank c = false) (hstart : word <+: cs') : word <+: cs := by
  induction h generalizing word with
  | nil => exact hstart
  | keep c _ ih =>
    cases word with
    | nil => exact List.nil_prefix
    | cons d word =>
      obtain ⟨rfl, htail⟩ := List.cons_prefix_cons.1 hstart
      rw [List.forall_mem_cons] at hword
      exact List.cons_prefix_cons.2 ⟨rfl, ih hword.2 htail⟩
  | blank hc _ _ =>
    cases word with
    | nil => exact List.nil_prefix
    | cons d word =>
      -- The first character of the word would be a blank that was added.
      obtain ⟨rfl, -⟩ := List.cons_prefix_cons.1 hstart
      simp [hword d List.mem_cons_self] at hc

end BlanksAdded

/-! ## The pieces of the wider text -/

/-- The same token with blanks added before it. -/
structure Piece.SpacedOut (p p' : Piece) : Prop where
  gap : BlanksAdded p.gap p'.gap
  kind : p'.kind = p.kind
  spelling : p'.spelling = p.spelling

/-- The second text is the first one, which is cut into tokens, with blanks added at its start, at
its end or between its tokens. -/
def SpacedOut (text text' : String) : Prop :=
  ∃ pieces last pieces' last', text.toList = Piece.joined pieces ++ last ∧
    Piece.AllCut pieces last ∧ (∀ c ∈ last, Text.isBlank c) ∧
    text'.toList = Piece.joined pieces' ++ last' ∧
    List.Forall₂ Piece.SpacedOut pieces pieces' ∧ BlanksAdded last last'

namespace Piece

variable {p p' : Piece} {pieces pieces' : List Piece} {rest rest' : List Char}

theorem SpacedOut.refl (p : Piece) : p.SpacedOut p :=
  ⟨.refl _, rfl, rfl⟩

theorem blanksAdded_joined (h : List.Forall₂ SpacedOut pieces pieces')
    (hrest : BlanksAdded rest rest') :
    BlanksAdded (joined pieces ++ rest) (joined pieces' ++ rest') := by
  induction h with
  | nil => exact hrest
  | @cons p p' _ _ hp _ ih =>
    rw [joined_cons, joined_cons, List.append_assoc, List.append_assoc, chars, chars, hp.spelling]
    exact (hp.gap.append (.refl p.spelling)).append ih

/-- **The longest token stays the longest** where blanks are added before it and after it. -/
theorem IsCut.spacedOut (h : p.IsCut rest) (hp : p.SpacedOut p') (hrest : BlanksAdded rest rest') :
    p'.IsCut rest' where
  gap := hp.gap.isBlank h.gap
  spelled := by
    rw [hp.kind, hp.spelling]
    exact h.spelled
  longest kind cs hspelled hstart := by
    rw [hp.spelling] at hstart ⊢
    exact h.longest kind cs hspelled
      (((BlanksAdded.refl p.spelling).append hrest).isPrefix_of_isPrefix
        hspelled.isBlank_eq_false hstart)

theorem AllCut.spacedOut (h : AllCut pieces rest) (hp : List.Forall₂ SpacedOut pieces pieces')
    (hrest : BlanksAdded rest rest') : AllCut pieces' rest' := by
  induction hp with
  | nil => trivial
  | cons hhead htail ih =>
    exact ⟨h.1.spacedOut hhead (blanksAdded_joined htail hrest), ih h.2⟩

theorem IsCut.of_append (h : p.IsCut (rest ++ rest')) : p.IsCut rest where
  gap := h.gap
  spelled := h.spelled
  longest kind cs hspelled hstart := by
    refine h.longest kind cs hspelled ?_
    rw [← List.append_assoc]
    exact hstart.trans (List.prefix_append _ _)

theorem AllCut.of_append (h : AllCut pieces (rest ++ rest')) : AllCut pieces rest := by
  induction pieces with
  | nil => trivial
  | cons p pieces ih =>
    obtain ⟨hp, hpieces⟩ := h
    rw [← List.append_assoc] at hp
    exact ⟨hp.of_append, ih hpieces⟩

/-- The text of pieces ends with a token. -/
theorem isBlank_getLast?_joined (h : AllCut pieces rest) :
    ∀ c ∈ (joined pieces).getLast?, Text.isBlank c = false := by
  induction pieces with
  | nil => simp [joined]
  | cons p pieces ih =>
    intro c hc
    rw [joined_cons, List.getLast?_append] at hc
    cases hlast : (joined pieces).getLast? with
    | some d =>
      simp only [hlast, Option.some_or, Option.mem_some_iff] at hc
      exact hc ▸ ih h.2 d hlast
    | none =>
      simp only [hlast, Option.none_or, chars, List.getLast?_append] at hc
      obtain ⟨d, ds, hspelling, -⟩ := h.1.spelled.exists_cons
      refine h.1.spelled.isBlank_eq_false c (List.mem_of_getLast? ?_)
      simpa [hspelling] using hc

end Piece

/-! ## Trimmed texts -/

namespace Text

variable {gap cs last : List Char}

theorem trimEnd_append (hcs : ∀ c ∈ cs.getLast?, isBlank c = false)
    (hlast : ∀ c ∈ last, isBlank c) : trimEnd (cs ++ last) = cs := by
  rw [trimEnd, List.reverse_append, dropWhile_run, List.reverse_reverse]
  · exact fun c hc => hlast c (List.mem_reverse.1 hc)
  · rwa [List.head?_reverse]

theorem trim_eq {text : String} (htext : text.toList = gap ++ (cs ++ last))
    (hgap : ∀ c ∈ gap, isBlank c) (hhead : ∀ c ∈ (cs ++ last).head?, isBlank c = false)
    (hcs : ∀ c ∈ cs.getLast?, isBlank c = false) (hlast : ∀ c ∈ last, isBlank c) :
    trim text = String.ofList cs := by
  rw [trim, htext, dropWhile_run hgap hhead, trimEnd_append hcs hlast]

end Text

/-- The piece without its blanks. -/
def Piece.bare (p : Piece) : Piece :=
  { p with gap := [] }

theorem Piece.joined_cons_eq (p : Piece) (pieces : List Piece) :
    joined (p :: pieces) = p.gap ++ joined (p.bare :: pieces) := by
  simp [joined_cons, chars, bare]

theorem Piece.AllCut.bare {p : Piece} {pieces : List Piece} {last : List Char}
    (h : AllCut (p :: pieces) last) : AllCut (p.bare :: pieces) last :=
  ⟨{ h.1 with gap := by simp [Piece.bare] }, h.2⟩

/-- **A text is the trimmed text with blanks at its ends**, if it has tokens. -/
theorem spacedOut_trim {text : String} {tokens : List Token} (h : tokenize text = .ok tokens)
    (hblank : ¬ Text.allBlank text) :
    SpacedOut (Text.trim text) text ∧ Text.trim (Text.trim text) = Text.trim text := by
  obtain ⟨pieces, last, htext, hcut, hlast, -⟩ := tokenize_eq_ok_iff.1 h
  cases pieces with
  | nil =>
    refine absurd ?_ hblank
    rw [Text.allBlank, htext, List.all_eq_true]
    exact hlast
  | cons p pieces =>
    have hcut' : Piece.AllCut (p :: pieces) [] := hcut.of_append
    -- Without the blanks at its ends, the text starts and ends with a token.
    have hstart (rest : List Char) :
        ∀ c ∈ (Piece.joined (p.bare :: pieces) ++ rest).head?, Text.isBlank c = false := by
      rw [joined_cons, List.append_assoc]
      exact head?_append_of_spelledAs hcut.1.spelled _
    have hend := Piece.isBlank_getLast?_joined hcut'.bare
    have htrim : Text.trim text = String.ofList (Piece.joined (p.bare :: pieces)) := by
      rw [Piece.joined_cons_eq, List.append_assoc] at htext
      exact Text.trim_eq htext hcut.1.gap (hstart last) hend hlast
    have htoList : (Text.trim text).toList = Piece.joined (p.bare :: pieces) := by
      rw [htrim, String.toList_ofList]
    constructor
    · refine ⟨p.bare :: pieces, [], p :: pieces, last, ?_, hcut'.bare, List.forall_mem_nil _, htext,
        .cons ⟨.of_blank hcut.1.gap, rfl, rfl⟩ (List.forall₂_same.2 fun p _ => .refl p),
        .of_blank hlast⟩
      rw [htoList, List.append_nil]
    · have htext' : (Text.trim text).toList = [] ++ (Piece.joined (p.bare :: pieces) ++ []) := by
        rw [htoList, List.nil_append, List.append_nil]
      rw [Text.trim_eq htext' (List.forall_mem_nil _) (hstart []) hend (List.forall_mem_nil _),
        htrim]

end RealRoots
