import Mathlib
import RealRoots.Proofs.Grammar.Derivation
import RealRoots.Proofs.Number.PlainText
import RealRoots.Proofs.Tokens.Partition

/-!
# The tokens of a printed expression

An expression is printed with a blank on either side of an operator and brackets around every
operation, so a number or name is followed by a blank, a closing bracket or nothing, and the name of
a function by an opening bracket. None of these goes on with the token before it.

* `Expr.pieces`: the tokens of a printed expression, and the blanks before each.
* `Expr.tokenize_text`: these are the tokens of its text.
-/

namespace RealRoots

/-- Nothing follows, or a blank, or a closing bracket. -/
def EndsOperand (rest : List Char) : Prop :=
  ∀ c ∈ rest.head?, c = ' ' ∨ c = ')'

namespace EndsOperand

variable {rest : List Char}

theorem endsNumber (h : EndsOperand rest) : EndsNumber rest := by
  intro c hc
  obtain rfl | rfl := h c hc <;> decide

theorem continuesName (h : EndsOperand rest) :
    ∀ c ∈ rest.head?, Text.continuesName c = false := by
  intro c hc
  obtain rfl | rfl := h c hc <;> decide +kernel

end EndsOperand

namespace Piece

/-- Pieces in brackets. -/
def bracketed (gap : List Char) (inner : List Piece) : List Piece :=
  ⟨gap, .leftParen, ['(']⟩ :: (inner ++ [⟨[], .rightParen, [')']⟩])

theorem joined_append (pieces pieces' : List Piece) :
    joined (pieces ++ pieces') = joined pieces ++ joined pieces' :=
  List.flatMap_append

theorem allCut_append {pieces pieces' : List Piece} {rest : List Char} :
    AllCut (pieces ++ pieces') rest ↔
      AllCut pieces (joined pieces' ++ rest) ∧ AllCut pieces' rest := by
  induction pieces with
  | nil => simp [AllCut]
  | cons p pieces ih =>
    rw [List.cons_append, AllCut, AllCut, ih, joined_append, List.append_assoc, and_assoc]

theorem joined_bracketed (gap : List Char) (inner : List Piece) :
    joined (bracketed gap inner) = gap ++ '(' :: (joined inner ++ [')']) := by
  simp [bracketed, joined, chars]

theorem allCut_bracketed {gap rest : List Char} {inner : List Piece}
    (hgap : ∀ c ∈ gap, Text.isBlank c) (h : AllCut inner (')' :: rest)) :
    AllCut (bracketed gap inner) rest := by
  refine ⟨isCut_sign hgap rfl (by simp), allCut_append.2 ⟨h, ?_, trivial⟩⟩
  exact isCut_sign (by simp) rfl (by simp)

theorem map_kind_tokens (position : Nat) (pieces : List Piece) :
    (tokens position pieces).map Token.kind = pieces.map kind := by
  induction pieces generalizing position with
  | nil => rfl
  | cons p pieces ih => rw [tokens, List.map_cons, List.map_cons, ih]

end Piece

theorem Function.name_toList (f : Function) : ∃ c cs, f.name.toList = c :: cs ∧
    Text.startsName c ∧ ∀ d ∈ cs, Text.continuesName d := by
  have hne : f.name.toList ≠ [] := by cases f <;> decide
  have hall : f.name.toList.all Text.startsName := by cases f <;> decide +kernel
  obtain ⟨c, cs, hcs⟩ := List.exists_cons_of_ne_nil hne
  rw [hcs, List.all_eq_true, List.forall_mem_cons] at hall
  exact ⟨c, cs, hcs, hall.1, fun d hd => Text.continuesName_of_startsName (hall.2 d hd)⟩

namespace Expr

/-- Every number is finite and without a sign, as the numbers of a text are. -/
def NumbersUnsigned : Expr → Prop
  | number value => ∃ size, Shape.of value = .finite false size
  | x => True
  | neg operand => operand.NumbersUnsigned
  | binary _ left right => left.NumbersUnsigned ∧ right.NumbersUnsigned
  | call _ argument => argument.NumbersUnsigned

/-- The tokens of the text, behind some blanks. -/
def pieces : Expr → List Char → List Piece
  | number value, gap => [⟨gap, .number value, (plain value).toList⟩]
  | x, gap => [⟨gap, .identifier "x", "x".toList⟩]
  | neg operand, gap => ⟨gap, .minus, ['-']⟩ :: Piece.bracketed [] (operand.pieces [])
  | binary op left right, gap =>
    Piece.bracketed gap (left.pieces [] ++
      ⟨[' '], Grammar.sign op, op.symbol.toList⟩ :: right.pieces [' '])
  | call function argument, gap =>
    ⟨gap, .identifier function.name, function.name.toList⟩ ::
      Piece.bracketed [] (argument.pieces [])

theorem joined_pieces (e : Expr) (gap : List Char) :
    Piece.joined (e.pieces gap) = gap ++ e.text.toList := by
  induction e generalizing gap with
  | number value => simp [pieces, text, Piece.joined, Piece.chars]
  | x => simp [pieces, text, Piece.joined, Piece.chars]
  | neg operand ih =>
    rw [pieces, joined_cons, Piece.joined_bracketed, ih]
    simp [Piece.chars, text]
  | binary op left right ihl ihr =>
    rw [pieces, Piece.joined_bracketed, Piece.joined_append, joined_cons, ihl, ihr]
    simp [Piece.chars, text]
  | call function argument ih =>
    rw [pieces, joined_cons, Piece.joined_bracketed, ih]
    simp [Piece.chars, text]

theorem allCut_pieces {e : Expr} (h : e.NumbersUnsigned) {gap rest : List Char}
    (hgap : ∀ c ∈ gap, Text.isBlank c) (hrest : EndsOperand rest) :
    Piece.AllCut (e.pieces gap) rest := by
  induction e generalizing gap rest with
  | number value =>
    obtain ⟨size, hsize⟩ := h
    obtain ⟨l, hl, htext, hvalue⟩ := plain_eq hsize
    rw [pieces, htext]
    conv in Token.Kind.number value => rw [← hvalue]
    exact ⟨Piece.isCut_number hgap hl hrest.endsNumber, trivial⟩
  | x => exact ⟨Piece.isCut_name hgap rfl rfl (by simp) hrest.continuesName, trivial⟩
  | neg operand ih =>
    refine ⟨Piece.isCut_sign hgap rfl (by simp), ?_⟩
    exact Piece.allCut_bracketed (by simp) (ih h (by simp) (by simp [EndsOperand]))
  | binary op left right ihl ihr =>
    have hblank : ∀ c ∈ [' '], Text.isBlank c := List.forall_mem_singleton.2 rfl
    refine Piece.allCut_bracketed hgap (Piece.allCut_append.2 ⟨ihl h.1 (by simp) ?_, ?_, ?_⟩)
    · simp [EndsOperand, joined_cons, Piece.chars]
    · refine Piece.isCut_sign hblank (by cases op <;> rfl) ?_
      simp [joined_pieces]
    · exact ihr h.2 hblank (by simp [EndsOperand])
  | call function argument ih =>
    obtain ⟨c, cs, hcs, hstarts, hcontinues⟩ := function.name_toList
    refine ⟨Piece.isCut_name hgap hcs hstarts hcontinues ?_,
      Piece.allCut_bracketed (by simp) (ih h (by simp) (by simp [EndsOperand]))⟩
    have hbracket : Text.continuesName '(' = false := by decide +kernel
    simp [Piece.joined_bracketed, hbracket]

/-- **The text of an expression is cut into its tokens.** -/
theorem tokenize_text {e : Expr} (h : e.NumbersUnsigned) :
    tokenize e.text = .ok (Piece.tokens 0 (e.pieces [])) := by
  have htext : e.text.toList = Piece.joined (e.pieces []) ++ [] := by
    rw [joined_pieces, List.nil_append, List.append_nil]
  exact tokenize_of_blank htext (allCut_pieces h (by simp) (by simp [EndsOperand])) (by simp)

end Expr

end RealRoots
