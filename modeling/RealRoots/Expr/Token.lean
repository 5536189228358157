import RealRoots.Expr.Error
import RealRoots.Text.Alphabet
import RealRoots.Text.Blank

/-!
# Tokens

A text is blanks and tokens. Each token is as long as it can be: a number is the longest literal, a
name the longest run of letters, numerals and underscores, and two stars are one power sign.

* `Lexeme.read?`: the token at the front of a text that starts with no blank, its spelling and the
  rest; spelling and rest are the text.
* `tokenize`: the tokens of a text with their byte positions, or the first character at which no
  token starts, or the first literal that is read as no double.
-/

namespace RealRoots

namespace Token

/-- What a token is. -/
inductive Kind where
  | number (value : Float)
  | identifier (name : String)
  | plus | minus | star | slash | caret | leftParen | rightParen | comma
  deriving DecidableEq

/-- The token as messages show it: a number by its value, and either power sign as `^`. -/
def Kind.text : Kind → String
  | number value => plain value
  | identifier name => name
  | plus => "+"
  | minus => "-"
  | star => "*"
  | slash => "/"
  | caret => "^"
  | leftParen => "("
  | rightParen => ")"
  | comma => ","

end Token

/-- A token, with the number of bytes before it. -/
structure Token where
  kind : Token.Kind
  position : Nat
  deriving DecidableEq

/-- The token at the front of a text. A number has no kind if its literal is read as no double. -/
structure Lexeme (cs : List Char) where
  kind? : Option Token.Kind
  spelling : List Char
  rest : List Char
  spelling_append_rest : spelling ++ rest = cs
  spelling_ne_nil : spelling ≠ []

namespace Lexeme

variable {cs : List Char}

theorem rest_length_lt (l : Lexeme cs) : l.rest.length < cs.length := by
  have h := congrArg List.length l.spelling_append_rest
  have := List.length_pos_iff.2 l.spelling_ne_nil
  simp only [List.length_append] at h
  omega

/-- Does a number start here? A point has to be followed by a digit. -/
def startsNumber : List Char → Bool
  | '.' :: d :: _ => Text.isDigit d
  | c :: _ => Text.isDigit c
  | [] => false

theorem scan_spelling_ne_nil {cs : List Char} (h : startsNumber cs) :
    (Literal.scan cs).1.spelling ≠ [] := by
  unfold startsNumber at h
  split at h
  · rename_i d rest
    simp [Literal.scan, Literal.spelling, Literal.scanFraction, List.takeWhile_cons,
      List.dropWhile_cons, show Text.isDigit '.' = false by decide]
  · simp [Literal.scan, Literal.spelling, h]
  · exact absurd h (by simp)

/-- A number: the longest literal, with the double that its text is read as. -/
def number (h : startsNumber cs) : Lexeme cs where
  kind? := (readFloat? (String.ofList (Literal.scan cs).1.spelling)).map .number
  spelling := (Literal.scan cs).1.spelling
  rest := (Literal.scan cs).2
  spelling_append_rest := Literal.scan_spelling cs
  spelling_ne_nil := scan_spelling_ne_nil h

/-- A name: the first character and all that may continue a name. -/
def name (c : Char) (cs : List Char) : Lexeme (c :: cs) where
  kind? := some (.identifier (String.ofList (c :: cs.takeWhile Text.continuesName)))
  spelling := c :: cs.takeWhile Text.continuesName
  rest := cs.dropWhile Text.continuesName
  spelling_append_rest := by simp [List.takeWhile_append_dropWhile]
  spelling_ne_nil := by simp

/-- A token of one character. -/
def single (kind : Token.Kind) (c : Char) (cs : List Char) : Lexeme (c :: cs) where
  kind? := some kind
  spelling := [c]
  rest := cs
  spelling_append_rest := rfl
  spelling_ne_nil := by simp

/-- The sign or bracket at the front. -/
def sign? : (cs : List Char) → Option (Lexeme cs)
  | '+' :: cs => some (single .plus '+' cs)
  | '-' :: cs => some (single .minus '-' cs)
  | '*' :: '*' :: cs => some ⟨some .caret, ['*', '*'], cs, rfl, by simp⟩
  | '*' :: cs => some (single .star '*' cs)
  | '/' :: cs => some (single .slash '/' cs)
  | '^' :: cs => some (single .caret '^' cs)
  | '(' :: cs => some (single .leftParen '(' cs)
  | ')' :: cs => some (single .rightParen ')' cs)
  | ',' :: cs => some (single .comma ',' cs)
  | _ => none

/-- The token at the front, if there is one. -/
def read? (cs : List Char) : Option (Lexeme cs) :=
  if h : startsNumber cs then some (number h)
  else
    match cs with
    | c :: cs => if Text.startsName c then some (name c cs) else sign? (c :: cs)
    | [] => none

end Lexeme

/-- The tokens of a text that starts after `position` bytes. -/
def tokensFrom (position : Nat) (cs : List Char) : Except FormulaError (List Token) :=
  match cs with
  | [] => .ok []
  | c :: cs =>
    if Text.isBlank c then tokensFrom (position + c.utf8Size) cs
    else
      match Lexeme.read? (c :: cs) with
      | none => .error (.unexpectedCharacter c position)
      | some lexeme =>
        match lexeme.kind? with
        | none => .error (.invalidNumber (String.ofList lexeme.spelling) position)
        | some kind => do
          let tokens ← tokensFrom (position + Text.byteCount lexeme.spelling) lexeme.rest
          .ok (⟨kind, position⟩ :: tokens)
termination_by cs.length
decreasing_by
  · exact Nat.lt_succ_self _
  · exact lexeme.rest_length_lt

/-- Blanks are passed over. -/
theorem tokensFrom_blanks {gap : List Char} (h : ∀ c ∈ gap, Text.isBlank c) (position : Nat)
    (cs : List Char) :
    tokensFrom position (gap ++ cs) = tokensFrom (position + Text.byteCount gap) cs := by
  induction gap generalizing position with
  | nil => rfl
  | cons c gap ih =>
    rw [List.forall_mem_cons] at h
    rw [List.cons_append, tokensFrom, if_pos h.1, ih h.2, Text.byteCount, Nat.add_assoc]

theorem tokensFrom_of_blank {cs : List Char} (h : ∀ c ∈ cs, Text.isBlank c) (position : Nat) :
    tokensFrom position cs = .ok [] := by
  rw [← List.append_nil cs, tokensFrom_blanks h, tokensFrom]

/-- The tokens of a text. -/
def tokenize (text : String) : Except FormulaError (List Token) :=
  tokensFrom 0 text.toList

end RealRoots
