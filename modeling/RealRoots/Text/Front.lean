/-!
# Reading from the front of a text

A reader takes what it reads from the front of a list and returns a shorter rest, so that a reader
that goes on with the rest comes to an end.
-/

namespace RealRoots.Text

/-- A value read from the front of `source`, and the shorter rest. -/
structure Front (ε α : Type) (source : List ε) where
  value : α
  rest : List ε
  shorter : rest.length < source.length

namespace Front

variable {ε α β : Type} {source : List ε}

/-- Another value for the same rest. -/
def map (f : α → β) (front : Front ε α source) : Front ε β source :=
  { front with value := f front.value }

/-- What is read from the front of the end of a text leaves a rest of the text. -/
def within {text : List ε} (h : source.length ≤ text.length) (front : Front ε α source) :
    Front ε α text :=
  ⟨front.value, front.rest, Nat.lt_of_lt_of_le front.shorter h⟩

@[simp] theorem map_rest (f : α → β) (front : Front ε α source) : (front.map f).rest = front.rest :=
  rfl

@[simp] theorem within_rest {text : List ε} (h : source.length ≤ text.length)
    (front : Front ε α source) : (front.within h).rest = front.rest :=
  rfl

end Front

/-- The rest of the text after a word at its front. -/
def dropWord? [BEq ε] : (word text : List ε) → Option (List ε)
  | [], text => some text
  | _ :: _, [] => none
  | w :: word, c :: text => if w == c then dropWord? word text else none

theorem dropWord?_length [BEq ε] {word text rest : List ε} (h : dropWord? word text = some rest) :
    rest.length + word.length = text.length := by
  fun_induction dropWord? word text <;> simp_all
  omega

end RealRoots.Text
