import RealRoots.Expr.Derivative
import RealRoots.Expr.Token

/-!
# Parsing

The grammar, from the loosest to the tightest binding:

    expr    := term (('+' | '-') term)*
    term    := unary (('*' | '/') unary | power)*
    unary   := ('-' | '+') unary | power
    power   := primary ('^' unary)?
    primary := NUMBER | NAME | NAME '(' expr (',' expr)* ')' | '(' expr ')'

A `power` that follows a `unary` without an operator is an implicit product. It is taken only where
the token before it is a number and it starts with a name or a bracket: `2x`, `3(x + 1)`.

`unary` phrases nest at most `maxDepth` deep, and so do the nodes of every tree that is built. Each
reader returns a cursor with fewer tokens before it, which is why the recursion ends.

* `parse`: the tree of a text, or the first thing that is wrong with it.
-/

namespace RealRoots

/-- The deepest nesting of a text and of its tree. -/
def maxDepth : Nat := 256

/-- A place between two tokens. -/
structure Cursor where
  /-- The token just before. -/
  before : Option Token
  rest : List Token

namespace Cursor

/-- The position of the next token, or of the last one at the end. -/
def position (c : Cursor) : Nat :=
  match c.rest with
  | token :: _ => token.position
  | [] => (c.before.map Token.position).getD 0

/-- Is the token just before a number? -/
def afterNumber (c : Cursor) : Bool :=
  match c.before with
  | some ⟨.number _, _⟩ => true
  | _ => false

end Cursor

namespace Token

/-- A sum or difference sign. -/
def Kind.sum? : Kind → Option Operator
  | plus => some .add
  | minus => some .sub
  | _ => none

/-- A product or quotient sign. -/
def Kind.product? : Kind → Option Operator
  | star => some .mul
  | slash => some .div
  | _ => none

/-- Can the token start the second factor of an implicit product? -/
def Kind.startsFactor : Kind → Bool
  | identifier _ | leftParen => true
  | _ => false

/-- The error that the token cannot stand where it does. -/
def unexpected (token : Token) : FormulaError :=
  .unexpectedToken token.kind.text token.position

end Token

/-- A tree read from a cursor, and a later cursor. -/
structure Parsed (c : Cursor) where
  tree : Expr
  next : Cursor
  shorter : next.rest.length < c.rest.length

namespace Parsed

variable {c d : Cursor}

/-- What is read from a later cursor is read from an earlier one. -/
def within (p : Parsed d) (h : d.rest.length ≤ c.rest.length) : Parsed c :=
  ⟨p.tree, p.next, Nat.lt_of_lt_of_le p.shorter h⟩

/-- The reading goes on to the end of another one. -/
def through (p : Parsed c) (tree : Expr) (q : Parsed d)
    (h : d.rest.length ≤ p.next.rest.length) : Parsed c :=
  ⟨tree, q.next, Nat.lt_trans q.shorter (Nat.lt_of_le_of_lt h p.shorter)⟩

@[simp] theorem within_next (p : Parsed d) (h : d.rest.length ≤ c.rest.length) :
    (p.within h).next = p.next :=
  rfl

@[simp] theorem through_next (p : Parsed c) (tree : Expr) (q : Parsed d)
    (h : d.rest.length ≤ p.next.rest.length) : (p.through tree q h).next = q.next :=
  rfl

/-- The closing bracket after the reading. -/
def closed (p : Parsed c) : Except FormulaError (Parsed c) :=
  match h : p.next.rest with
  | ⟨.rightParen, position⟩ :: rest =>
    .ok ⟨p.tree, ⟨some ⟨.rightParen, position⟩, rest⟩, by
      have := p.shorter
      rw [h] at this
      exact Nat.lt_of_succ_lt this⟩
  | token :: _ => .error token.unexpected
  | [] => .error .unexpectedEnd

end Parsed

/-- The tree, if it is not too deep. -/
def bounded (tree : Expr) (position : Nat) : Except FormulaError Expr :=
  if maxDepth < tree.depth then .error (.tooDeep maxDepth position) else .ok tree

/-- A name that stands alone: the variable or a constant. -/
def identifier (name : String) (position : Nat) : Except FormulaError Expr :=
  if name = "x" then .ok .x
  else if name = "pi" ∨ name = "PI" ∨ name = "π" then .ok (.number circleNumber)
  else if name = "e" ∨ name = "E" then .ok (.number eulerNumber)
  else if (Function.ofName? name).isSome then .error (.unexpectedToken name position)
  else .error (.unknownIdentifier name position)

/-- The call of a function, which takes one argument. -/
def callOf (function : Function) (count : Nat) (argument : Expr) (position : Nat) :
    Except FormulaError Expr :=
  if count = function.arity then bounded (.call function argument) position
  else .error (.wrongArity function.name function.arity count)

namespace Phrase

mutual

/-- Terms with sum signs between them. -/
def expr (level : Nat) (c : Cursor) : Except FormulaError (Parsed c) := do
  let first ← term level c
  have := first.shorter
  sums level first
termination_by (c.rest.length, 5)

/-- The further terms of a sum. -/
def sums (level : Nat) {c : Cursor} (left : Parsed c) : Except FormulaError (Parsed c) :=
  match h : left.next.rest with
  | [] => .ok left
  | token :: rest =>
    match token.kind.sum? with
    | none => .ok left
    | some op => do
      have hrest : rest.length < left.next.rest.length := by simp [h]
      let right ← term level ⟨some token, rest⟩
      have hright : right.next.rest.length < left.next.rest.length :=
        Nat.lt_trans right.shorter hrest
      let tree ← bounded (.binary op left.tree right.tree) token.position
      sums level (left.through tree right (Nat.le_of_lt hrest))
termination_by (left.next.rest.length, 4)

/-- Factors with product signs between them, or none. -/
def term (level : Nat) (c : Cursor) : Except FormulaError (Parsed c) := do
  let first ← unary level c
  have := first.shorter
  products level first
termination_by (c.rest.length, 4)

/-- The further factors of a product. -/
def products (level : Nat) {c : Cursor} (left : Parsed c) : Except FormulaError (Parsed c) :=
  match h : left.next.rest with
  | [] => .ok left
  | token :: rest =>
    match token.kind.product? with
    | some op => do
      have hrest : rest.length < left.next.rest.length := by simp [h]
      let right ← unary level ⟨some token, rest⟩
      have hright : right.next.rest.length < left.next.rest.length :=
        Nat.lt_trans right.shorter hrest
      let tree ← bounded (.binary op left.tree right.tree) token.position
      products level (left.through tree right (Nat.le_of_lt hrest))
    | none =>
      if left.next.afterNumber && token.kind.startsFactor then do
        let right ← power level left.next
        have hright := right.shorter
        let tree ← bounded (.binary .mul left.tree right.tree) token.position
        products level (left.through tree right (Nat.le_refl _))
      else .ok left
termination_by (left.next.rest.length, 3)

/-- A power with signs before it. -/
def unary (level : Nat) (c : Cursor) : Except FormulaError (Parsed c) :=
  if maxDepth ≤ level then .error (.tooDeep maxDepth c.position)
  else
    match h : c.rest with
    | ⟨.minus, position⟩ :: rest => do
      have hrest : rest.length < c.rest.length := by simp [h]
      let operand ← unary (level + 1) ⟨some ⟨.minus, position⟩, rest⟩
      .ok ⟨← bounded (.neg operand.tree) position, operand.next,
        Nat.lt_trans operand.shorter hrest⟩
    | ⟨.plus, position⟩ :: rest => do
      have hrest : rest.length < c.rest.length := by simp [h]
      let operand ← unary (level + 1) ⟨some ⟨.plus, position⟩, rest⟩
      .ok (operand.within (Nat.le_of_lt hrest))
    | _ => power (level + 1) c
termination_by (c.rest.length, 3)

/-- A primary, perhaps raised to a power. -/
def power (level : Nat) (c : Cursor) : Except FormulaError (Parsed c) := do
  let base ← primary level c
  match h : base.next.rest with
  | ⟨.caret, position⟩ :: rest => do
    have hrest : rest.length < base.next.rest.length := by simp [h]
    have hbase : rest.length < c.rest.length := Nat.lt_trans hrest base.shorter
    let exponent ← unary level ⟨some ⟨.caret, position⟩, rest⟩
    let tree ← bounded (.binary .pow base.tree exponent.tree) position
    .ok (base.through tree exponent (Nat.le_of_lt hrest))
  | _ => .ok base
termination_by (c.rest.length, 2)

/-- A number, a name, a call or an expression in brackets. -/
def primary (level : Nat) (c : Cursor) : Except FormulaError (Parsed c) :=
  match h : c.rest with
  | [] => .error .unexpectedEnd
  | ⟨.number value, position⟩ :: rest =>
    .ok ⟨.number value, ⟨some ⟨.number value, position⟩, rest⟩, by simp [h]⟩
  | ⟨.leftParen, position⟩ :: rest => do
    have hrest : rest.length < c.rest.length := by simp [h]
    let inner ← expr level ⟨some ⟨.leftParen, position⟩, rest⟩
    .ok ((← inner.closed).within (Nat.le_of_lt hrest))
  | ⟨.identifier name, position⟩ :: ⟨.leftParen, bracket⟩ :: rest =>
    match Function.ofName? name with
    | none => .error (.unknownFunction name position)
    | some function => do
      have hrest : rest.length < c.rest.length := by simp only [h, List.length_cons]; omega
      let first ← expr level ⟨some ⟨.leftParen, bracket⟩, rest⟩
      have hfirst : first.next.rest.length < c.rest.length := Nat.lt_trans first.shorter hrest
      let (count, last) ← arguments level 1 first
      let last ← last.closed
      .ok ⟨← callOf function count first.tree position, last.next,
        Nat.lt_trans last.shorter hrest⟩
  | ⟨.identifier name, position⟩ :: rest => do
    .ok ⟨← identifier name position, ⟨some ⟨.identifier name, position⟩, rest⟩, by simp [h]⟩
  | token :: _ => .error token.unexpected
termination_by (c.rest.length, 1)

/-- The further arguments of a call, and the number of all of them. -/
def arguments (level count : Nat) {c : Cursor} (last : Parsed c) :
    Except FormulaError (Nat × Parsed c) :=
  match h : last.next.rest with
  | ⟨.comma, position⟩ :: rest => do
    have hrest : rest.length < last.next.rest.length := by simp [h]
    let next ← expr level ⟨some ⟨.comma, position⟩, rest⟩
    have hnext : next.next.rest.length < last.next.rest.length := Nat.lt_trans next.shorter hrest
    arguments level (count + 1) (last.through next.tree next (Nat.le_of_lt hrest))
  | _ => .ok (count, last)
termination_by (last.next.rest.length, 6)

end

end Phrase

/-- The tree of a text. -/
def parse (text : String) : Except FormulaError Expr := do
  if Text.allBlank text then throw .empty
  let whole ← Phrase.expr 0 ⟨none, ← tokenize text⟩
  match whole.next.rest with
  | [] => .ok whole.tree
  | token :: _ => throw token.unexpected

end RealRoots
