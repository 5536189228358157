import Mathlib.Data.List.Basic
import RealRoots.Proofs.Grammar.Derivation

/-!
# Viable prefixes

A list of tokens is a viable prefix if it goes on to a whole expression. The expression may be as
deep as it likes, and a function may be called with any number of arguments; but names have to be
those of the variable, of constants and of functions, each in its place.

* `Forms`: the tokens of each phrase, by the rules of the grammar.
* `Derivation.forms`: what is derived within the rules of the parser is formed by these.
* `Viable`: some tokens after these make a whole expression of them.
* `Awaits`: the tokens are viable, and stay so when a phrase that starts with a given token comes
  next. A place inside a phrase awaits its next part (`Awaits.inside`).
-/

namespace RealRoots.Grammar

open Token

mutual

/-- The tokens of a phrase. -/
inductive Forms : Symbol → List Kind → Prop
  | term {u : List Kind} : Forms .product u → Forms .sum u
  | sum {op : Operator} {u v : List Kind} : op = .add ∨ op = .sub → Forms .sum u →
      Forms .product v → Forms .sum (u ++ sign op :: v)
  | factor {u : List Kind} : Forms .unary u → Forms .product u
  | product {op : Operator} {u v : List Kind} : op = .mul ∨ op = .div → Forms .product u →
      Forms .unary v → Forms .product (u ++ sign op :: v)
  | implicit {u v : List Kind} : Forms .product u → Forms .power v → EndsInNumber u →
      StartsFactor v → Forms .product (u ++ v)
  | minus {u : List Kind} : Forms .unary u → Forms .unary (.minus :: u)
  | plus {u : List Kind} : Forms .unary u → Forms .unary (.plus :: u)
  | unsigned {u : List Kind} : Forms .power u → Forms .unary u
  | bare {u : List Kind} : Forms .primary u → Forms .power u
  | raised {u v : List Kind} : Forms .primary u → Forms .unary v → Forms .power (u ++ .caret :: v)
  | number (value : Float) : Forms .primary [.number value]
  | name {spelling : String} {meaning : Expr} : Constant spelling meaning →
      Forms .primary [.identifier spelling]
  | brackets {u : List Kind} : Forms .sum u → Forms .primary (.leftParen :: (u ++ [.rightParen]))
  | call {spelling : String} {function : Function} {u : List Kind} : Named spelling function →
      FormArguments u → Forms .primary (.identifier spelling :: .leftParen :: (u ++ [.rightParen]))

/-- The tokens of the arguments of a call, with commas between them. -/
inductive FormArguments : List Kind → Prop
  | one {u : List Kind} : Forms .sum u → FormArguments u
  | more {u v : List Kind} : FormArguments u → Forms .sum v → FormArguments (u ++ .comma :: v)

end

/-- **What is derived is formed by the rules of the grammar.** -/
theorem Derivation.forms {s : Symbol} (d : Derivation s) (h : d.Valid) : Forms s d.yield := by
  induction d with
  | term only ih => exact .term (ih h)
  | sum left op right hop ihl ihr => exact .sum hop (ihl h.1) (ihr h.2)
  | factor only ih => exact .factor (ih h)
  | product left op right hop ihl ihr => exact .product hop (ihl h.1) (ihr h.2)
  | implicit left right ihl ihr =>
    obtain ⟨hl, hr, hends, hstarts⟩ := h
    exact .implicit (ihl hl) (ihr hr) hends hstarts
  | minus operand ih => exact .minus (ih h)
  | plus operand ih => exact .plus (ih h)
  | unsigned only ih => exact .unsigned (ih h)
  | bare only ih => exact .bare (ih h)
  | raised base exponent ihb ihe => exact .raised (ihb h.1) (ihe h.2)
  | number value => exact .number value
  | name spelling meaning hname => exact .name hname
  | brackets inner ih => exact .brackets (ih h)
  | call spelling function hname argument ih => exact .call hname (.one (ih h))

/-- The variable is a phrase of every kind. -/
theorem forms_x (s : Symbol) : Forms s [.identifier "x"] := by
  have hprimary : Forms .primary [.identifier "x"] := .name (.x rfl)
  have hproduct : Forms .product [.identifier "x"] := .factor (.unsigned (.bare hprimary))
  cases s with
  | sum => exact .term hproduct
  | product => exact hproduct
  | unary => exact .unsigned (.bare hprimary)
  | power => exact .bare hprimary
  | primary => exact hprimary

/-- Some tokens that follow make a whole expression. -/
def Viable (u : List Kind) : Prop :=
  ∃ v, Forms .sum (u ++ v)

theorem Viable.of_append {u v : List Kind} (h : Viable (u ++ v)) : Viable u := by
  obtain ⟨w, hw⟩ := h
  rw [List.append_assoc] at hw
  exact ⟨v ++ w, hw⟩

/-- The tokens are viable, and so they are with a phrase after them that starts with `next`. -/
structure Awaits (s : Symbol) (next : Option Kind) (u : List Kind) : Prop where
  viable : Viable u
  phrase : ∀ w, Forms s w → w.head? = next → Viable (u ++ w)

namespace Awaits

variable {s s' : Symbol} {next : Option Kind} {u v w : List Kind}

theorem start (next : Option Kind) : Awaits .sum next [] where
  viable := ⟨_, forms_x .sum⟩
  phrase w hw _ := ⟨[], by simpa using hw⟩

/-- A phrase that is one of the awaited kind. -/
theorem of_forms (h : Awaits s next u) (hs : ∀ w, Forms s' w → Forms s w) : Awaits s' next u where
  viable := h.viable
  phrase w hw := h.phrase w (hs w hw)

/-- The start of an awaited phrase is viable. -/
theorem viable_start (h : Awaits s next u) (hw : Forms s w) (hv : v <+: w) (hne : v ≠ [])
    (hnext : next = v.head?) : Viable (u ++ v) := by
  obtain ⟨t, rfl⟩ := hv
  have hhead : (v ++ t).head? = next := by
    rw [hnext, List.head?_append_of_ne_nil _ hne]
  have hviable := h.phrase _ hw hhead
  rw [← List.append_assoc] at hviable
  exact hviable.of_append

/-- **After the start of the awaited phrase its next part is awaited**, whatever it starts with. -/
theorem inside (h : Awaits s next u) (hne : v ≠ []) (hnext : next = v.head?)
    (hrule : ∀ w, Forms s' w → ∃ z, Forms s z ∧ v ++ w <+: z) (next' : Option Kind) :
    Awaits s' next' (u ++ v) where
  viable := by
    obtain ⟨z, hz, hstart⟩ := hrule _ (forms_x s')
    exact h.viable_start hz ((List.prefix_append v _).trans hstart) hne hnext
  phrase w hw _ := by
    obtain ⟨z, hz, hstart⟩ := hrule w hw
    have hhead : next = (v ++ w).head? := by
      rw [hnext, List.head?_append_of_ne_nil _ hne]
    rw [List.append_assoc]
    exact h.viable_start hz hstart (by simp [hne]) hhead

end Awaits

end RealRoots.Grammar
