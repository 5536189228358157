import RealRoots.Proofs.Grammar.Derivation

/-!
# Cursors and phrases

A derivation speaks of the kinds of its tokens; a parser moves a cursor. `Passes c u n` ties the two
together: between `c` and `n` stand tokens of the kinds `u`.

What may follow a phrase is said of the cursor at its end. `Ends s c` holds where nothing after `c`
goes on with a phrase `s` that ends there: a name is not called, a primary is not raised to a
power, and a sum has taken all the factors of its last term.
-/

namespace RealRoots

open Token Grammar

namespace Cursor

/-- The kind of the next token. -/
def next? (c : Cursor) : Option Kind :=
  c.rest.head?.map Token.kind

/-- The kind of the token just before. -/
def last? (c : Cursor) : Option Kind :=
  c.before.map Token.kind

@[simp] theorem next?_nil (b : Option Token) : next? ⟨b, []⟩ = none := rfl

@[simp] theorem next?_cons (b : Option Token) (token : Token) (rest : List Token) :
    next? ⟨b, token :: rest⟩ = some token.kind := rfl

@[simp] theorem last?_some (token : Token) (rest : List Token) :
    last? ⟨some token, rest⟩ = some token.kind := rfl

theorem next?_eq_some {c : Cursor} {k : Kind} (h : c.next? = some k) :
    ∃ position rest, c.rest = ⟨k, position⟩ :: rest := by
  obtain ⟨b, _ | ⟨token, rest⟩⟩ := c
  · simp at h
  · exact ⟨token.position, rest, by simp [← Option.some.inj h]⟩

theorem next?_of_rest {c : Cursor} {token : Token} {rest : List Token}
    (h : c.rest = token :: rest) : c.next? = some token.kind := by
  rw [next?, h]
  rfl

/-- The next token opens the argument of a name. -/
def Calls (c : Cursor) : Prop :=
  (∃ name, c.last? = some (.identifier name)) ∧ c.next? = some .leftParen

/-- The next token is a power sign. -/
def Raises (c : Cursor) : Prop :=
  c.next? = some .caret

/-- A factor follows, with a sign before it or as an implicit product. -/
def Multiplies (c : Cursor) : Prop :=
  (∃ op, (op = .mul ∨ op = .div) ∧ c.next? = some (sign op)) ∨
    (∃ value, c.last? = some (.number value)) ∧
      (c.next? = some .leftParen ∨ ∃ name, c.next? = some (.identifier name))

/-- A term follows. -/
def Adds (c : Cursor) : Prop :=
  ∃ op, (op = .add ∨ op = .sub) ∧ c.next? = some (sign op)

/-- Nothing after the cursor goes on with a phrase that ends there. A sum may go on with a term and
a product with a factor. -/
def Ends : Symbol → Cursor → Prop
  | .primary, c => ¬ c.Calls
  | .power, c | .unary, c | .product, c => ¬ c.Calls ∧ ¬ c.Raises
  | .sum, c => ¬ c.Calls ∧ ¬ c.Raises ∧ ¬ c.Multiplies

theorem Adds.ends {c : Cursor} (h : c.Adds) : Ends .sum c := by
  obtain ⟨op, rfl | rfl, h⟩ := h <;> simp [Ends, Calls, Raises, Multiplies, sign, h]

theorem Multiplies.ends {c : Cursor} (h : c.Multiplies) : Ends .product c := by
  obtain ⟨op, rfl | rfl, h⟩ | ⟨⟨_, hl⟩, h | ⟨_, h⟩⟩ := h <;> simp [Ends, Calls, Raises, sign, *]

theorem Raises.ends {c : Cursor} (h : c.Raises) : Ends .primary c := by
  simp only [Ends, Calls, Raises] at *
  simp [h]

/-- Before a closing bracket or the end nothing goes on. -/
theorem ends_of_next {c : Cursor} (h : c.next? = none ∨ c.next? = some .rightParen) :
    Ends .sum c ∧ ¬ c.Adds := by
  obtain h | h := h <;> simp [Ends, Calls, Raises, Multiplies, Adds, sign, h]

/-- Between `c` and `n` stand tokens of the kinds `u`. -/
inductive Passes : Cursor → List Kind → Cursor → Prop
  | nil (c : Cursor) : Passes c [] c
  | cons {b : Option Token} {token : Token} {rest : List Token} {u : List Kind} {n : Cursor} :
      Passes ⟨some token, rest⟩ u n → Passes ⟨b, token :: rest⟩ (token.kind :: u) n

namespace Passes

variable {c m n n' : Cursor} {u v : List Kind} {k : Kind}

theorem cons_iff : Passes c (k :: u) n ↔
    ∃ position rest, c.rest = ⟨k, position⟩ :: rest ∧ Passes ⟨some ⟨k, position⟩, rest⟩ u n := by
  constructor
  · rintro ⟨⟩
    rename_i token rest h
    exact ⟨token.position, rest, rfl, h⟩
  · rintro ⟨position, rest, hc, h⟩
    obtain ⟨b, _⟩ := c
    subst hc
    exact .cons h

theorem nil_iff : Passes c [] n ↔ n = c := by
  constructor
  · rintro ⟨⟩
    rfl
  · rintro rfl
    exact .nil n

theorem append_iff : Passes c (u ++ v) n ↔ ∃ m, Passes c u m ∧ Passes m v n := by
  induction u generalizing c with
  | nil => simp [nil_iff]
  | cons k u ih =>
    simp only [List.cons_append, cons_iff, ih]
    constructor
    · rintro ⟨position, rest, hc, m, hu, hv⟩
      exact ⟨m, ⟨position, rest, hc, hu⟩, hv⟩
    · rintro ⟨m, ⟨position, rest, hc, hu⟩, hv⟩
      exact ⟨position, rest, hc, m, hu, hv⟩

theorem append (hu : Passes c u m) (hv : Passes m v n) : Passes c (u ++ v) n :=
  append_iff.2 ⟨m, hu, hv⟩

/-- One token of a known kind. -/
theorem token {position : Nat} {rest : List Token} (h : c.rest = ⟨k, position⟩ :: rest) :
    Passes c [k] ⟨some ⟨k, position⟩, rest⟩ :=
  cons_iff.2 ⟨position, rest, h, .nil _⟩

theorem kinds (h : Passes c u n) :
    c.rest.map Token.kind = u ++ n.rest.map Token.kind := by
  induction h with
  | nil => rfl
  | cons _ ih => simpa using ih

/-- The tokens that are passed stand before those that are left. -/
theorem exists_append (h : Passes c u n) :
    ∃ tokens, c.rest = tokens ++ n.rest ∧ tokens.map Token.kind = u := by
  induction h with
  | nil => exact ⟨[], rfl, rfl⟩
  | @cons b token rest u n _ ih =>
    obtain ⟨tokens, hrest, hkinds⟩ := ih
    exact ⟨token :: tokens, by simpa using hrest, by simp [hkinds]⟩

theorem unique (h : Passes c u n) (h' : Passes c u n') : n = n' := by
  induction h with
  | nil => exact (nil_iff.1 h').symm
  | cons _ ih =>
    cases h' with
    | cons h' => exact ih h'

theorem length (h : Passes c u n) : c.rest.length = u.length + n.rest.length := by
  simpa using congrArg List.length h.kinds

/-- The tokens that remain are enough to pass. -/
theorem exists_of_kinds {r : List Kind} (h : c.rest.map Token.kind = u ++ r) :
    ∃ n, Passes c u n ∧ n.rest.map Token.kind = r := by
  induction u generalizing c with
  | nil => exact ⟨c, .nil c, h⟩
  | cons k u ih =>
    obtain ⟨b, _ | ⟨token, rest⟩⟩ := c
    · simp at h
    · simp only [List.map_cons, List.cons_append, List.cons.injEq] at h
      obtain ⟨rfl, h⟩ := h
      obtain ⟨n, hn, hr⟩ := ih (c := ⟨some token, rest⟩) h
      exact ⟨n, .cons hn, hr⟩

/-- The tokens that remain may be passed to the end, where nothing goes on. -/
theorem exists_of_all (h : c.rest.map Token.kind = u) :
    ∃ n, Passes c u n ∧ n.rest = [] ∧ Ends .sum n ∧ ¬ n.Adds := by
  obtain ⟨n, hn, hr⟩ := exists_of_kinds (h.trans (List.append_nil u).symm)
  rw [List.map_eq_nil_iff] at hr
  exact ⟨n, hn, hr, ends_of_next (.inl (by simp [next?, hr]))⟩

theorem last?_eq (h : Passes c u n) (hu : u ≠ []) : n.last? = u.getLast? := by
  induction h with
  | nil => exact absurd rfl hu
  | @cons b token rest u n h ih =>
    cases u with
    | nil => simp [nil_iff.1 h]
    | cons k u => simpa using ih (by simp)

theorem next?_eq (h : Passes c u n) (hu : u ≠ []) : c.next? = u.head? := by
  cases h with
  | nil => exact absurd rfl hu
  | cons => simp

end Passes

end Cursor

/-- Before a power stands no sign. -/
theorem Grammar.Derivation.next?_ne_sign (d : Derivation .power) {c n : Cursor}
    (hp : c.Passes d.yield n) : c.next? ≠ some .minus ∧ c.next? ≠ some .plus := by
  have hfirst := d.head_yield_of_power
  rw [StartsFactor, ← hp.next?_eq d.yield_ne_nil] at hfirst
  obtain (h | ⟨_, h⟩) | ⟨_, h⟩ := hfirst <;> simp [h]

end RealRoots
