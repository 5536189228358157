import RealRoots.Proofs.Grammar.Cursor
import RealRoots.Proofs.Results

/-!
# The parser, step by step

Each reader of the parser decides by the next token what to do. The equations here say what that
is, one for each decision, in terms of the cursor; later proofs use them and never open a reader.

* `expr_eq`, `term_eq`: a first part, then a loop.
* `sums_of_sign`, `products_of_sign`, `products_implicit`, `arguments_of_comma`: one pass of a loop;
  `sums_of_not_adds`, `products_of_not_multiplies`, `arguments_of_ne_comma`: its end.
* `unary_*`, `power_*`, `primary_*`: the other readers.
* `parse_of_blank`, `parse_of_tokens`, `parse_of_no_tokens`: a whole text.
-/

namespace RealRoots

open Token Grammar

theorem bounded_eq_ok {tree t : Expr} {position : Nat} :
    bounded tree position = .ok t ↔ t = tree ∧ tree.depth ≤ maxDepth := by
  unfold bounded
  split <;> simp only [reduceCtorEq, Except.ok.injEq] <;> grind

/-! ## Tokens by class -/

theorem Token.Kind.sum?_eq_some {k : Kind} {op : Operator} :
    k.sum? = some op ↔ (op = .add ∨ op = .sub) ∧ k = sign op := by
  cases k <;> cases op <;> simp [sum?, sign]

theorem Token.Kind.product?_eq_some {k : Kind} {op : Operator} :
    k.product? = some op ↔ (op = .mul ∨ op = .div) ∧ k = sign op := by
  cases k <;> cases op <;> simp [product?, sign]

theorem Token.Kind.startsFactor_iff {k : Kind} :
    k.startsFactor ↔ k = .leftParen ∨ ∃ name, k = .identifier name := by
  cases k <;> simp [startsFactor]

namespace Cursor

variable {c : Cursor} {token : Token} {rest : List Token}

theorem afterNumber_iff : c.afterNumber ↔ ∃ value, c.last? = some (.number value) := by
  obtain ⟨_ | ⟨k, _⟩, _⟩ := c
  · simp [afterNumber, last?]
  · cases k <;> simp [afterNumber, last?]

theorem adds_iff (h : c.rest = token :: rest) : c.Adds ↔ token.kind.sum? ≠ none := by
  simp [Adds, next?_of_rest h, Option.ne_none_iff_exists', Kind.sum?_eq_some]

theorem multiplies_iff (h : c.rest = token :: rest) : c.Multiplies ↔
    token.kind.product? ≠ none ∨ c.afterNumber && token.kind.startsFactor := by
  simp [Multiplies, next?_of_rest h, Option.ne_none_iff_exists', Kind.product?_eq_some,
    afterNumber_iff, Kind.startsFactor_iff]

theorem exists_startsFactor
    (h : c.next? = some .leftParen ∨ ∃ name, c.next? = some (.identifier name)) :
    ∃ k ∈ c.next?, k.startsFactor := by
  obtain h | ⟨name, h⟩ := h
  · exact ⟨.leftParen, h, rfl⟩
  · exact ⟨.identifier name, h, rfl⟩

/-- The next factor has a sign before it, or it starts as that of an implicit product. -/
theorem Multiplies.cases (h : c.Multiplies) :
    (∃ op position rest, (op = .mul ∨ op = .div) ∧ c.rest = ⟨sign op, position⟩ :: rest) ∨
      ∃ k position rest, c.rest = ⟨k, position⟩ :: rest ∧ k.startsFactor ∧
        (∃ value, c.last? = some (.number value)) ∧ ∀ op, c.next? ≠ some (sign op) := by
  obtain ⟨op, hop, hnext⟩ | ⟨hlast, hnext⟩ := h
  · obtain ⟨position, rest, hrest⟩ := next?_eq_some hnext
    exact .inl ⟨op, position, rest, hop, hrest⟩
  · obtain ⟨k, hk, hstarts⟩ := exists_startsFactor hnext
    obtain ⟨position, rest, hrest⟩ := next?_eq_some hk
    refine .inr ⟨k, position, rest, hrest, hstarts, hlast, fun op => ?_⟩
    obtain hnext | ⟨name, hnext⟩ := hnext <;> cases op <;> simp [hnext, sign]

theorem rest_lt (h : c.rest = token :: rest) : rest.length < c.rest.length := by
  simp [h]

theorem rest_lt_of_two {next : Token} (h : c.rest = token :: next :: rest) :
    rest.length < c.rest.length := by
  simp only [h, List.length_cons]
  omega

end Cursor

namespace Parsed

variable {c : Cursor}

theorem closed_of_rest {p : Parsed c} {position : Nat} {rest : List Token}
    (h : p.next.rest = ⟨.rightParen, position⟩ :: rest) :
    p.closed = .ok ⟨p.tree, ⟨some ⟨.rightParen, position⟩, rest⟩,
      Nat.lt_trans (Cursor.rest_lt h) p.shorter⟩ := by
  obtain ⟨_, ⟨_, _⟩, _⟩ := p
  cases h
  rfl

theorem closed_of_nil {p : Parsed c} (h : p.next.rest = []) : p.closed = .error .unexpectedEnd := by
  obtain ⟨_, ⟨_, _⟩, _⟩ := p
  cases h
  rfl

theorem closed_of_ne {p : Parsed c} {token : Token} {rest : List Token}
    (h : p.next.rest = token :: rest) (hk : token.kind ≠ .rightParen) :
    p.closed = .error token.unexpected := by
  obtain ⟨_, ⟨_, _⟩, _⟩ := p
  obtain ⟨k, _⟩ := token
  cases h
  cases k <;> first | exact absurd rfl hk | rfl

theorem rest_of_closed_eq_ok {p q : Parsed c} (h : p.closed = .ok q) :
    ∃ position rest, p.next.rest = ⟨.rightParen, position⟩ :: rest ∧ q.tree = p.tree ∧
      q.next = ⟨some ⟨.rightParen, position⟩, rest⟩ := by
  unfold closed at h
  split at h
  · cases h
    exact ⟨_, _, ‹_›, rfl, rfl⟩
  · simp at h
  · simp at h

end Parsed

namespace Phrase

variable {level count position : Nat} {c : Cursor} {token : Token} {rest : List Token}
  {op : Operator}

/-! ## Sums -/

theorem expr_eq : expr level c = term level c >>= sums level := by
  rw [expr]

theorem sums_of_sign {left : Parsed c} (hop : op = .add ∨ op = .sub)
    (h : left.next.rest = ⟨sign op, position⟩ :: rest) :
    sums level left = (do
      let right ← term level ⟨some ⟨sign op, position⟩, rest⟩
      let tree ← bounded (.binary op left.tree right.tree) position
      sums level (left.through tree right (Nat.le_of_lt (Cursor.rest_lt h)))) := by
  have hk : (sign op).sum? = some op := Kind.sum?_eq_some.2 ⟨hop, rfl⟩
  obtain ⟨_, ⟨_, _⟩, _⟩ := left
  cases h
  rw [sums]
  simp only [hk]

theorem sums_of_not_adds {left : Parsed c} (h : ¬ left.next.Adds) :
    sums level left = .ok left := by
  rw [sums]
  split
  · rfl
  · rename_i h'
    rw [Cursor.adds_iff h'] at h
    split <;> simp_all

/-! ## Products -/

theorem term_eq : term level c = unary level c >>= products level := by
  rw [term]

theorem products_of_sign {left : Parsed c} (hop : op = .mul ∨ op = .div)
    (h : left.next.rest = ⟨sign op, position⟩ :: rest) :
    products level left = (do
      let right ← unary level ⟨some ⟨sign op, position⟩, rest⟩
      let tree ← bounded (.binary op left.tree right.tree) position
      products level (left.through tree right (Nat.le_of_lt (Cursor.rest_lt h)))) := by
  have hk : (sign op).product? = some op := Kind.product?_eq_some.2 ⟨hop, rfl⟩
  obtain ⟨_, ⟨_, _⟩, _⟩ := left
  cases h
  rw [products]
  simp only [hk]

theorem products_implicit {left : Parsed c} (hl : ∃ value, left.next.last? = some (.number value))
    (h : left.next.rest = token :: rest) (hk : token.kind.startsFactor) :
    products level left = (do
      let right ← power level left.next
      let tree ← bounded (.binary .mul left.tree right.tree) token.position
      products level (left.through tree right (Nat.le_refl _))) := by
  have hl := Cursor.afterNumber_iff.2 hl
  have hp : token.kind.product? = none := by
    obtain ⟨k, _⟩ := token
    cases k <;> simp_all [Kind.startsFactor, Kind.product?]
  obtain ⟨_, ⟨_, _⟩, _⟩ := left
  cases h
  rw [products]
  simp only [hp, hl, hk, Bool.and_self, if_true]

theorem products_of_not_multiplies {left : Parsed c} (h : ¬ left.next.Multiplies) :
    products level left = .ok left := by
  rw [products]
  split
  · rfl
  · rename_i h'
    rw [Cursor.multiplies_iff h'] at h
    split <;> simp_all

/-! ## Signs -/

theorem unary_of_le (h : maxDepth ≤ level) :
    unary level c = .error (.tooDeep maxDepth c.position) := by
  rw [unary, if_pos h]

theorem unary_minus (hl : level < maxDepth) (h : c.rest = ⟨.minus, position⟩ :: rest) :
    unary level c = (do
      let operand ← unary (level + 1) ⟨some ⟨.minus, position⟩, rest⟩
      .ok ⟨← bounded (.neg operand.tree) position, operand.next,
        Nat.lt_trans operand.shorter (Cursor.rest_lt h)⟩) := by
  obtain ⟨_, _⟩ := c
  cases h
  rw [unary, if_neg (Nat.not_le.2 hl)]

theorem unary_plus (hl : level < maxDepth) (h : c.rest = ⟨.plus, position⟩ :: rest) :
    unary level c = (do
      let operand ← unary (level + 1) ⟨some ⟨.plus, position⟩, rest⟩
      .ok (operand.within (Nat.le_of_lt (Cursor.rest_lt h)))) := by
  obtain ⟨_, _⟩ := c
  cases h
  rw [unary, if_neg (Nat.not_le.2 hl)]

theorem unary_unsigned (hl : level < maxDepth) (hm : c.next? ≠ some .minus)
    (hp : c.next? ≠ some .plus) : unary level c = power (level + 1) c := by
  rw [unary, if_neg (Nat.not_le.2 hl)]
  split
  · exact absurd (Cursor.next?_of_rest ‹_›) hm
  · exact absurd (Cursor.next?_of_rest ‹_›) hp
  · rfl

/-! ## Powers -/

theorem power_of_error {e : FormulaError} (h : primary level c = .error e) :
    power level c = .error e := by
  rw [power, h, error_bind]

theorem power_raised {base : Parsed c} (hb : primary level c = .ok base)
    (h : base.next.rest = ⟨.caret, position⟩ :: rest) :
    power level c = (do
      let exponent ← unary level ⟨some ⟨.caret, position⟩, rest⟩
      let tree ← bounded (.binary .pow base.tree exponent.tree) position
      .ok (base.through tree exponent (Nat.le_of_lt (Cursor.rest_lt h)))) := by
  obtain ⟨_, ⟨_, _⟩, _⟩ := base
  cases h
  rw [power, hb, ok_bind]

theorem power_bare {base : Parsed c} (hb : primary level c = .ok base)
    (h : ¬ base.next.Raises) : power level c = .ok base := by
  rw [power, hb, ok_bind]
  split
  · rename_i hr
    exact absurd (Cursor.next?_of_rest hr) h
  · rfl

/-! ## Primaries -/

theorem primary_number {value : Float} (h : c.rest = ⟨.number value, position⟩ :: rest) :
    primary level c =
      .ok ⟨.number value, ⟨some ⟨.number value, position⟩, rest⟩, Cursor.rest_lt h⟩ := by
  obtain ⟨_, _⟩ := c
  cases h
  rw [primary]

theorem primary_brackets (h : c.rest = ⟨.leftParen, position⟩ :: rest) :
    primary level c = (do
      let inner ← expr level ⟨some ⟨.leftParen, position⟩, rest⟩
      .ok ((← inner.closed).within (Nat.le_of_lt (Cursor.rest_lt h)))) := by
  obtain ⟨_, _⟩ := c
  cases h
  rw [primary]

theorem primary_call {name : String} {bracket : Nat} {function : Function}
    (hf : Function.ofName? name = some function)
    (h : c.rest = ⟨.identifier name, position⟩ :: ⟨.leftParen, bracket⟩ :: rest) :
    primary level c = (do
      let first ← expr level ⟨some ⟨.leftParen, bracket⟩, rest⟩
      let all ← arguments level 1 first
      let last ← all.2.closed
      .ok ⟨← callOf function all.1 first.tree position, last.next,
        Nat.lt_trans last.shorter (Cursor.rest_lt_of_two h)⟩) := by
  obtain ⟨_, _⟩ := c
  cases h
  rw [primary]
  simp only [hf]

theorem primary_unknown {name : String} {bracket : Nat} (hf : Function.ofName? name = none)
    (h : c.rest = ⟨.identifier name, position⟩ :: ⟨.leftParen, bracket⟩ :: rest) :
    primary level c = .error (.unknownFunction name position) := by
  obtain ⟨_, _⟩ := c
  cases h
  rw [primary]
  simp only [hf]

theorem primary_name {name : String} (h : c.rest = ⟨.identifier name, position⟩ :: rest)
    (hr : (Cursor.next? ⟨some ⟨.identifier name, position⟩, rest⟩) ≠ some .leftParen) :
    primary level c = (do
      .ok ⟨← identifier name position, ⟨some ⟨.identifier name, position⟩, rest⟩,
        Cursor.rest_lt h⟩) := by
  obtain ⟨_, _⟩ := c
  cases h
  obtain _ | ⟨⟨k, _⟩, _⟩ := rest
  · rw [primary]
  · cases k <;> first | exact absurd rfl hr | rw [primary]

theorem primary_nil (h : c.rest = []) : primary level c = .error .unexpectedEnd := by
  obtain ⟨_, _⟩ := c
  cases h
  rw [primary]

theorem primary_unexpected (h : c.rest = token :: rest) (hp : token.kind ≠ .leftParen)
    (hn : ∀ name, token.kind ≠ .identifier name) (hv : ∀ value, token.kind ≠ .number value) :
    primary level c = .error token.unexpected := by
  obtain ⟨_, _⟩ := c
  obtain ⟨k, _⟩ := token
  cases h
  cases k <;>
    first
    | exact absurd rfl hp
    | exact absurd rfl (hn _)
    | exact absurd rfl (hv _)
    | rw [primary]

/-- A primary starts with a number, a name or a bracket. -/
theorem starts_of_primary_eq_ok {p : Parsed c} (h : primary level c = .ok p) :
    c.next? = some .leftParen ∨ (∃ name, c.next? = some (.identifier name)) ∨
      ∃ value, c.next? = some (.number value) := by
  rw [primary] at h
  split at h <;> simp_all [Cursor.next?]

/-! ## Arguments -/

theorem arguments_of_comma {last : Parsed c} (h : last.next.rest = ⟨.comma, position⟩ :: rest) :
    arguments level count last = (do
      let next ← expr level ⟨some ⟨.comma, position⟩, rest⟩
      arguments level (count + 1)
        (last.through next.tree next (Nat.le_of_lt (Cursor.rest_lt h)))) := by
  obtain ⟨_, ⟨_, _⟩, _⟩ := last
  cases h
  rw [arguments]

theorem arguments_of_ne_comma {last : Parsed c} (h : last.next.next? ≠ some .comma) :
    arguments level count last = .ok (count, last) := by
  rw [arguments]
  split
  · rename_i hr
    exact absurd (Cursor.next?_of_rest hr) h
  · rfl

end Phrase

/-! ## Whole texts -/

/-- The tree, if the reading ends where the text does. -/
def Parsed.whole {c : Cursor} (p : Parsed c) : Except FormulaError Expr :=
  match p.next.rest with
  | [] => .ok p.tree
  | token :: _ => .error token.unexpected

theorem parse_of_blank {text : String} (h : Text.allBlank text) : parse text = .error .empty := by
  rw [parse, if_pos h]
  rfl

theorem parse_of_tokens {text : String} {tokens : List Token} (h : ¬ Text.allBlank text)
    (htokens : tokenize text = .ok tokens) :
    parse text = (Phrase.expr 0 ⟨none, tokens⟩ >>= Parsed.whole) := by
  rw [parse, if_neg h, htokens]
  rfl

theorem parse_of_no_tokens {text : String} {e : FormulaError} (h : tokenize text = .error e) :
    parse text = .error e := by
  have hblank : ¬ Text.allBlank text := fun hblank => by
    rw [tokenize, tokensFrom_of_blank (List.all_eq_true.1 hblank)] at h
    cases h
  rw [parse, if_neg hblank, h]
  rfl

end RealRoots
