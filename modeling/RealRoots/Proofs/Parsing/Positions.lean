import RealRoots.Proofs.Parsing.Steps
import RealRoots.Proofs.Tokens.Partition

/-!
# The parser does not compute with positions

**Theorem (`Phrase.moves`).** If each token is moved to another position, what is read stays the
same, but for the positions of the tokens and of the error, which are moved with them.

The parser copies positions from tokens into errors, and decides nothing by them. So each reader
commutes with a map of positions, and so does every step that joins readers (`bind_eq_moved`). The
only position that is no token's is the one that stands in where there are no tokens at all;
`Cursor.IsLocated` excludes it.
-/

namespace RealRoots

open Grammar

/-! ## Moved tokens and errors -/

/-- The position in the text, if the error has one. -/
def FormulaError.position? : FormulaError → Option Nat
  | unexpectedCharacter _ position | invalidNumber _ position | unexpectedToken _ position
  | unknownIdentifier _ position | unknownFunction _ position | tooDeep _ position => some position
  | empty | unexpectedEnd | wrongArity .. | undefinedAtSamples _ => none

/-- The error at the place where its position is moved to. -/
def FormulaError.move (f : Nat → Nat) : FormulaError → FormulaError
  | unexpectedCharacter character position => unexpectedCharacter character (f position)
  | invalidNumber text position => invalidNumber text (f position)
  | unexpectedToken found position => unexpectedToken found (f position)
  | unknownIdentifier name position => unknownIdentifier name (f position)
  | unknownFunction name position => unknownFunction name (f position)
  | tooDeep limit position => tooDeep limit (f position)
  | e => e

theorem FormulaError.position?_move (f : Nat → Nat) (e : FormulaError) :
    (e.move f).position? = e.position?.map f := by
  cases e <;> rfl

/-- The same token at another place. -/
def Token.move (f : Nat → Nat) (token : Token) : Token :=
  { token with position := f token.position }

/-- The cursor between the moved tokens. -/
def Cursor.move (f : Nat → Nat) (c : Cursor) : Cursor :=
  ⟨c.before.map (Token.move f), c.rest.map (Token.move f)⟩

/-- What is read if the tokens are moved. -/
def Parsed.move {c : Cursor} (f : Nat → Nat) (p : Parsed c) : Parsed (c.move f) :=
  ⟨p.tree, p.next.move f, by simpa [Cursor.move] using p.shorter⟩

namespace Cursor

variable {c : Cursor} {rest : List Token} {k : Token.Kind} {position : Nat} (f : Nat → Nat)

@[simp] theorem next?_move : (c.move f).next? = c.next? := by
  obtain ⟨_, _ | _⟩ := c <;> rfl

@[simp] theorem last?_move : (c.move f).last? = c.last? := by
  obtain ⟨_ | _, _⟩ := c <;> rfl

theorem adds_move_iff : (c.move f).Adds ↔ c.Adds := by
  simp [Adds]

theorem multiplies_move_iff : (c.move f).Multiplies ↔ c.Multiplies := by
  simp [Multiplies]

theorem raises_move_iff : (c.move f).Raises ↔ c.Raises := by
  simp [Raises]

theorem rest_move (h : c.rest = ⟨k, position⟩ :: rest) :
    (c.move f).rest = ⟨k, f position⟩ :: rest.map (Token.move f) := by
  rw [Cursor.move, h]
  rfl

/-- There is a token after the cursor or before it. -/
def IsLocated (c : Cursor) : Prop :=
  c.rest ≠ [] ∨ c.before ≠ none

theorem isLocated_after (token : Token) (rest : List Token) : IsLocated ⟨some token, rest⟩ :=
  .inr (by simp)

theorem position_move (h : c.IsLocated) : (c.move f).position = f c.position := by
  obtain ⟨_ | _, _ | _⟩ := c
  · simp [IsLocated] at h
  all_goals rfl

end Cursor

/-! ## Moved results -/

section

variable {α α' β β' : Type} {f : Nat → Nat} {g : α → α'} {g' : β → β'}

/-- The result of a reader on moved tokens. -/
def moved (f : Nat → Nat) (g : α → α') : Except FormulaError α → Except FormulaError α'
  | .ok a => .ok (g a)
  | .error e => .error (e.move f)

theorem eq_ok_of_moved {x : Except FormulaError α} {a : α} (h : moved f id x = .ok a) :
    x = .ok a := by
  cases x with
  | error e => cases h
  | ok b => exact h

/-- **Readers that move with the tokens are joined to one that does.** -/
theorem bind_eq_moved {x : Except FormulaError α} {x' : Except FormulaError α'}
    {k : α → Except FormulaError β} {k' : α' → Except FormulaError β'} (hx : x' = moved f g x)
    (hk : ∀ a, k' (g a) = moved f g' (k a)) : (x' >>= k') = moved f g' (x >>= k) := by
  subst hx
  cases x with
  | error e => rfl
  | ok a => exact hk a

theorem bounded_move (f : Nat → Nat) (tree : Expr) (position : Nat) :
    bounded tree (f position) = moved f id (bounded tree position) := by
  unfold bounded
  split <;> rfl

theorem identifier_move (f : Nat → Nat) (name : String) (position : Nat) :
    identifier name (f position) = moved f id (identifier name position) := by
  unfold identifier
  repeat' split
  all_goals rfl

theorem callOf_move (f : Nat → Nat) (function : Function) (count : Nat) (argument : Expr)
    (position : Nat) : callOf function count argument (f position) =
      moved f id (callOf function count argument position) := by
  unfold callOf
  split
  · exact bounded_move f _ position
  · rfl

end

theorem Parsed.closed_move {c : Cursor} (f : Nat → Nat) (p : Parsed c) :
    (p.move f).closed = moved f (Parsed.move f) p.closed := by
  obtain ⟨tree, ⟨before, _ | ⟨⟨k, position⟩, rest⟩⟩, hshorter⟩ := p
  · rfl
  · cases k <;> rfl

theorem Parsed.whole_move {c : Cursor} (f : Nat → Nat) (p : Parsed c) :
    (p.move f).whole = moved f id p.whole := by
  obtain ⟨tree, ⟨before, _ | _⟩, hshorter⟩ := p <;> rfl

/-! ## Readers -/

namespace Phrase

open Token Cursor

/-- The readers at the cursor move with the tokens. -/
structure Moves (f : Nat → Nat) (c : Cursor) : Prop where
  expr : c.IsLocated → ∀ level, expr level (c.move f) = moved f (Parsed.move f) (expr level c)
  term : c.IsLocated → ∀ level, term level (c.move f) = moved f (Parsed.move f) (term level c)
  unary : c.IsLocated → ∀ level, unary level (c.move f) = moved f (Parsed.move f) (unary level c)
  power : ∀ level, power level (c.move f) = moved f (Parsed.move f) (power level c)
  primary : ∀ level, primary level (c.move f) = moved f (Parsed.move f) (primary level c)

section Step

variable {f : Nat → Nat} {c : Cursor} (level : Nat)
  (ih : ∀ d : Cursor, d.rest.length < c.rest.length → Moves f d)

include ih

theorem arguments_move (count : Nat) (last : Parsed c) :
    arguments level count (last.move f) =
      moved f (Prod.map id (Parsed.move f)) (arguments level count last) := by
  by_cases hcomma : last.next.next? = some .comma
  · obtain ⟨position, rest, hrest⟩ := next?_eq_some hcomma
    have hlt := Nat.lt_trans (rest_lt hrest) last.shorter
    rw [arguments_of_comma (rest_move f hrest), arguments_of_comma hrest]
    refine bind_eq_moved
      ((ih ⟨some ⟨.comma, position⟩, rest⟩ hlt).expr (isLocated_after _ _) level) fun next => ?_
    have := Nat.lt_trans next.shorter (rest_lt hrest)
    exact arguments_move (count + 1) (last.through next.tree next (Nat.le_of_lt (rest_lt hrest)))
  · rw [arguments_of_ne_comma hcomma, arguments_of_ne_comma (by simpa [Parsed.move] using hcomma)]
    rfl
termination_by last.next.rest.length

theorem primary_move :
    primary level (c.move f) = moved f (Parsed.move f) (primary level c) := by
  cases hrest : c.rest with
  | nil =>
    rw [primary_nil hrest, primary_nil (by simp [Cursor.move, hrest])]
    rfl
  | cons token rest =>
    obtain ⟨k, position⟩ := token
    cases k with
    | number value =>
      rw [primary_number hrest, primary_number (rest_move f hrest)]
      rfl
    | leftParen =>
      rw [primary_brackets hrest, primary_brackets (rest_move f hrest)]
      exact bind_eq_moved
        ((ih ⟨some ⟨.leftParen, position⟩, rest⟩ (rest_lt hrest)).expr (isLocated_after _ _) level)
        fun inner => bind_eq_moved (inner.closed_move f) fun q => rfl
    | identifier name =>
      by_cases hopen : next? ⟨some ⟨.identifier name, position⟩, rest⟩ = some .leftParen
      · obtain ⟨bracket, tail, rfl⟩ := next?_eq_some hopen
        cases hf : Function.ofName? name with
        | none =>
          rw [primary_unknown hf hrest, primary_unknown hf (rest_move f hrest)]
          rfl
        | some function =>
          rw [primary_call hf hrest, primary_call hf (rest_move f hrest)]
          have hlt := rest_lt_of_two hrest
          have ih' (d : Cursor) (hd : d.rest.length < tail.length) : Moves f d :=
            ih d (Nat.lt_trans hd hlt)
          exact bind_eq_moved
            ((ih ⟨some ⟨.leftParen, bracket⟩, tail⟩ hlt).expr (isLocated_after _ _) level)
            fun first => bind_eq_moved (arguments_move level ih' 1 first) fun all =>
              bind_eq_moved (all.2.closed_move f) fun q =>
                bind_eq_moved (callOf_move f function all.1 first.tree position) fun t => rfl
      · have hopen' := hopen
        rw [← next?_move f] at hopen'
        rw [primary_name hrest hopen, primary_name (rest_move f hrest) hopen']
        exact bind_eq_moved (identifier_move f name position) fun t => rfl
    | _ =>
      rw [primary_unexpected hrest (by simp) (by simp) (by simp),
        primary_unexpected (rest_move f hrest) (by simp) (by simp) (by simp)]
      rfl

theorem power_move : power level (c.move f) = moved f (Parsed.move f) (power level c) := by
  have hprimary := primary_move level ih
  cases hb : primary level c with
  | error e =>
    rw [hb] at hprimary
    rw [power_of_error hb, power_of_error hprimary]
    rfl
  | ok base =>
    -- The base is read alike, and the step after it looks only at the kind of the next token.
    rw [hb] at hprimary
    by_cases hr : base.next.Raises
    · obtain ⟨position, rest, hrest⟩ := next?_eq_some hr
      have hlt := Nat.lt_trans (rest_lt hrest) base.shorter
      rw [power_raised hb hrest, power_raised hprimary (rest_move f hrest)]
      exact bind_eq_moved
        ((ih ⟨some ⟨.caret, position⟩, rest⟩ hlt).unary (isLocated_after _ _) level)
        fun exponent => bind_eq_moved (bounded_move f _ position) fun t => rfl
    · rw [power_bare hb hr, power_bare hprimary (mt (raises_move_iff f).1 hr)]
      rfl

theorem unary_move (hc : c.IsLocated) :
    unary level (c.move f) = moved f (Parsed.move f) (unary level c) := by
  by_cases hl : level < maxDepth
  · by_cases hm : c.next? = some .minus
    · obtain ⟨position, rest, hrest⟩ := next?_eq_some hm
      rw [unary_minus hl hrest, unary_minus hl (rest_move f hrest)]
      exact bind_eq_moved
        ((ih ⟨some ⟨.minus, position⟩, rest⟩ (rest_lt hrest)).unary (isLocated_after _ _) _)
        fun operand => bind_eq_moved (bounded_move f _ position) fun t => rfl
    by_cases hp : c.next? = some .plus
    · obtain ⟨position, rest, hrest⟩ := next?_eq_some hp
      rw [unary_plus hl hrest, unary_plus hl (rest_move f hrest)]
      exact bind_eq_moved
        ((ih ⟨some ⟨.plus, position⟩, rest⟩ (rest_lt hrest)).unary (isLocated_after _ _) _)
        fun operand => rfl
    · rw [unary_unsigned hl hm hp, unary_unsigned hl (by simpa using hm) (by simpa using hp)]
      exact power_move _ ih
  · rw [unary_of_le (Nat.le_of_not_lt hl), unary_of_le (Nat.le_of_not_lt hl), position_move f hc]
    rfl

theorem products_move (left : Parsed c) :
    products level (left.move f) = moved f (Parsed.move f) (products level left) := by
  by_cases hm : left.next.Multiplies
  · obtain ⟨op, position, rest, hop, hrest⟩ | ⟨k, position, rest, hrest, hstarts, hlast, -⟩ :=
      hm.cases
    · have hlt := Nat.lt_trans (rest_lt hrest) left.shorter
      rw [products_of_sign hop hrest, products_of_sign hop (rest_move f hrest)]
      refine bind_eq_moved
        ((ih ⟨some ⟨sign op, position⟩, rest⟩ hlt).unary (isLocated_after _ _) level)
        fun right => bind_eq_moved (bounded_move f _ position) fun t => ?_
      have := Nat.lt_trans right.shorter (rest_lt hrest)
      exact products_move (left.through t right (Nat.le_of_lt (rest_lt hrest)))
    · rw [products_implicit hlast hrest hstarts,
        products_implicit (by simpa [Parsed.move] using hlast) (rest_move f hrest) hstarts]
      refine bind_eq_moved ((ih _ left.shorter).power level) fun right =>
        bind_eq_moved (bounded_move f _ position) fun t => ?_
      have := right.shorter
      exact products_move (left.through t right (Nat.le_refl _))
  · rw [products_of_not_multiplies hm,
      products_of_not_multiplies (mt (multiplies_move_iff f).1 hm)]
    rfl
termination_by left.next.rest.length

theorem term_move (hc : c.IsLocated) :
    term level (c.move f) = moved f (Parsed.move f) (term level c) := by
  rw [term_eq, term_eq]
  exact bind_eq_moved (unary_move level ih hc) (products_move level ih)

theorem sums_move (left : Parsed c) :
    sums level (left.move f) = moved f (Parsed.move f) (sums level left) := by
  by_cases ha : left.next.Adds
  · obtain ⟨op, hop, hnext⟩ := id ha
    obtain ⟨position, rest, hrest⟩ := next?_eq_some hnext
    have hlt := Nat.lt_trans (rest_lt hrest) left.shorter
    rw [sums_of_sign hop hrest, sums_of_sign hop (rest_move f hrest)]
    refine bind_eq_moved
      ((ih ⟨some ⟨sign op, position⟩, rest⟩ hlt).term (isLocated_after _ _) level)
      fun right => bind_eq_moved (bounded_move f _ position) fun t => ?_
    have := Nat.lt_trans right.shorter (rest_lt hrest)
    exact sums_move (left.through t right (Nat.le_of_lt (rest_lt hrest)))
  · rw [sums_of_not_adds ha, sums_of_not_adds (mt (adds_move_iff f).1 ha)]
    rfl
termination_by left.next.rest.length

theorem expr_move (hc : c.IsLocated) :
    expr level (c.move f) = moved f (Parsed.move f) (expr level c) := by
  rw [expr_eq, expr_eq]
  exact bind_eq_moved (term_move level ih hc) (sums_move level ih)

end Step

/-- **Readers move with the tokens.** -/
theorem moves (f : Nat → Nat) (c : Cursor) : Moves f c :=
  have ih (d : Cursor) (_ : d.rest.length < c.rest.length) : Moves f d := moves f d
  ⟨fun hc level => expr_move level ih hc, fun hc level => term_move level ih hc,
    fun hc level => unary_move level ih hc, fun level => power_move level ih,
    fun level => primary_move level ih⟩
termination_by c.rest.length

end Phrase

/-! ## Whole texts -/

/-- A text is blank if it has no tokens. -/
theorem allBlank_of_tokenize_eq_nil {text : String} (h : tokenize text = .ok []) :
    Text.allBlank text := by
  obtain ⟨_ | ⟨p, pieces⟩, last, htext, -, hlast, htokens⟩ := tokenize_eq_ok_iff.1 h
  · rw [Text.allBlank, htext, List.all_eq_true]
    exact hlast
  · cases htokens

theorem tokens_eq_nil_of_allBlank {text : String} {tokens : List Token}
    (hblank : Text.allBlank text) (h : tokenize text = .ok tokens) : tokens = [] := by
  rw [tokenize, tokensFrom_of_blank (List.all_eq_true.1 hblank)] at h
  exact (Except.ok.inj h).symm

/-- **Parsing moves with the tokens.** -/
theorem parse_move {text text' : String} {tokens : List Token} {f : Nat → Nat}
    (h : tokenize text = .ok tokens) (h' : tokenize text' = .ok (tokens.map (Token.move f))) :
    parse text' = moved f id (parse text) := by
  by_cases hblank : tokens = []
  · subst hblank
    rw [parse_of_blank (allBlank_of_tokenize_eq_nil h),
      parse_of_blank (allBlank_of_tokenize_eq_nil h')]
    rfl
  · have hb : ¬ Text.allBlank text := fun hb => hblank (tokens_eq_nil_of_allBlank hb h)
    have hb' : ¬ Text.allBlank text' := fun hb =>
      hblank (List.map_eq_nil_iff.1 (tokens_eq_nil_of_allBlank hb h'))
    rw [parse_of_tokens hb h, parse_of_tokens hb' h']
    exact bind_eq_moved ((Phrase.moves f ⟨none, tokens⟩).expr (.inl hblank) 0) (Parsed.whole_move f)

/-- **An error stands where a token does.** -/
theorem exists_token_of_parse_eq_error {text : String} {tokens : List Token} {e : FormulaError}
    {position : Nat} (h : tokenize text = .ok tokens) (herror : parse text = .error e)
    (hposition : e.position? = some position) : ∃ token ∈ tokens, token.position = position := by
  by_contra hnone
  push Not at hnone
  -- A map that moves this position alone moves no token, and so not the error.
  have htokens : tokens.map (Token.move (Function.update id position (position + 1))) = tokens := by
    refine (List.map_congr_left fun token htoken => ?_).trans (List.map_id tokens)
    rw [Token.move, Function.update_of_ne (hnone token htoken)]
    rfl
  have hmoved := parse_move h ((congrArg Except.ok htokens).symm ▸ h)
  rw [herror] at hmoved
  have hfixed := FormulaError.position?_move (Function.update id position (position + 1)) e
  rw [← Except.error.inj hmoved, hposition, Option.map_some, Function.update_self] at hfixed
  simp at hfixed

end RealRoots
