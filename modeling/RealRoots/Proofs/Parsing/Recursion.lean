import RealRoots.Proofs.Parsing.Brackets
import RealRoots.Proofs.Tokens.Partition

/-!
# How deep the parser recurses

**Theorem (`recursion_bounded_iff`).** The parser keeps to `maxDepth + 1` calls for a whole
expression exactly where it never has more than `maxDepth` brackets open; where a text parses, these
are the brackets of the text. Among the texts in which a number stands directly before a name or a
bracket at most `k` times, `maxDepth + 1 + k` active calls is the best bound. So there is no bound
for all texts.

The bound is attained by the texts `2(2(2(…((((…`. Each `2(` starts an expression at the level of
the one around it; a bracket alone raises the level.
-/

namespace RealRoots.Phrase

open Token Grammar Cursor

/-- At no moment are more than `maxDepth + 1` whole expressions being read. -/
def KeepsBound (text : String) : Prop :=
  ∀ a path, Stack text a path → exprs (a :: path) ≤ maxDepth + 1

/-! ## The brackets that are open -/

namespace Stack

variable {text : String} {a : Activation} {path : List Activation}

/-- Before further arguments are read, an argument has been. -/
theorem exists_of_inArguments (h : Stack text a path) (ha : a.inArguments) :
    ∃ b path', Stack text b path' ∧ exprs (b :: path') = exprs (a :: path) + 1 := by
  cases h with
  | start => cases ha
  | call h hcall =>
    cases hcall with
    | arguments hf hrest => exact ⟨_, _, h.call (.argument hf hrest), by simp [exprs_cons]⟩
    | nextArguments hrest => exact ⟨_, _, h.call (.nextArgument hrest), by simp [exprs_cons]⟩
    | _ => cases ha

end Stack

/-- There is one call for each open bracket, and one for the whole text. -/
theorem keepsBound_iff_opened_le (text : String) :
    KeepsBound text ↔ ∀ a path, Stack text a path → opened (a.read text) ≤ maxDepth := by
  constructor
  · intro hexprs a path h
    have heq := h.exprs_eq
    by_cases ha : a.inArguments
    · obtain ⟨b, path', hb, hsucc⟩ := h.exists_of_inArguments ha
      have := hexprs b path' hb
      rw [ha, Bool.toNat_true] at heq
      omega
    · have := hexprs a path h
      rw [Bool.not_eq_true] at ha
      rw [ha, Bool.toNat_false] at heq
      omega
  · intro hopened a path h
    have heq := h.exprs_eq
    have := hopened a path h
    omega

/-! ## Texts that nest as deep as they can -/

/-- `2(` so many times, and then brackets alone. -/
def nested (twos alone : Nat) : List Char :=
  (List.replicate twos ['2', '(']).flatten ++ List.replicate alone '('

theorem nested_succ (twos alone : Nat) :
    nested (twos + 1) alone = '2' :: '(' :: nested twos alone := by
  simp [nested, List.replicate_succ]

theorem nested_zero_succ (alone : Nat) : nested 0 (alone + 1) = '(' :: nested 0 alone := by
  simp [nested, List.replicate_succ]

/-- The number that `2` spells. -/
def two : Float :=
  (Literal.scan ['2']).1.toDecimal.toFloat

/-- The tokens of a nested text. -/
def nestedKinds (twos alone : Nat) : List Kind :=
  (List.replicate twos [.number two, .leftParen]).flatten ++ List.replicate alone .leftParen

theorem nestedKinds_succ (twos alone : Nat) : nestedKinds (twos + 1) alone =
    .number two :: .leftParen :: nestedKinds twos alone := by
  simp [nestedKinds, List.replicate_succ]

theorem nestedKinds_zero_succ (alone : Nat) :
    nestedKinds 0 (alone + 1) = .leftParen :: nestedKinds 0 alone := by
  simp [nestedKinds, List.replicate_succ]

theorem joints_leftParen_cons (u : List Kind) : joints (.leftParen :: u) = joints u := by
  cases u with
  | nil => rfl
  | cons k u => exact Nat.zero_add _

theorem joints_nestedKinds (twos alone : Nat) : joints (nestedKinds twos alone) = twos := by
  induction twos with
  | zero =>
    induction alone with
    | zero => rfl
    | succ alone ih => rw [nestedKinds_zero_succ, joints_leftParen_cons, ih]
  | succ twos ih =>
    rw [nestedKinds_succ, joints, joints_leftParen_cons, ih, Nat.add_comm]
    rfl

theorem tokensFrom_leftParen (position : Nat) (cs : List Char) :
    tokensFrom position ('(' :: cs) = (do
      let tokens ← tokensFrom (position + 1) cs
      .ok (⟨.leftParen, position⟩ :: tokens)) := by
  have hcut : (⟨[], .leftParen, ['(']⟩ : Piece).IsCut cs :=
    Piece.isCut_sign (by simp) rfl (by simp)
  exact tokensFrom_piece hcut position

theorem tokensFrom_two (position : Nat) (cs : List Char) :
    tokensFrom position ('2' :: '(' :: cs) = (do
      let tokens ← tokensFrom (position + 1) ('(' :: cs)
      .ok (⟨.number two, position⟩ :: tokens)) := by
  have hends : EndsNumber ('(' :: cs) := by
    rintro _ ⟨⟩
    decide
  have hcut : (⟨[], .number two, ['2']⟩ : Piece).IsCut ('(' :: cs) :=
    Piece.isCut_number (by simp) (Literal.wellFormed_scan rfl : (Literal.scan ['2']).1.WellFormed)
      hends
  exact tokensFrom_piece hcut position

theorem tokensFrom_nested (twos alone position : Nat) :
    ∃ tokens, tokensFrom position (nested twos alone) = .ok tokens ∧
      tokens.map Token.kind = nestedKinds twos alone := by
  induction twos generalizing position with
  | zero =>
    induction alone generalizing position with
    | zero => exact ⟨[], by rw [show nested 0 0 = [] from rfl, tokensFrom], rfl⟩
    | succ alone ih =>
      obtain ⟨tokens, htokens, hkinds⟩ := ih (position + 1)
      refine ⟨⟨.leftParen, position⟩ :: tokens, ?_, by simp [nestedKinds_zero_succ, hkinds]⟩
      rw [nested_zero_succ, tokensFrom_leftParen, htokens, ok_bind]
  | succ twos ih =>
    obtain ⟨tokens, htokens, hkinds⟩ := ih (position + 1 + 1)
    refine ⟨⟨.number two, position⟩ :: ⟨.leftParen, position + 1⟩ :: tokens, ?_, ?_⟩
    · rw [nested_succ, tokensFrom_two, tokensFrom_leftParen, htokens, ok_bind, ok_bind]
    · simp [nestedKinds_succ, hkinds]

theorem tokenize_nested (twos alone : Nat) :
    ∃ tokens, tokenize (String.ofList (nested twos alone)) = .ok tokens ∧
      tokens.map Token.kind = nestedKinds twos alone := by
  rw [tokenize, String.toList_ofList]
  exact tokensFrom_nested twos alone 0

theorem kinds_nested (twos alone : Nat) :
    kinds (String.ofList (nested twos alone)) = nestedKinds twos alone := by
  obtain ⟨tokens, htokens, hkinds⟩ := tokenize_nested twos alone
  simp only [kinds, htokens, hkinds]

/-! ## How the calls pile up -/

section Nesting

variable {text : String} {level : Nat} {c : Cursor} {path : List Activation} {u : List Kind}

/-- A number alone is read as a factor. -/
theorem unary_number {position : Nat} {rest : List Token} {value : Float}
    (hl : level < maxDepth) (hc : c.rest = ⟨.number value, position⟩ :: rest)
    (hrest : next? ⟨some ⟨.number value, position⟩, rest⟩ ≠ some .caret) :
    unary level c =
      .ok ⟨.number value, ⟨some ⟨.number value, position⟩, rest⟩, Cursor.rest_lt hc⟩ := by
  have hnext : c.next? = some (.number value) := next?_of_rest hc
  rw [unary_unsigned hl (by simp [hnext]) (by simp [hnext])]
  exact power_bare (primary_number hc) hrest

/-- A bracket raises the level. -/
theorem Stack.bracket (h : Stack text (.expr level c) path) (hl : level < maxDepth)
    (hc : c.rest.map Token.kind = .leftParen :: u) :
    ∃ c' path', Stack text (.expr (level + 1) c') path' ∧ c'.rest.map Token.kind = u ∧
      exprs (.expr (level + 1) c' :: path') = exprs (.expr level c :: path) + 1 := by
  obtain ⟨⟨k, position⟩, rest, hrest, rfl, rfl⟩ := List.map_eq_cons_iff.1 hc
  have hnext : c.next? = some .leftParen := next?_of_rest hrest
  have hfactor := ((h.call (.term level c)).call (.unary level c)).call
    (.unsigned hl (by simp [hnext]) (by simp [hnext]))
  exact ⟨_, _, (hfactor.call (.primary _ c)).call (.brackets hrest), rfl, by simp [exprs_cons]⟩

/-- The bracket of an implicit product does not. -/
theorem Stack.joinedBracket {value : Float} (h : Stack text (.expr level c) path)
    (hl : level < maxDepth) (hc : c.rest.map Token.kind = .number value :: .leftParen :: u) :
    ∃ c' path', Stack text (.expr level c') path' ∧ c'.rest.map Token.kind = u ∧
      exprs (.expr level c' :: path') = exprs (.expr level c :: path) + 1 := by
  obtain ⟨⟨k, position⟩, tail, hnumber, rfl, htail⟩ := List.map_eq_cons_iff.1 hc
  obtain ⟨⟨k', bracket⟩, rest, rfl, rfl, rfl⟩ := List.map_eq_cons_iff.1 htail
  have hfirst := unary_number hl hnumber (by simp)
  have hproduct := (h.call (.term level c)).call (.products hfirst)
  have hfactor := hproduct.call (.joined ⟨value, rfl⟩ rfl rfl)
  exact ⟨_, _, (hfactor.call (.primary _ _)).call (.brackets rfl), rfl, by simp [exprs_cons]⟩

theorem Stack.brackets {alone : Nat} (h : Stack text (.expr level c) path)
    (hl : level + alone ≤ maxDepth) (hc : c.rest.map Token.kind = nestedKinds 0 alone) :
    ∃ a path', Stack text a path' ∧
      exprs (a :: path') = exprs (.expr level c :: path) + alone := by
  induction alone generalizing level c path with
  | zero => exact ⟨_, _, h, rfl⟩
  | succ alone ih =>
    rw [nestedKinds_zero_succ] at hc
    obtain ⟨c', path', h', hc', hexprs⟩ := h.bracket (by omega) hc
    obtain ⟨a, path, ha, hexprs'⟩ := ih h' (by omega) hc'
    exact ⟨a, path, ha, by omega⟩

theorem Stack.joinedBrackets {twos alone : Nat} (h : Stack text (.expr level c) path)
    (hl : level < maxDepth) (hbound : level + alone ≤ maxDepth)
    (hc : c.rest.map Token.kind = nestedKinds twos alone) :
    ∃ a path', Stack text a path' ∧
      exprs (a :: path') = exprs (.expr level c :: path) + twos + alone := by
  induction twos generalizing c path with
  | zero => exact h.brackets hbound hc
  | succ twos ih =>
    rw [nestedKinds_succ] at hc
    obtain ⟨c', path', h', hc', hexprs⟩ := h.joinedBracket hl hc
    obtain ⟨a, path, ha, hexprs'⟩ := ih h' hc'
    exact ⟨a, path, ha, by omega⟩

end Nesting

theorem not_allBlank_nested {twos alone : Nat} (h : 0 < twos + alone) :
    ¬ Text.allBlank (String.ofList (nested twos alone)) := by
  have htwo : Text.isBlank '2' = false := by decide
  have hbracket : Text.isBlank '(' = false := by decide
  rw [Text.allBlank, String.toList_ofList]
  cases twos with
  | zero =>
    obtain ⟨alone, rfl⟩ : ∃ n, alone = n + 1 := ⟨alone - 1, by omega⟩
    simp [nested_zero_succ, hbracket]
  | succ twos => simp [nested_succ, htwo]

/-- A nested text is read with one call for each bracket in it. -/
theorem exists_stack_nested {twos alone : Nat} (h0 : 0 < twos + alone) (h : alone ≤ maxDepth) :
    ∃ a path, Stack (String.ofList (nested twos alone)) a path ∧
      exprs (a :: path) = 1 + twos + alone := by
  obtain ⟨tokens, htokens, hkinds⟩ := tokenize_nested twos alone
  exact Stack.joinedBrackets (.start (not_allBlank_nested h0) htokens) (by decide) (by omega) hkinds

/-- The best bound among the texts with at most `k` joints. -/
theorem exprs_le_iff_joints (k bound : Nat) :
    (∀ text a path, joints (kinds text) ≤ k → Stack text a path → exprs (a :: path) ≤ bound) ↔
      maxDepth + 1 + k ≤ bound := by
  constructor
  · intro h
    obtain ⟨a, path, hstack, hexprs⟩ :=
      exists_stack_nested (Nat.add_pos_right k (by decide)) (Nat.le_refl maxDepth)
    have hjoints : joints (kinds (String.ofList (nested k maxDepth))) = k := by
      rw [kinds_nested, joints_nestedKinds]
    have := h _ a path (Nat.le_of_eq hjoints) hstack
    omega
  · intro hbound text a path hjoints hstack
    have hexprs := hstack.exprs_le
    have hjoined := hstack.joined_le_joints
    omega

/-- **The parser recurses once for each open bracket, and `joints` sets the bound.** -/
theorem recursion_bounded_iff (text : String) (k bound : Nat) :
    (KeepsBound text ↔ ∀ a path, Stack text a path → opened (a.read text) ≤ maxDepth) ∧
    (∀ t, parse text = .ok t →
      (KeepsBound text ↔ ∀ u, u <+: kinds text → opened u ≤ maxDepth)) ∧
    ((∀ text a path, joints (kinds text) ≤ k → Stack text a path →
      exprs (a :: path) ≤ bound) ↔ maxDepth + 1 + k ≤ bound) := by
  refine ⟨keepsBound_iff_opened_le text, ?_, exprs_le_iff_joints k bound⟩
  intro t h
  rw [keepsBound_iff_opened_le, opened_read_le_iff h]

theorem expr_of_nestedKinds {level twos : Nat} {c : Cursor} (hl : level < maxDepth)
    (hc : c.rest.map Token.kind = nestedKinds twos 0) :
    expr level c = .error .unexpectedEnd := by
  induction twos generalizing c with
  | zero =>
    have hrest : c.rest = [] := List.map_eq_nil_iff.1 hc
    have hunary : unary level c = .error .unexpectedEnd := by
      rw [unary_unsigned hl (by simp [next?, hrest]) (by simp [next?, hrest])]
      exact power_of_error (primary_nil hrest)
    rw [expr_eq, term_eq, hunary, error_bind, error_bind]
  | succ twos ih =>
    rw [nestedKinds_succ] at hc
    obtain ⟨⟨k, position⟩, tail, hnumber, rfl, htail⟩ := List.map_eq_cons_iff.1 hc
    obtain ⟨⟨k', bracket⟩, rest, rfl, rfl, hrest⟩ := List.map_eq_cons_iff.1 htail
    have hfirst := unary_number hl hnumber (by simp)
    have hpower : power level ⟨some ⟨.number two, position⟩, ⟨.leftParen, bracket⟩ :: rest⟩ =
        .error .unexpectedEnd := by
      refine power_of_error ?_
      rw [primary_brackets rfl, ih hrest, error_bind]
    rw [expr_eq, term_eq, hfirst, ok_bind, products_implicit ⟨two, rfl⟩ rfl rfl, hpower,
      error_bind, error_bind]

/-- A text of brackets that are left open ends too soon, however many there are. -/
theorem parse_nested (twos : Nat) :
    parse (String.ofList (nested (twos + 1) 0)) = .error .unexpectedEnd := by
  obtain ⟨tokens, htokens, hkinds⟩ := tokenize_nested (twos + 1) 0
  rw [parse, if_neg (not_allBlank_nested (Nat.succ_pos _)), htokens]
  simp only [ok_bind, expr_of_nestedKinds (c := ⟨none, tokens⟩) (by decide : 0 < maxDepth) hkinds]
  rfl

/-- **The bound is not kept.** Each of these brackets is read by a call of its own, and the answer is
that the text ends too soon, not that it nests too deep. -/
theorem two_brackets_recursion :
    ¬ KeepsBound (String.ofList (nested 257 0)) ∧
      parse (String.ofList (nested 257 0)) = .error .unexpectedEnd := by
  refine ⟨fun h => ?_, parse_nested 256⟩
  obtain ⟨a, path, hstack, hexprs⟩ := exists_stack_nested (by decide : 0 < 257 + 0) (Nat.zero_le _)
  have := h a path hstack
  rw [hexprs] at this
  exact absurd this (by decide)

end RealRoots.Phrase
