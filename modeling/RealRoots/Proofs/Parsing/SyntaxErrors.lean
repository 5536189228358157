import RealRoots.Proofs.Grammar.Viability
import RealRoots.Proofs.Parsing.Positions
import RealRoots.Proofs.Parsing.Soundness

/-!
# Syntax errors point at the first fault

**Theorem (`syntax_errors_point_at_fault`).** If a token is unexpected, the error has the place and
the text of that token, and the tokens before it go on to a whole expression in some way; if the
text ends too early, all of its tokens do. Every place that an error gives is the start of a token
of the text or of a character that starts none.

A reader is called where a phrase is awaited (`Awaits`). It either reads one, and then a later part
is awaited after it, or it stops at a token before which a phrase could still follow (`Fault`). Each
reader takes one step of this kind for each rule of the grammar, and the induction is on the number
of tokens ahead, as in `Phrase.sound`.
-/

namespace RealRoots

open Token Grammar Cursor

/-! ## Faults -/

/-- Does the error say that a token, or the end, is not expected? -/
def FormulaError.isSyntax : FormulaError → Bool
  | unexpectedToken .. | unexpectedEnd => true
  | _ => false

/-- An error of a reader at `c`, before which stand tokens of the kinds `u`. If it is a syntax
error, the tokens before the place that it names are viable. -/
inductive Fault (u : List Kind) (c : Cursor) : FormulaError → Prop
  | token {v : List Kind} {n : Cursor} {token : Token} {rest : List Token} : Passes c v n →
      n.rest = token :: rest → Viable (u ++ v) → Fault u c token.unexpected
  | finish {v : List Kind} {n : Cursor} : Passes c v n → n.rest = [] → Viable (u ++ v) →
      Fault u c .unexpectedEnd
  | other {e : FormulaError} : e.isSyntax = false → Fault u c e

/-- A fault that is found later on. -/
theorem Fault.after {u v : List Kind} {c d : Cursor} {e : FormulaError} (hp : Passes c v d)
    (h : Fault (u ++ v) d e) : Fault u c e := by
  cases h with
  | token hpass hrest hviable => exact .token (hp.append hpass) hrest (by simpa using hviable)
  | finish hpass hrest hviable => exact .finish (hp.append hpass) hrest (by simpa using hviable)
  | other he => exact .other he

theorem Fault.of_rest {u v : List Kind} {c n : Cursor} {token : Token} {rest : List Token}
    (hp : Passes c v n) (hrest : n.rest = token :: rest) (hviable : Viable (u ++ v)) :
    Fault u c (.unexpectedToken token.kind.text token.position) :=
  .token hp hrest hviable

theorem isSyntax_of_bounded {tree : Expr} {position : Nat} {e : FormulaError}
    (h : bounded tree position = .error e) : e.isSyntax = false := by
  unfold bounded at h
  split at h
  · cases h
    rfl
  · cases h

theorem isSyntax_of_callOf {function : Function} {count position : Nat} {argument : Expr}
    {e : FormulaError} (h : callOf function count argument position = .error e) :
    e.isSyntax = false := by
  unfold callOf at h
  split at h
  · exact isSyntax_of_bounded h
  · cases h
    rfl

/-- A name that cannot stand alone is unexpected if it names a function. -/
theorem identifier_eq_error {name : String} {position : Nat} {e : FormulaError}
    (h : identifier name position = .error e) :
    e = .unexpectedToken name position ∨ e.isSyntax = false := by
  unfold identifier at h
  repeat' split at h
  all_goals cases h
  · exact .inl rfl
  · exact .inr rfl

theorem Fault.of_closed {u v : List Kind} {c d : Cursor} {p : Parsed d} {e : FormulaError}
    (hp : Passes c v p.next) (hviable : Viable (u ++ v)) (h : p.closed = .error e) :
    Fault u c e := by
  cases hrest : p.next.rest with
  | nil =>
    rw [Parsed.closed_of_nil hrest] at h
    cases h
    exact .finish hp hrest hviable
  | cons token rest =>
    by_cases hk : token.kind = .rightParen
    · obtain ⟨k, position⟩ := token
      obtain rfl : k = .rightParen := hk
      rw [Parsed.closed_of_rest hrest] at h
      cases h
    · rw [Parsed.closed_of_ne hrest hk] at h
      cases h
      exact .token hp hrest hviable

/-- After tokens that start the awaited phrase, its next part is awaited. -/
theorem awaits_after {s s' : Symbol} {u v : List Kind} {c d : Cursor} (ha : Awaits s c.next? u)
    (hp : Passes c v d) (hne : v ≠ [])
    (hrule : ∀ w, Forms s' w → ∃ z, Forms s z ∧ v ++ w <+: z) : Awaits s' d.next? (u ++ v) :=
  ha.inside hne (hp.next?_eq hne) hrule _

/-- After a product that ends in a number, a right factor is awaited where one starts. -/
theorem awaits_factor {u v : List Kind} {c d : Cursor} (ha : Awaits .product c.next? u)
    (hp : Passes c v d) (hne : v ≠ []) (hforms : Forms .product v) (hm : d.Multiplies)
    (hsign : ∀ op, d.next? ≠ some (sign op)) : Awaits .power d.next? (u ++ v) where
  viable := ha.viable_start hforms List.prefix_rfl hne (hp.next?_eq hne)
  phrase w hw hhead := by
    -- Only a factor that starts like the next token makes an implicit product here.
    obtain ⟨op, -, hnext⟩ | ⟨hlast, hnext⟩ := hm
    · exact absurd hnext (hsign op)
    rw [hp.last?_eq hne] at hlast
    rw [← hhead] at hnext
    have hstart : c.next? = (v ++ w).head? := by
      rw [hp.next?_eq hne, List.head?_append_of_ne_nil _ hne]
    rw [List.append_assoc]
    exact ha.viable_start (.implicit hforms hw hlast hnext) List.prefix_rfl (by simp [hne]) hstart

theorem Reads.forms {s : Symbol} {level : Nat} {c n : Cursor} {t : Expr}
    (h : Reads s level c t n) : ∃ v, Passes c v n ∧ v ≠ [] ∧ Forms s v := by
  obtain ⟨d, hv, -, -, -, hp⟩ := h
  exact ⟨d.yield, hp, d.yield_ne_nil, d.forms hv⟩

namespace Phrase

/-- Readers that are called where their phrase is awaited fail at a fault. -/
structure Faults (c : Cursor) : Prop where
  expr : ∀ {level u e}, Awaits .sum c.next? u → expr level c = .error e → Fault u c e
  term : ∀ {level u e}, Awaits .product c.next? u → term level c = .error e → Fault u c e
  unary : ∀ {level u e}, Awaits .unary c.next? u → unary level c = .error e → Fault u c e
  power : ∀ {level u e}, level ≤ maxDepth → Awaits .power c.next? u → power level c = .error e →
    Fault u c e
  primary : ∀ {level u e}, Awaits .primary c.next? u → primary level c = .error e → Fault u c e

section Step

variable {level : Nat} {u : List Kind} {c : Cursor} {e : FormulaError}
  (ih : ∀ d : Cursor, d.rest.length < c.rest.length → Faults d)

/-- The arguments of a call that are read are arguments by the grammar. -/
theorem arguments_forms {count n : Nat} {d : Cursor} {v : List Kind} {last q : Parsed c}
    (hp : Passes d v last.next) (hv : FormArguments v)
    (h : arguments level count last = .ok (n, q)) :
    ∃ v', Passes d v' q.next ∧ FormArguments v' := by
  by_cases hcomma : last.next.next? = some .comma
  · obtain ⟨position, rest, hrest⟩ := next?_eq_some hcomma
    rw [arguments_of_comma hrest, bind_eq_ok] at h
    obtain ⟨next, hnext, h⟩ := h
    have := Nat.lt_trans next.shorter (rest_lt hrest)
    obtain ⟨w, hw, -, hforms⟩ := ((sound _).expr hnext).forms
    exact arguments_forms (hp.append ((Passes.token hrest).append hw)) (.more hv hforms) h
  · rw [arguments_of_ne_comma hcomma] at h
    cases h
    exact ⟨v, hp, hv⟩
termination_by last.next.rest.length

include ih

/-- After the arguments that are read, another one is awaited behind a comma. -/
theorem arguments_faults {count : Nat} {v : List Kind} {d : Cursor} {last : Parsed c}
    (ha : ∀ v, FormArguments v → ∀ next, Awaits .sum next (u ++ (v ++ [.comma])))
    (hp : Passes d v last.next) (hv : FormArguments v)
    (h : arguments level count last = .error e) : Fault u d e := by
  by_cases hcomma : last.next.next? = some .comma
  · obtain ⟨position, rest, hrest⟩ := next?_eq_some hcomma
    have hlt := Nat.lt_trans (rest_lt hrest) last.shorter
    rw [arguments_of_comma hrest, bind_eq_error] at h
    obtain h | ⟨next, hnext, h⟩ := h
    · exact .after (hp.append (Passes.token hrest)) ((ih _ hlt).expr (ha v hv _) h)
    · have := Nat.lt_trans next.shorter (rest_lt hrest)
      obtain ⟨w, hw, -, hforms⟩ := ((sound _).expr hnext).forms
      exact arguments_faults ha (hp.append ((Passes.token hrest).append hw)) (.more hv hforms) h
  · rw [arguments_of_ne_comma hcomma] at h
    cases h
termination_by last.next.rest.length

theorem call_faults {name : String} {function : Function} {position bracket : Nat}
    {rest : List Token} (ha : Awaits .primary c.next? u)
    (hf : Function.ofName? name = some function)
    (hrest : c.rest = ⟨.identifier name, position⟩ :: ⟨.leftParen, bracket⟩ :: rest)
    (h : primary level c = .error e) : Fault u c e := by
  have hnamed := Named.iff_ofName?.2 hf
  have hopen : Passes c [.identifier name, .leftParen] ⟨some ⟨.leftParen, bracket⟩, rest⟩ :=
    (Passes.token hrest).append (Passes.token rfl)
  have hlt := rest_lt_of_two hrest
  simp only [primary_call hf hrest, bind_eq_error] at h
  obtain h | ⟨first, hfirst, h⟩ := h
  · refine .after hopen ((ih _ hlt).expr (awaits_after ha hopen (by simp) fun w hw => ?_) h)
    exact ⟨_, .call hnamed (.one hw), [.rightParen], rfl⟩
  obtain ⟨v, hv, -, hforms⟩ := ((sound _).expr hfirst).forms
  obtain h | ⟨⟨count, last⟩, hlast, h⟩ := h
  · refine .after hopen (arguments_faults (fun d hd => ih d (Nat.lt_trans hd hlt)) ?_ hv
      (.one hforms) h)
    -- The arguments that are read start a longer call, which goes on with a comma.
    intro v hv next
    have hnext : c.next? = ([Kind.identifier name, .leftParen] ++ (v ++ [Kind.comma])).head? :=
      next?_of_rest hrest
    rw [List.append_assoc]
    refine ha.inside (by simp) hnext (fun w hw => ?_) next
    exact ⟨_, .call hnamed (.more hv hw), [.rightParen], by simp⟩
  obtain ⟨v', hv', hforms'⟩ := arguments_forms hv (.one hforms) hlast
  obtain h | ⟨q, -, h | ⟨t, -, ⟨⟩⟩⟩ := h
  · refine .of_closed (hopen.append hv') (ha.viable_start (.call hnamed hforms') ?_ (by simp) ?_) h
    · exact ⟨[.rightParen], rfl⟩
    · exact next?_of_rest hrest
  · exact .other (isSyntax_of_callOf h)

theorem brackets_faults {position : Nat} {rest : List Token} (ha : Awaits .primary c.next? u)
    (hrest : c.rest = ⟨.leftParen, position⟩ :: rest) (h : primary level c = .error e) :
    Fault u c e := by
  have hopen := Passes.token hrest
  simp only [primary_brackets hrest, bind_eq_error] at h
  obtain h | ⟨inner, hinner, h⟩ := h
  · refine .after hopen ((ih _ (rest_lt hrest)).expr
      (awaits_after ha hopen (by simp) fun w hw => ?_) h)
    exact ⟨_, .brackets hw, [.rightParen], rfl⟩
  obtain ⟨v, hv, -, hforms⟩ := ((sound _).expr hinner).forms
  obtain h | ⟨q, -, ⟨⟩⟩ := h
  refine .of_closed (hopen.append hv) (ha.viable_start (.brackets hforms) ?_ (by simp) ?_) h
  · exact ⟨[.rightParen], rfl⟩
  · exact next?_of_rest hrest

theorem primary_faults (ha : Awaits .primary c.next? u) (h : primary level c = .error e) :
    Fault u c e := by
  have hhere : Viable (u ++ []) := by simpa using ha.viable
  cases hrest : c.rest with
  | nil =>
    rw [primary_nil hrest] at h
    cases h
    exact .finish (.nil c) hrest hhere
  | cons token rest =>
    obtain ⟨k, position⟩ := token
    cases k with
    | number value =>
      rw [primary_number hrest] at h
      cases h
    | leftParen => exact brackets_faults ih ha hrest h
    | identifier name =>
      by_cases hopen : next? ⟨some ⟨.identifier name, position⟩, rest⟩ = some .leftParen
      · obtain ⟨bracket, tail, rfl⟩ := next?_eq_some hopen
        cases hf : Function.ofName? name with
        | none =>
          rw [primary_unknown hf hrest] at h
          cases h
          exact .other rfl
        | some function => exact call_faults ih ha hf hrest h
      · simp only [primary_name hrest hopen, bind_eq_error] at h
        obtain h | ⟨t, -, ⟨⟩⟩ := h
        obtain rfl | he := identifier_eq_error h
        · exact .of_rest (.nil c) hrest hhere
        · exact .other he
    | _ =>
      rw [primary_unexpected hrest (by simp) (by simp) (by simp)] at h
      cases h
      exact .token (.nil c) hrest hhere

theorem power_faults (hl : level ≤ maxDepth) (ha : Awaits .power c.next? u)
    (h : power level c = .error e) : Fault u c e := by
  cases hb : primary level c with
  | error e' =>
    rw [power_of_error hb] at h
    cases h
    exact primary_faults ih (ha.of_forms fun _ => .bare) hb
  | ok base =>
    by_cases hr : base.next.Raises
    · obtain ⟨position, rest, hrest⟩ := next?_eq_some hr
      obtain ⟨v, hv, -, hforms⟩ := ((sound c).primary hl hb).forms
      have hlt := Nat.lt_trans (rest_lt hrest) base.shorter
      have hpass := hv.append (Passes.token hrest)
      simp only [power_raised hb hrest, bind_eq_error] at h
      obtain h | ⟨exponent, -, h | ⟨t, -, ⟨⟩⟩⟩ := h
      · refine .after hpass ((ih _ hlt).unary (awaits_after ha hpass (by simp) fun w hw => ?_) h)
        exact ⟨_, .raised hforms hw, [], by simp⟩
      · exact .other (isSyntax_of_bounded h)
    · rw [power_bare hb hr] at h
      cases h

theorem unary_faults (ha : Awaits .unary c.next? u) (h : unary level c = .error e) :
    Fault u c e := by
  by_cases hl : level < maxDepth
  · by_cases hm : c.next? = some .minus
    · obtain ⟨position, rest, hrest⟩ := next?_eq_some hm
      have hpass := Passes.token hrest
      simp only [unary_minus hl hrest, bind_eq_error] at h
      obtain h | ⟨operand, -, h | ⟨t, -, ⟨⟩⟩⟩ := h
      · exact .after hpass ((ih _ (rest_lt hrest)).unary
          (awaits_after ha hpass (by simp) fun w hw => ⟨_, .minus hw, List.prefix_rfl⟩) h)
      · exact .other (isSyntax_of_bounded h)
    by_cases hp : c.next? = some .plus
    · obtain ⟨position, rest, hrest⟩ := next?_eq_some hp
      have hpass := Passes.token hrest
      simp only [unary_plus hl hrest, bind_eq_error] at h
      obtain h | ⟨operand, -, ⟨⟩⟩ := h
      exact .after hpass ((ih _ (rest_lt hrest)).unary
        (awaits_after ha hpass (by simp) fun w hw => ⟨_, .plus hw, List.prefix_rfl⟩) h)
    · rw [unary_unsigned hl hm hp] at h
      exact power_faults ih hl (ha.of_forms fun _ => .unsigned) h
  · rw [unary_of_le (Nat.le_of_not_lt hl)] at h
    cases h
    exact .other rfl

theorem products_faults {left : Parsed c} (ha : Awaits .product c.next? u)
    (hleft : Reads .product level c left.tree left.next)
    (h : products level left = .error e) : Fault u c e := by
  obtain ⟨v, hv, hne, hforms⟩ := hleft.forms
  by_cases hm : left.next.Multiplies
  · obtain ⟨op, position, rest, hop, hrest⟩ | ⟨k, position, rest, hrest, hstarts, hlast, hsign⟩ :=
      hm.cases
    · have hlt := Nat.lt_trans (rest_lt hrest) left.shorter
      have hpass := hv.append (Passes.token hrest)
      simp only [products_of_sign hop hrest, bind_eq_error, bounded_eq_ok] at h
      obtain h | ⟨right, hright, h | ⟨t, ⟨rfl, hd⟩, h⟩⟩ := h
      · refine .after hpass ((ih _ hlt).unary (awaits_after ha hpass (by simp) fun w hw => ?_) h)
        exact ⟨_, .product hop hforms hw, [], by simp⟩
      · exact .other (isSyntax_of_bounded h)
      · have := Nat.lt_trans right.shorter (rest_lt hrest)
        exact products_faults ha (hleft.product hop hrest ((sound _).unary hright) hd) h
    · simp only [products_implicit hlast hrest hstarts, bind_eq_error, bounded_eq_ok] at h
      obtain h | ⟨right, hright, h | ⟨t, ⟨rfl, hd⟩, h⟩⟩ := h
      · exact .after hv ((ih _ left.shorter).power hleft.level_le
          (awaits_factor ha hv hne hforms hm hsign) h)
      · exact .other (isSyntax_of_bounded h)
      · have := right.shorter
        have hpower := (sound left.next).power hleft.level_le hright
        exact products_faults ha (hleft.implicit hm hsign hpower hd) h
  · rw [products_of_not_multiplies hm] at h
    cases h
termination_by left.next.rest.length

theorem term_faults (ha : Awaits .product c.next? u) (h : term level c = .error e) :
    Fault u c e := by
  rw [term_eq, bind_eq_error] at h
  obtain h | ⟨first, hfirst, h⟩ := h
  · exact unary_faults ih (ha.of_forms fun _ => .factor) h
  · exact products_faults ih ha ((sound c).unary hfirst).factor h

theorem sums_faults {left : Parsed c} (ha : Awaits .sum c.next? u)
    (hleft : Reads .sum level c left.tree left.next)
    (h : sums level left = .error e) : Fault u c e := by
  by_cases hadds : left.next.Adds
  · obtain ⟨op, hop, hnext⟩ := hadds
    obtain ⟨position, rest, hrest⟩ := next?_eq_some hnext
    obtain ⟨v, hv, -, hforms⟩ := hleft.forms
    have hlt := Nat.lt_trans (rest_lt hrest) left.shorter
    have hpass := hv.append (Passes.token hrest)
    simp only [sums_of_sign hop hrest, bind_eq_error, bounded_eq_ok] at h
    obtain h | ⟨right, hright, h | ⟨t, ⟨rfl, hd⟩, h⟩⟩ := h
    · refine .after hpass ((ih _ hlt).term (awaits_after ha hpass (by simp) fun w hw => ?_) h)
      exact ⟨_, .sum hop hforms hw, [], by simp⟩
    · exact .other (isSyntax_of_bounded h)
    · have := Nat.lt_trans right.shorter (rest_lt hrest)
      exact sums_faults ha (hleft.sum hop hrest ((sound _).term hright) hd) h
  · rw [sums_of_not_adds hadds] at h
    cases h
termination_by left.next.rest.length

theorem expr_faults (ha : Awaits .sum c.next? u) (h : expr level c = .error e) :
    Fault u c e := by
  rw [expr_eq, bind_eq_error] at h
  obtain h | ⟨first, hfirst, h⟩ := h
  · exact term_faults ih (ha.of_forms fun _ => .term) h
  · exact sums_faults ih ha ((sound c).term hfirst).term h

end Step

/-- **Where a phrase is awaited, its reader fails at a fault.** -/
theorem faults (c : Cursor) : Faults c :=
  have ih (d : Cursor) (_ : d.rest.length < c.rest.length) : Faults d := faults d
  ⟨expr_faults ih, term_faults ih, unary_faults ih, power_faults ih, primary_faults ih⟩
termination_by c.rest.length

end Phrase

/-! ## Whole texts -/

theorem Parsed.whole_eq_error {c : Cursor} {p : Parsed c} {e : FormulaError}
    (h : p.whole = .error e) :
    ∃ token rest, p.next.rest = token :: rest ∧ e = token.unexpected := by
  unfold whole at h
  split at h
  · cases h
  · exact ⟨_, _, ‹_›, (Except.error.inj h).symm⟩

/-- **Parsing fails at a fault of the whole text.** -/
theorem fault_of_parse_eq_error {text : String} {tokens : List Token} {e : FormulaError}
    (htokens : tokenize text = .ok tokens) (h : parse text = .error e) :
    Fault [] ⟨none, tokens⟩ e := by
  by_cases hblank : Text.allBlank text
  · rw [parse_of_blank hblank] at h
    cases h
    exact .other rfl
  · rw [parse_of_tokens hblank htokens, bind_eq_error] at h
    obtain h | ⟨p, hp, h⟩ := h
    · exact (Phrase.faults _).expr (.start _) h
    · obtain ⟨token, rest, hrest, rfl⟩ := Parsed.whole_eq_error h
      obtain ⟨v, hv, -, hforms⟩ := ((Phrase.sound _).expr hp).forms
      exact .token hv hrest ⟨[], by simpa using hforms⟩

theorem Fault.exists_token {u : List Kind} {c : Cursor} {found : String} {position : Nat}
    (h : Fault u c (.unexpectedToken found position)) : ∃ v n token rest, Passes c v n ∧
      n.rest = token :: rest ∧ Viable (u ++ v) ∧ found = token.kind.text ∧
        position = token.position := by
  generalize he : FormulaError.unexpectedToken found position = e at h
  cases h with
  | token hp hrest hviable =>
    cases he
    exact ⟨_, _, _, _, hp, hrest, hviable, rfl, rfl⟩
  | finish => cases he
  | other hsyntax =>
    subst he
    cases hsyntax

theorem Fault.viable_all {u : List Kind} {c : Cursor} (h : Fault u c .unexpectedEnd) :
    Viable (u ++ c.rest.map Token.kind) := by
  generalize he : FormulaError.unexpectedEnd = e at h
  cases h with
  | token => cases he
  | finish hp hrest hviable =>
    rw [hp.kinds, hrest, List.map_nil, List.append_nil]
    exact hviable
  | other hsyntax =>
    subst he
    cases hsyntax

/-- A token of a text has a spelling that starts at its position. -/
theorem Piece.exists_spelling_of_mem_tokens {pieces : List Piece} {rest : List Char} {n : Nat}
    {token : Token} (hcut : AllCut pieces rest) (h : token ∈ tokens n pieces) :
    ∃ before spelling after, joined pieces = before ++ (spelling ++ after) ∧
      n + Text.byteCount before = token.position ∧ token.kind.SpelledAs spelling := by
  induction pieces generalizing n with
  | nil => cases h
  | cons p pieces ih =>
    obtain rfl | h := List.mem_cons.1 h
    · exact ⟨p.gap, p.spelling, joined pieces, by simp [joined_cons, chars], rfl, hcut.1.spelled⟩
    · obtain ⟨before, spelling, after, hjoined, hposition, hspelled⟩ := ih hcut.2 h
      refine ⟨p.chars ++ before, spelling, after, ?_, ?_, hspelled⟩
      · rw [joined_cons, hjoined, List.append_assoc]
      · rw [Text.byteCount_append, ← Nat.add_assoc, hposition]

/-- What stands in the text where the error says: a token, or the character at which none starts. -/
inductive FormulaError.StartsAt (text : String) (e : FormulaError) : List Char → Prop
  | token {tokens : List Token} {token : Token} {spelling after : List Char} :
      tokenize text = .ok tokens → token ∈ tokens → e.position? = some token.position →
      token.kind.SpelledAs spelling → e.StartsAt text (spelling ++ after)
  | character {c : Char} {position : Nat} {after : List Char} :
      e = .unexpectedCharacter c position → e.StartsAt text (c :: after)

theorem position_of_parse_eq_error {text : String} {e : FormulaError} {position : Nat}
    (h : parse text = .error e) (hposition : e.position? = some position) :
    ∃ before after, text.toList = before ++ after ∧ Text.byteCount before = position ∧
      after ≠ [] ∧ e.StartsAt text after := by
  cases htokens : tokenize text with
  | error e' =>
    rw [parse_of_no_tokens htokens] at h
    cases h
    obtain ⟨pieces, gap, c, after, htext, -, -, -, -, rfl⟩ := tokenize_eq_error_iff.1 htokens
    cases hposition
    refine ⟨Piece.joined pieces ++ gap, c :: after, ?_, rfl, by simp, .character rfl⟩
    rw [htext, List.append_assoc]
  | ok tokens =>
    obtain ⟨token, htoken, rfl⟩ := exists_token_of_parse_eq_error htokens h hposition
    obtain ⟨pieces, last, htext, hcut, -, rfl⟩ := tokenize_eq_ok_iff.1 htokens
    obtain ⟨before, spelling, after, hjoined, hbefore, hspelled⟩ :=
      Piece.exists_spelling_of_mem_tokens hcut htoken
    obtain ⟨c, cs, rfl, -⟩ := hspelled.exists_cons
    refine ⟨before, (c :: cs) ++ (after ++ last), ?_, ?_, by simp,
      .token htokens htoken hposition hspelled⟩
    · simp [htext, hjoined]
    · rw [← hbefore, Nat.zero_add]

/-- **Syntax errors point at the first fault.** Let a text have tokens. If one of them is
unexpected, the error has its place and its text, and the tokens before it are the start of some
whole expression. If the end is unexpected, all of the tokens are. In any text, the place that an
error has is between two characters or at the start, and there starts a token of the text or the
character that starts none. -/
theorem syntax_errors_point_at_fault (text : String) :
    (∀ tokens, tokenize text = .ok tokens →
      (∀ found position, parse text = .error (.unexpectedToken found position) →
        ∃ (k : Nat) (token : Token), tokens[k]? = some token ∧ position = token.position ∧
          found = token.kind.text ∧ Viable ((tokens.take k).map Token.kind)) ∧
      (parse text = .error .unexpectedEnd → Viable (tokens.map Token.kind))) ∧
    ∀ e position, parse text = .error e → e.position? = some position →
      ∃ before after, text.toList = before ++ after ∧ Text.byteCount before = position ∧
        after ≠ [] ∧ e.StartsAt text after := by
  refine ⟨fun tokens htokens => ⟨fun found position h => ?_, fun h => ?_⟩,
    fun e position h hposition => position_of_parse_eq_error h hposition⟩
  · obtain ⟨v, n, token, rest, hp, hrest, hviable, hfound, hposition⟩ :=
      (fault_of_parse_eq_error htokens h).exists_token
    obtain ⟨read, hread, rfl⟩ := hp.exists_append
    rw [hrest] at hread
    obtain rfl : tokens = read ++ token :: rest := hread
    refine ⟨read.length, token, by simp, hposition, hfound, ?_⟩
    simpa using hviable
  · exact (fault_of_parse_eq_error htokens h).viable_all

/-- A sign behind a bracket, with no operand. -/
theorem expr_sign_eq_error {rest : List Token} {e : FormulaError}
    (h : Phrase.primary 3 ⟨some ⟨.minus, 1⟩, rest⟩ = .error e)
    (hnext : next? ⟨some ⟨.minus, 1⟩, rest⟩ = none ∨
      next? ⟨some ⟨.minus, 1⟩, rest⟩ = some .rightParen) :
    Phrase.expr 0 ⟨none, ⟨.leftParen, 0⟩ :: ⟨.minus, 1⟩ :: rest⟩ = .error e := by
  have hoperand : Phrase.unary 2 ⟨some ⟨.minus, 1⟩, rest⟩ = .error e := by
    rw [Phrase.unary_unsigned (by decide), Phrase.power_of_error h]
    all_goals obtain hnext | hnext := hnext <;> simp [hnext]
  have hinner : Phrase.expr 1 ⟨some ⟨.leftParen, 0⟩, ⟨.minus, 1⟩ :: rest⟩ = .error e := by
    rw [Phrase.expr_eq, Phrase.term_eq, Phrase.unary_minus (by decide) rfl, hoperand]
    rfl
  have hprimary : Phrase.primary 1 ⟨none, ⟨.leftParen, 0⟩ :: ⟨.minus, 1⟩ :: rest⟩ = .error e := by
    rw [Phrase.primary_brackets rfl, hinner]
    rfl
  rw [Phrase.expr_eq, Phrase.term_eq, Phrase.unary_unsigned (by decide) (by simp) (by simp),
    Phrase.power_of_error hprimary]
  rfl

/-- Before the fault, a bracket and a sign wait for an operand and the closing bracket. -/
theorem syntax_errors_point_at_fault_in_brackets :
    (parse "(-)" = .error (.unexpectedToken ")" 2) ∧ Viable [.leftParen, .minus] ∧
      ∃ before after, "(-)".toList = before ++ after ∧ Text.byteCount before = 2 ∧ after ≠ [] ∧
        (FormulaError.unexpectedToken ")" 2).StartsAt "(-)" after) ∧
    parse "(-" = .error .unexpectedEnd ∧ Viable [.leftParen, .minus] := by
  have hshort : tokenize "(-" = .ok [⟨.leftParen, 0⟩, ⟨.minus, 1⟩] :=
    toOption_eq_some.1 (by decide +kernel)
  have hlong : tokenize "(-)" = .ok [⟨.leftParen, 0⟩, ⟨.minus, 1⟩, ⟨.rightParen, 2⟩] :=
    toOption_eq_some.1 (by decide +kernel)
  have hend : parse "(-" = .error .unexpectedEnd := by
    rw [parse_of_tokens (by decide +kernel) hshort,
      expr_sign_eq_error (Phrase.primary_nil rfl) (.inl rfl)]
    rfl
  have htoken : parse "(-)" = .error (.unexpectedToken ")" 2) := by
    rw [parse_of_tokens (by decide +kernel) hlong,
      expr_sign_eq_error (Phrase.primary_unexpected rfl (by simp) (by simp) (by simp)) (.inr rfl)]
    rfl
  obtain ⟨hviable, hplace⟩ := syntax_errors_point_at_fault "(-)"
  obtain ⟨k, token, hk, hposition, -, hprefix⟩ := (hviable _ hlong).1 _ _ htoken
  obtain rfl : k = 2 := by
    match k, hk with
    | 0, hk => cases hk; cases hposition
    | 1, hk => cases hk; cases hposition
    | 2, _ => rfl
  exact ⟨⟨htoken, hprefix, hplace _ _ htoken rfl⟩, hend,
    ((syntax_errors_point_at_fault "(-").1 _ hshort).2 hend⟩

end RealRoots
