import RealRoots.Proofs.Grammar.Unambiguity
import RealRoots.Proofs.Parsing.Completeness

/-!
# The parser accepts exactly the grammar

**Theorem (`parse_eq_ok_iff_derives`).** A text parses to a tree exactly when its tokens have a
derivation with that tree, within the limits on nesting and depth; and no list of tokens has two
derivations.

One direction is `Phrase.sound`, the other `Phrase.arrives`; both speak of a cursor before the first
token and one after the last.
-/

namespace RealRoots

open Token Grammar Cursor

/-- The derivation derives the whole list of tokens. -/
def Grammar.Derivation.Derives (d : Derivation .sum) (tokens : List Token) : Prop :=
  d.Valid ∧ d.yield = tokens.map Token.kind

/-- A whole expression is read exactly where it is derived. -/
theorem Phrase.expr_eq_ok_iff {tokens : List Token} {t : Expr} :
    (∃ p, Phrase.expr 0 ⟨none, tokens⟩ = .ok p ∧ p.tree = t ∧ p.next.rest = []) ↔
      ∃ d : Derivation .sum, d.Derives tokens ∧ d.tree = t ∧ d.Within := by
  constructor
  · rintro ⟨p, hp, rfl, hrest⟩
    obtain ⟨d, hv, ht, hn, hd, hpass⟩ := (sound ⟨none, tokens⟩).expr hp
    have hkinds := hpass.kinds
    rw [hrest, List.map_nil, List.append_nil] at hkinds
    exact ⟨d, ⟨hv, hkinds.symm⟩, ht, ⟨by omega, ht ▸ hd⟩⟩
  · rintro ⟨d, ⟨hv, hy⟩, rfl, hn, hd⟩
    have hkinds : (⟨none, tokens⟩ : Cursor).rest.map Token.kind = d.yield := hy.symm
    obtain ⟨n, hpass, hr, hend⟩ := Passes.exists_of_all hkinds
    have harrives : Arrives .sum 0 ⟨none, tokens⟩ d.tree n :=
      arrives d hv (by omega) hd hpass hend.1
    obtain ⟨p, ht, rfl, hp⟩ := harrives.expr_eq_ok hend.2
    exact ⟨p, hp, ht, hr⟩

/-- The parser reads the tokens as a whole expression. -/
theorem parse_eq_ok_iff {text : String} {t : Expr} :
    parse text = .ok t ↔ ∃ tokens, tokenize text = .ok tokens ∧
      ∃ p, Phrase.expr 0 ⟨none, tokens⟩ = .ok p ∧ p.tree = t ∧ p.next.rest = [] := by
  unfold parse
  split
  · rename_i hblank
    rw [tokenize, tokensFrom_of_blank (List.all_eq_true.1 hblank)]
    constructor
    · rintro ⟨⟩
    · rintro ⟨_, ⟨⟩, p, hp, -⟩
      exact absurd p.shorter (Nat.not_lt_zero _)
  · simp only [bind_eq_ok]
    constructor
    · rintro ⟨tokens, htokens, p, hp, h⟩
      split at h
      · rename_i hrest
        cases h
        exact ⟨tokens, htokens, p, hp, rfl, hrest⟩
      · cases h
    · rintro ⟨tokens, htokens, p, hp, rfl, hrest⟩
      refine ⟨tokens, htokens, p, hp, ?_⟩
      rw [hrest]

/-- A derivation of one name. -/
theorem parse_x : parse "x" = .ok .x := by
  have htokens : tokenize "x" = .ok [⟨.identifier "x", 0⟩] :=
    toOption_eq_some.1 (by decide +kernel)
  have hderives : ∃ d : Derivation .sum, d.Derives [⟨.identifier "x", 0⟩] ∧ d.tree = .x ∧
      d.Within :=
    ⟨.term (.factor (.unsigned (.bare (.name "x" .x (.x rfl))))),
      ⟨by simp [Derivation.Valid], rfl⟩, rfl, by decide, by decide⟩
  exact parse_eq_ok_iff.2 ⟨_, htokens, Phrase.expr_eq_ok_iff.2 hderives⟩

/-- **The parser accepts exactly the grammar, and builds the tree that it assigns.** -/
theorem parse_eq_ok_iff_derives (text : String) :
    (∀ t, parse text = .ok t ↔ ∃ tokens, tokenize text = .ok tokens ∧
      ∃ d : Derivation .sum, d.Derives tokens ∧ d.tree = t ∧ d.Within) ∧
    ∀ tokens (d d' : Derivation .sum), d.Derives tokens → d'.Derives tokens → d = d' := by
  constructor
  · intro t
    simp only [parse_eq_ok_iff, Phrase.expr_eq_ok_iff]
  · rintro tokens d d' ⟨hv, hy⟩ ⟨hv', hy'⟩
    exact eq_of_yield_eq hv hv' (hy.trans hy'.symm)

end RealRoots
