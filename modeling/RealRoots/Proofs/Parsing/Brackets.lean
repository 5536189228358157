import Mathlib.Data.List.Induction
import RealRoots.Proofs.Parsing.CallStack
import RealRoots.Proofs.Parsing.Exactness

/-!
# Brackets and calls

**Theorem (`covered`).** While a phrase is read, each bracket in it is opened by a call for a whole
expression, which starts behind the bracket.

So where a text parses, the calls that are active at its deepest bracket can be counted in the text
(`opened_read_le_iff`).

As with `arrives`, the induction is on the derivation, and for sums and products it also says that
the loop comes by with what has been read.
-/

namespace RealRoots.Phrase

open Token Grammar Cursor

/-- The call that reads a phrase. -/
def reader : Symbol → Nat → Cursor → Activation
  | .sum => .expr
  | .product => .term
  | .unary => .unary
  | .power => .power
  | .primary => .primary

/-- Behind each opening bracket among the tokens an expression is read. -/
def Covered (text : String) (c : Cursor) (u : List Kind) : Prop :=
  ∀ v w, u = v ++ .leftParen :: w →
    ∃ level n path, Stack text (.expr level n) path ∧ Passes c (v ++ [.leftParen]) n

/-- The loop of a sum or product comes by the cursor `n`, with the tree. -/
def Loops (text : String) : Symbol → Nat → Cursor → Expr → Cursor → Prop
  | .sum, level, c, t, n =>
    ∃ p : Parsed c, p.tree = t ∧ p.next = n ∧ ∃ path, Stack text (.sums level p) path
  | .product, level, c, t, n =>
    ∃ p : Parsed c, p.tree = t ∧ p.next = n ∧ ∃ path, Stack text (.products level p) path
  | _, _, _, _, _ => True

namespace Covered

variable {text : String} {c m : Cursor} {u w : List Kind} {k : Kind} {position : Nat}
  {rest : List Token}

theorem nil (text : String) (c : Cursor) : Covered text c [] := by
  intro v w h
  simp at h

theorem cons (hc : c.rest = ⟨k, position⟩ :: rest)
    (hk : k = .leftParen → ∃ level path, Stack text (.expr level ⟨some ⟨k, position⟩, rest⟩) path)
    (h : Covered text ⟨some ⟨k, position⟩, rest⟩ u) : Covered text c (k :: u) := by
  intro v w huv
  cases v with
  | nil =>
    obtain ⟨rfl, rfl⟩ := List.cons.inj huv
    obtain ⟨level, path, hstack⟩ := hk rfl
    exact ⟨level, _, path, hstack, .token hc⟩
  | cons l v =>
    obtain ⟨rfl, hu⟩ := List.cons.inj huv
    obtain ⟨level, n, path, hstack, hpass⟩ := h v w hu
    exact ⟨level, n, path, hstack, Passes.cons_iff.2 ⟨position, rest, hc, hpass⟩⟩

/-- A token that opens nothing. -/
theorem skip (hc : c.rest = ⟨k, position⟩ :: rest) (hk : k ≠ .leftParen)
    (h : Covered text ⟨some ⟨k, position⟩, rest⟩ u) : Covered text c (k :: u) :=
  cons hc (fun h => absurd h hk) h

theorem append (hu : Covered text c u) (hp : Passes c u m) (hw : Covered text m w) :
    Covered text c (u ++ w) := by
  intro v v' h
  have behind {x : List Kind} (hx : w = x ++ .leftParen :: v') :
      ∃ level n path, Stack text (.expr level n) path ∧ Passes c (u ++ x ++ [.leftParen]) n := by
    obtain ⟨level, n, path, hstack, hpass⟩ := hw x v' hx
    exact ⟨level, n, path, hstack, by rw [List.append_assoc]; exact hp.append hpass⟩
  obtain ⟨x, rfl, hx⟩ | ⟨x, rfl, hx⟩ := List.append_eq_append_iff.1 h
  · exact behind hx
  · cases x with
    | nil =>
      have hx : w = [] ++ .leftParen :: v' := hx.symm
      simpa using behind hx
    | cons k x =>
      obtain ⟨rfl, hx⟩ := List.cons.inj hx
      exact hu v x rfl

end Covered

namespace Loops

variable {text : String} {level position : Nat} {c m n : Cursor} {rest : List Token} {a b t : Expr}
  {op : Operator} {path : List Activation}

theorem term (hstack : Stack text (.expr level c) path) (h : Arrives .product level c t n)
    (hn : ¬ n.Multiplies) : Loops text .sum level c t n := by
  obtain ⟨first, ht, hnext, hfirst⟩ := h.term_eq_ok hn
  exact ⟨first, ht, hnext, _, hstack.call (.sums hfirst)⟩

theorem sum (hop : op = .add ∨ op = .sub) (hl : Loops text .sum level c a m)
    (hm : m.rest = ⟨sign op, position⟩ :: rest)
    (hr : Arrives .product level ⟨some ⟨sign op, position⟩, rest⟩ b n) (hn : ¬ n.Multiplies)
    (hd : (Expr.binary op a b).depth ≤ maxDepth) :
    (∃ path, Stack text (.term level ⟨some ⟨sign op, position⟩, rest⟩) path) ∧
      Loops text .sum level c (.binary op a b) n := by
  obtain ⟨p, rfl, rfl, _, hloop⟩ := hl
  obtain ⟨q, rfl, rfl, hq⟩ := hr.term_eq_ok hn
  have htree : bounded (.binary op p.tree q.tree) position = .ok _ := bounded_eq_ok.2 ⟨rfl, hd⟩
  exact ⟨⟨_, hloop.call (.nextTerm hop hm)⟩, _, rfl, rfl, _,
    hloop.call (.nextSums hop hm hq htree)⟩

theorem factor (hstack : Stack text (.term level c) path) (h : Arrives .unary level c t n) :
    Loops text .product level c t n := by
  obtain ⟨first, ht, hnext, hfirst⟩ := h
  exact ⟨first, ht, hnext, _, hstack.call (.products hfirst)⟩

theorem product (hop : op = .mul ∨ op = .div) (hl : Loops text .product level c a m)
    (hm : m.rest = ⟨sign op, position⟩ :: rest)
    (hr : Arrives .unary level ⟨some ⟨sign op, position⟩, rest⟩ b n)
    (hd : (Expr.binary op a b).depth ≤ maxDepth) :
    (∃ path, Stack text (.unary level ⟨some ⟨sign op, position⟩, rest⟩) path) ∧
      Loops text .product level c (.binary op a b) n := by
  obtain ⟨p, rfl, rfl, _, hloop⟩ := hl
  obtain ⟨q, rfl, rfl, hq⟩ := hr
  have htree : bounded (.binary op p.tree q.tree) position = .ok _ := bounded_eq_ok.2 ⟨rfl, hd⟩
  exact ⟨⟨_, hloop.call (.nextUnary hop hm)⟩, _, rfl, rfl, _,
    hloop.call (.nextProducts hop hm hq htree)⟩

theorem implicit (hl : Loops text .product level c a m)
    (hlast : ∃ value, m.last? = some (.number value)) (hnext : ∃ k ∈ m.next?, k.startsFactor)
    (hr : Arrives .power level m b n) (hd : (Expr.binary .mul a b).depth ≤ maxDepth) :
    (∃ path, Stack text (.power level m) path) ∧
      Loops text .product level c (.binary .mul a b) n := by
  obtain ⟨p, rfl, rfl, _, hloop⟩ := hl
  obtain ⟨q, rfl, rfl, hq⟩ := hr
  obtain ⟨k, hk, hk'⟩ := hnext
  obtain ⟨position, rest, hm⟩ := next?_eq_some hk
  have htree : bounded (.binary .mul p.tree q.tree) position = .ok _ := bounded_eq_ok.2 ⟨rfl, hd⟩
  exact ⟨⟨_, hloop.call (.joined hlast hm hk')⟩, _, rfl, rfl, _,
    hloop.call (.joinedProducts hlast hm hk' hq htree)⟩

end Loops

variable {text : String}

/-- **Each bracket of a phrase is opened by a call.** -/
theorem covered {s : Symbol} (d : Derivation s) {level : Nat} {c n : Cursor}
    {path : List Activation} (hv : d.Valid) (hlevel : level + d.nesting ≤ maxDepth)
    (hdepth : d.tree.depth ≤ maxDepth) (hp : Passes c d.yield n) (hn : n.Ends s)
    (hstack : Stack text (reader s level c) path) :
    Covered text c d.yield ∧ Loops text s level c d.tree n := by
  induction d generalizing level c n path with
  | term only ih =>
    have hend : Ends .product n := ⟨hn.1, hn.2.1⟩
    obtain ⟨hcovered, -⟩ := ih hv hlevel hdepth hp hend (hstack.call (.term level c))
    exact ⟨hcovered, .term hstack (arrives only hv hlevel hdepth hp hend) hn.2.2⟩
  | sum left op right hop ihl ihr =>
    obtain ⟨hvl, hvr⟩ := hv
    obtain ⟨m, hpl, hp⟩ := Passes.append_iff.1 hp
    obtain ⟨position, rest, hm, hpr⟩ := Passes.cons_iff.1 hp
    have hadds : m.Adds := ⟨op, hop, next?_of_rest hm⟩
    have hend : Ends .product n := ⟨hn.1, hn.2.1⟩
    simp only [Derivation.nesting, Derivation.tree, Expr.depth] at hlevel hdepth
    have hlevelr : level + right.nesting ≤ maxDepth := by omega
    have hdepthr : right.tree.depth ≤ maxDepth := by omega
    obtain ⟨hleft, hloop⟩ := ihl hvl (by omega) (by omega) hpl hadds.ends hstack
    obtain ⟨⟨_, hterm⟩, hloops⟩ :=
      hloop.sum hop hm (arrives right hvr hlevelr hdepthr hpr hend) hn.2.2 hdepth
    obtain ⟨hright, -⟩ := ihr hvr hlevelr hdepthr hpr hend hterm
    have hsign : sign op ≠ .leftParen := by cases op <;> simp [sign]
    exact ⟨hleft.append hpl (.skip hm hsign hright), hloops⟩
  | factor only ih =>
    obtain ⟨hcovered, -⟩ := ih hv hlevel hdepth hp hn (hstack.call (.unary level c))
    exact ⟨hcovered, .factor hstack (arrives only hv hlevel hdepth hp hn)⟩
  | product left op right hop ihl ihr =>
    obtain ⟨hvl, hvr⟩ := hv
    obtain ⟨m, hpl, hp⟩ := Passes.append_iff.1 hp
    obtain ⟨position, rest, hm, hpr⟩ := Passes.cons_iff.1 hp
    have hmul : m.Multiplies := .inl ⟨op, hop, next?_of_rest hm⟩
    simp only [Derivation.nesting, Derivation.tree, Expr.depth] at hlevel hdepth
    have hlevelr : level + right.nesting ≤ maxDepth := by omega
    have hdepthr : right.tree.depth ≤ maxDepth := by omega
    obtain ⟨hleft, hloop⟩ := ihl hvl (by omega) (by omega) hpl hmul.ends hstack
    obtain ⟨⟨_, hunary⟩, hloops⟩ :=
      hloop.product hop hm (arrives right hvr hlevelr hdepthr hpr hn) hdepth
    obtain ⟨hright, -⟩ := ihr hvr hlevelr hdepthr hpr hn hunary
    have hsign : sign op ≠ .leftParen := by cases op <;> simp [sign]
    exact ⟨hleft.append hpl (.skip hm hsign hright), hloops⟩
  | implicit left right ihl ihr =>
    obtain ⟨hvl, hvr, hlast, hnext⟩ := hv
    obtain ⟨m, hpl, hpr⟩ := Passes.append_iff.1 hp
    rw [EndsInNumber, ← hpl.last?_eq left.yield_ne_nil] at hlast
    rw [StartsFactor, ← hpr.next?_eq right.yield_ne_nil] at hnext
    have hmul : m.Multiplies := .inr ⟨hlast, hnext⟩
    simp only [Derivation.nesting, Derivation.tree, Expr.depth] at hlevel hdepth
    have hlevelr : level + right.nesting ≤ maxDepth := by omega
    have hdepthr : right.tree.depth ≤ maxDepth := by omega
    obtain ⟨hleft, hloop⟩ := ihl hvl (by omega) (by omega) hpl hmul.ends hstack
    obtain ⟨⟨_, hpower⟩, hloops⟩ := hloop.implicit hlast (exists_startsFactor hnext)
      (arrives right hvr hlevelr hdepthr hpr hn) hdepth
    obtain ⟨hright, -⟩ := ihr hvr hlevelr hdepthr hpr hn hpower
    exact ⟨hleft.append hpl hright, hloops⟩
  | minus operand ih =>
    obtain ⟨position, rest, hc, hp⟩ := Passes.cons_iff.1 hp
    simp only [Derivation.nesting, Derivation.tree, Expr.depth] at hlevel hdepth
    have hcall := hstack.call (.minus (by omega) hc)
    obtain ⟨hcovered, -⟩ := ih hv (by omega) (by omega) hp hn hcall
    exact ⟨.skip hc (by simp) hcovered, trivial⟩
  | plus operand ih =>
    obtain ⟨position, rest, hc, hp⟩ := Passes.cons_iff.1 hp
    simp only [Derivation.nesting] at hlevel
    have hcall := hstack.call (.plus (by omega) hc)
    obtain ⟨hcovered, -⟩ := ih hv (by omega) hdepth hp hn hcall
    exact ⟨.skip hc (by simp) hcovered, trivial⟩
  | unsigned only ih =>
    simp only [Derivation.nesting] at hlevel
    have hp : Passes c only.yield n := hp
    obtain ⟨hminus, hplus⟩ := only.next?_ne_sign hp
    have hcall := hstack.call (.unsigned (by omega) hminus hplus)
    obtain ⟨hcovered, -⟩ := ih hv (by omega) hdepth hp hn hcall
    exact ⟨hcovered, trivial⟩
  | bare only ih =>
    obtain ⟨hcovered, -⟩ := ih hv hlevel hdepth hp hn.1 (hstack.call (.primary level c))
    exact ⟨hcovered, trivial⟩
  | raised base exponent ihb ihe =>
    obtain ⟨hvb, hve⟩ := hv
    obtain ⟨m, hpb, hp⟩ := Passes.append_iff.1 hp
    obtain ⟨position, rest, hm, hpe⟩ := Passes.cons_iff.1 hp
    have hraises : m.Raises := next?_of_rest hm
    simp only [Derivation.nesting, Derivation.tree, Expr.depth] at hlevel hdepth
    have hlevelb : level + base.nesting ≤ maxDepth := by omega
    have hdepthb : base.tree.depth ≤ maxDepth := by omega
    obtain ⟨hbase, -⟩ :=
      ihb hvb hlevelb hdepthb hpb hraises.ends (hstack.call (.primary level c))
    obtain ⟨p, -, rfl, hprimary⟩ := arrives base hvb hlevelb hdepthb hpb hraises.ends
    have hcall := hstack.call (.exponent hprimary hm)
    obtain ⟨hexponent, -⟩ := ihe hve (by omega) (by omega) hpe hn hcall
    exact ⟨hbase.append hpb (.skip hm (by simp) hexponent), trivial⟩
  | number value =>
    obtain ⟨position, rest, hc, hp⟩ := Passes.cons_iff.1 hp
    exact ⟨.skip hc (by simp) (.nil _ _), trivial⟩
  | name spelling meaning h =>
    obtain ⟨position, rest, hc, hp⟩ := Passes.cons_iff.1 hp
    exact ⟨.skip hc (by simp) (.nil _ _), trivial⟩
  | brackets inner ih =>
    obtain ⟨position, rest, hc, hp⟩ := Passes.cons_iff.1 hp
    obtain ⟨m, hpi, hp⟩ := Passes.append_iff.1 hp
    obtain ⟨close, tail, hm, hp⟩ := Passes.cons_iff.1 hp
    have hcall := hstack.call (.brackets hc)
    obtain ⟨hcovered, -⟩ :=
      ih hv hlevel hdepth hpi (ends_of_next (.inr (next?_of_rest hm))).1 hcall
    have hclose : Covered text m [.rightParen] := .skip hm (by simp) (.nil _ _)
    exact ⟨.cons hc (fun _ => ⟨_, _, hcall⟩) (hcovered.append hpi hclose), trivial⟩
  | call spelling function h argument ih =>
    obtain ⟨position, _, hc, hp⟩ := Passes.cons_iff.1 hp
    obtain ⟨bracket, rest, rfl, hp'⟩ := Passes.cons_iff.1 hp
    obtain ⟨m, hpa, hp'⟩ := Passes.append_iff.1 hp'
    obtain ⟨close, tail, hm, hp'⟩ := Passes.cons_iff.1 hp'
    simp only [Derivation.tree, Expr.depth] at hdepth
    have hcall := hstack.call (.argument (Named.iff_ofName?.1 h) hc)
    obtain ⟨hcovered, -⟩ :=
      ih hv hlevel (by omega) hpa (ends_of_next (.inr (next?_of_rest hm))).1 hcall
    have hclose : Covered text m [.rightParen] := .skip hm (by simp) (.nil _ _)
    have hargument := hcovered.append hpa hclose
    exact ⟨.skip hc (by simp) (.cons rfl (fun _ => ⟨_, _, hcall⟩) hargument), trivial⟩

/-! ## Texts that parse -/

theorem not_allBlank_of_parse {t : Expr} (h : parse text = .ok t) : ¬ Text.allBlank text := by
  intro hblank
  rw [parse, if_pos hblank] at h
  cases h

/-- The whole text is a sum, and its first call is on the stack. -/
theorem covered_of_parse {t : Expr} (h : parse text = .ok t) :
    ∃ tokens, tokenize text = .ok tokens ∧ Covered text ⟨none, tokens⟩ (kinds text) := by
  obtain ⟨tokens, htokens, hexpr⟩ := parse_eq_ok_iff.1 h
  obtain ⟨d, ⟨hv, hy⟩, -, hnesting, hdepth⟩ := expr_eq_ok_iff.1 hexpr
  have hkinds : (⟨none, tokens⟩ : Cursor).rest.map Token.kind = d.yield := hy.symm
  obtain ⟨n, hpass, -, hend⟩ := Passes.exists_of_all hkinds
  obtain ⟨hcovered, -⟩ := covered d hv (by omega) hdepth hpass hend.1
    (.start (not_allBlank_of_parse h) htokens)
  have htext : kinds text = d.yield := by
    rw [hy]
    simp only [kinds, htokens]
  exact ⟨tokens, htokens, htext ▸ hcovered⟩

/-- **The brackets that are open while a text is read can be counted in the text**, if it parses. -/
theorem opened_read_le_iff {t : Expr} (h : parse text = .ok t) (bound : Int) :
    (∀ a path, Stack text a path → opened (a.read text) ≤ bound) ↔
      ∀ u, u <+: kinds text → opened u ≤ bound := by
  constructor
  · obtain ⟨tokens, htokens, hcovered⟩ := covered_of_parse h
    intro hstack u hu
    induction u using List.reverseRecOn with
    | nil =>
      have hread := read_eq (a := .expr 0 ⟨none, tokens⟩) htokens (.nil _)
      exact hread ▸ hstack _ _ (.start (not_allBlank_of_parse h) htokens)
    | append_singleton u k ih =>
      obtain ⟨w, hw⟩ := hu
      by_cases hk : k = .leftParen
      · subst hk
        rw [List.append_assoc] at hw
        obtain ⟨level, n, path, hexpr, hpass⟩ := hcovered u w hw.symm
        have hread := read_eq (a := .expr level n) htokens hpass
        exact hread ▸ hstack _ _ hexpr
      · have hu : opened u ≤ bound := ih ⟨[k] ++ w, by rw [← List.append_assoc, hw]⟩
        have hcount : [k].count .leftParen = 0 := by simp [hk]
        simp only [opened, List.count_append] at hu ⊢
        omega
  · intro hprefix a path _
    exact hprefix _ (List.take_prefix _ _)

end RealRoots.Phrase
