import RealRoots.Proofs.Grammar.Cursor

/-!
# The grammar is unambiguous

**Theorem (`eq_of_yield_eq`).** Two valid derivations of a sum with the same tokens are equal.

Two derivations of a phrase that start at one cursor and end where nothing goes on with the phrase
need not end at the same place: a sum may stop before a term that another one takes in. What holds
is that one of them grows into the other (`Determined`). Where neither end is followed by a further
term or factor the two are equal (`Determined.eq`), which settles every inner phrase. The induction
is on the first derivation, and each rule of the grammar keeps `Determined`.
-/

namespace RealRoots.Grammar

open Token Cursor

/-- The second derivation is the first, or goes on from it to the right. -/
inductive Grows : {s : Symbol} → Derivation s → Derivation s → Prop
  | refl {s : Symbol} (d : Derivation s) : Grows d d
  | sum {d left : Derivation .sum} {op : Operator} {right : Derivation .product}
      {hop : op = .add ∨ op = .sub} : Grows d left → Grows d (.sum left op right hop)
  | product {d left : Derivation .product} {op : Operator} {right : Derivation .unary}
      {hop : op = .mul ∨ op = .div} : Grows d left → Grows d (.product left op right hop)
  | implicit {d left : Derivation .product} {right : Derivation .power} :
      Grows d left → Grows d (.implicit left right)

/-- The phrase that ends at the cursor goes on with a further term or factor. -/
def GoesOn : Symbol → Cursor → Prop
  | .sum, c => c.Adds
  | .product, c => c.Multiplies
  | _, _ => False

theorem GoesOn.ends {s : Symbol} {c : Cursor} (h : GoesOn s c) : Ends s c := by
  cases s with
  | sum => exact Adds.ends h
  | product => exact Multiplies.ends h
  | _ => exact h.elim

theorem sign_injective {op op' : Operator} (h : sign op = sign op') : op = op' := by
  cases op <;> cases op' <;> simp_all [sign]

section Split

variable {c n : Cursor}

/-- Where the last term of a sum starts. -/
theorem adds_of_passes {left : Derivation .sum} {op : Operator} {right : Derivation .product}
    {hop : op = .add ∨ op = .sub} (hp : Passes c (Derivation.sum left op right hop).yield n) :
    ∃ m position rest, Passes c left.yield m ∧ m.Adds ∧ m.rest = ⟨sign op, position⟩ :: rest ∧
      Passes ⟨some ⟨sign op, position⟩, rest⟩ right.yield n := by
  obtain ⟨m, hl, hp⟩ := Passes.append_iff.1 hp
  obtain ⟨position, rest, hm, hr⟩ := Passes.cons_iff.1 hp
  exact ⟨m, position, rest, hl, ⟨op, hop, next?_of_rest hm⟩, hm, hr⟩

/-- Where the last factor of a product starts. -/
theorem multiplies_of_passes {left : Derivation .product} {op : Operator}
    {right : Derivation .unary} {hop : op = .mul ∨ op = .div}
    (hp : Passes c (Derivation.product left op right hop).yield n) :
    ∃ m position rest, Passes c left.yield m ∧ m.Multiplies ∧
      m.rest = ⟨sign op, position⟩ :: rest ∧
      Passes ⟨some ⟨sign op, position⟩, rest⟩ right.yield n := by
  obtain ⟨m, hl, hp⟩ := Passes.append_iff.1 hp
  obtain ⟨position, rest, hm, hr⟩ := Passes.cons_iff.1 hp
  exact ⟨m, position, rest, hl, .inl ⟨op, hop, next?_of_rest hm⟩, hm, hr⟩

/-- Where the last factor of an implicit product starts. -/
theorem implicit_of_passes {left : Derivation .product} {right : Derivation .power}
    (hv : (Derivation.implicit left right).Valid)
    (hp : Passes c (Derivation.implicit left right).yield n) :
    ∃ m, Passes c left.yield m ∧ m.Multiplies ∧ (∀ op, m.next? ≠ some (sign op)) ∧
      Passes m right.yield n := by
  obtain ⟨-, -, hlast, hnext⟩ := hv
  obtain ⟨m, hl, hr⟩ := Passes.append_iff.1 hp
  rw [EndsInNumber, ← hl.last?_eq left.yield_ne_nil] at hlast
  rw [StartsFactor, ← hr.next?_eq right.yield_ne_nil] at hnext
  refine ⟨m, hl, .inr ⟨hlast, hnext⟩, ?_, hr⟩
  obtain h | ⟨_, h⟩ := hnext <;> intro op <;> cases op <;> simp [h, sign]

end Split

namespace Grows

variable {s : Symbol} {d e : Derivation s} {c n n' : Cursor}

/-- A derivation that grew into another stops within it, at a place where the phrase goes on. -/
theorem stops (h : Grows d e) (hv : e.Valid) (hp : Passes c e.yield n) :
    d.Valid ∧ (d = e ∨ ∃ m, Passes c d.yield m ∧ GoesOn s m) := by
  induction h generalizing n with
  | refl => exact ⟨hv, .inl rfl⟩
  | sum _ ih =>
    obtain ⟨m, position, rest, hl, hm, -, -⟩ := adds_of_passes hp
    obtain ⟨hd, rfl | h⟩ := ih hv.1 hl
    · exact ⟨hd, .inr ⟨m, hl, hm⟩⟩
    · exact ⟨hd, .inr h⟩
  | product _ ih =>
    obtain ⟨m, position, rest, hl, hm, -, -⟩ := multiplies_of_passes hp
    obtain ⟨hd, rfl | h⟩ := ih hv.1 hl
    · exact ⟨hd, .inr ⟨m, hl, hm⟩⟩
    · exact ⟨hd, .inr h⟩
  | implicit _ ih =>
    obtain ⟨m, hl, hm, -, -⟩ := implicit_of_passes hv hp
    obtain ⟨hd, rfl | h⟩ := ih hv.1 hl
    · exact ⟨hd, .inr ⟨m, hl, hm⟩⟩
    · exact ⟨hd, .inr h⟩

/-- So it ends where its phrase may end. -/
theorem ends (h : Grows d e) (hv : e.Valid) (hp : Passes c e.yield n) (hn : Ends s n) :
    d.Valid ∧ ∃ m, Passes c d.yield m ∧ Ends s m := by
  obtain ⟨hd, rfl | ⟨m, hm, hgoes⟩⟩ := h.stops hv hp
  · exact ⟨hd, n, hp, hn⟩
  · exact ⟨hd, m, hm, hgoes.ends⟩

theorem eq_of_not_goesOn (h : Grows d e) (hv : e.Valid) (hd : Passes c d.yield n)
    (he : Passes c e.yield n') (hn : ¬ GoesOn s n) : d = e := by
  obtain ⟨-, h | ⟨m, hm, hgoes⟩⟩ := h.stops hv he
  · exact h
  · exact absurd (hd.unique hm ▸ hgoes) hn

/-- A sum that grew took a term first. -/
theorem sum_cases {d e : Derivation .sum} (h : Grows d e) :
    d = e ∨ ∃ op right hop, Grows (.sum d op right hop) e := by
  cases h with
  | refl => exact .inl rfl
  | sum h =>
    obtain rfl | ⟨op, right, hop, h⟩ := h.sum_cases
    · exact .inr ⟨_, _, _, .refl _⟩
    · exact .inr ⟨op, right, hop, .sum h⟩

/-- A product that grew took a factor first. -/
theorem product_cases {d e : Derivation .product} (h : Grows d e) :
    d = e ∨ (∃ op right hop, Grows (.product d op right hop) e) ∨
      ∃ right, Grows (.implicit d right) e := by
  cases h with
  | refl => exact .inl rfl
  | product h =>
    obtain rfl | ⟨op, right, hop, h⟩ | ⟨right, h⟩ := h.product_cases
    · exact .inr (.inl ⟨_, _, _, .refl _⟩)
    · exact .inr (.inl ⟨op, right, hop, .product h⟩)
    · exact .inr (.inr ⟨right, .product h⟩)
  | implicit h =>
    obtain rfl | ⟨op, right, hop, h⟩ | ⟨right, h⟩ := h.product_cases
    · exact .inr (.inr ⟨_, .refl _⟩)
    · exact .inr (.inl ⟨op, right, hop, .implicit h⟩)
    · exact .inr (.inr ⟨right, .implicit h⟩)

theorem exists_term : (e : Derivation .sum) → ∃ only, Grows (.term only) e
  | .term only => ⟨only, .refl _⟩
  | .sum left _ _ _ =>
    have ⟨only, h⟩ := exists_term left
    ⟨only, .sum h⟩

theorem exists_factor : (e : Derivation .product) → ∃ only, Grows (.factor only) e
  | .factor only => ⟨only, .refl _⟩
  | .product left _ _ _ =>
    have ⟨only, h⟩ := exists_factor left
    ⟨only, .product h⟩
  | .implicit left _ =>
    have ⟨only, h⟩ := exists_factor left
    ⟨only, .implicit h⟩

end Grows

/-- Of two derivations that start at one cursor and end where their phrase may end, one grows into
the other. -/
def Determined {s : Symbol} (d : Derivation s) : Prop :=
  ∀ {d' : Derivation s} {c n n' : Cursor}, d.Valid → d'.Valid → Passes c d.yield n →
    Passes c d'.yield n' → Ends s n → Ends s n' → Grows d d' ∨ Grows d' d

/-- Two derivations from one cursor start with the same token. -/
theorem head_yield_eq {s : Symbol} {d d' : Derivation s} {c n n' : Cursor}
    (hp : Passes c d.yield n) (hp' : Passes c d'.yield n') : d.yield.head? = d'.yield.head? := by
  rw [← hp.next?_eq d.yield_ne_nil, ← hp'.next?_eq d'.yield_ne_nil]

namespace Determined

theorem eq {s : Symbol} {d d' : Derivation s} {c n n' : Cursor} (h : Determined d)
    (hv : d.Valid) (hv' : d'.Valid) (hp : Passes c d.yield n) (hp' : Passes c d'.yield n')
    (hn : Ends s n) (hn' : Ends s n') (hg : ¬ GoesOn s n) (hg' : ¬ GoesOn s n') : d = d' := by
  obtain h | h := h hv hv' hp hp' hn hn'
  · exact h.eq_of_not_goesOn hv' hp hp' hg
  · exact (h.eq_of_not_goesOn hv hp' hp hg').symm

/-- Sums that a closing bracket follows are equal. -/
theorem eq_of_close {d d' : Derivation .sum} {c n n' : Cursor} (h : Determined d) (hv : d.Valid)
    (hv' : d'.Valid) (hp : Passes c (d.yield ++ [.rightParen]) n)
    (hp' : Passes c (d'.yield ++ [.rightParen]) n') : d = d' := by
  obtain ⟨m, hp, hclose⟩ := Passes.append_iff.1 hp
  obtain ⟨m', hp', hclose'⟩ := Passes.append_iff.1 hp'
  have hm := ends_of_next (.inr (hclose.next?_eq (by simp)))
  have hm' := ends_of_next (.inr (hclose'.next?_eq (by simp)))
  exact h.eq hv hv' hp hp' hm.1 hm'.1 hm.2 hm'.2

theorem term {only : Derivation .product} (h : Determined only) : Determined (.term only) := by
  intro d' c n n' hv hv' hp hp' hn hn'
  obtain ⟨only', hgrows⟩ := Grows.exists_term d'
  obtain ⟨hvo, m, hm, hend⟩ := hgrows.ends hv' hp' hn'
  obtain rfl := h.eq hv hvo hp hm ⟨hn.1, hn.2.1⟩ ⟨hend.1, hend.2.1⟩ hn.2.2 hend.2.2
  exact .inl hgrows

theorem factor {only : Derivation .unary} (h : Determined only) : Determined (.factor only) := by
  intro d' c n n' hv hv' hp hp' hn hn'
  obtain ⟨only', hgrows⟩ := Grows.exists_factor d'
  obtain ⟨hvo, m, hm, hend⟩ := hgrows.ends hv' hp' hn'
  obtain rfl := h.eq hv hvo hp hm hn hend id id
  exact .inl hgrows

theorem sum {left : Derivation .sum} {op : Operator} {right : Derivation .product}
    {hop : op = .add ∨ op = .sub} (hl : Determined left) (hr : Determined right) :
    Determined (.sum left op right hop) := by
  intro d' c n n' hv hv' hp hp' hn hn'
  obtain ⟨m, position, rest, hpl, hm, hrest, hpr⟩ := adds_of_passes hp
  obtain h | h := hl hv.1 hv' hpl hp' hm.ends hn'
  · obtain rfl | ⟨op', right', hop', h⟩ := h.sum_cases
    · exact .inr (.sum (.refl _))
    · obtain ⟨hvs, k, hk, hend⟩ := h.ends hv' hp' hn'
      obtain ⟨m', position', rest', hpl', -, hrest', hpr'⟩ := adds_of_passes hk
      obtain rfl := hpl.unique hpl'
      obtain ⟨⟨hsign, rfl⟩, rfl⟩ := by simpa using hrest.symm.trans hrest'
      obtain rfl := sign_injective hsign
      obtain rfl := hr.eq hv.2 hvs.2 hpr hpr' ⟨hn.1, hn.2.1⟩ ⟨hend.1, hend.2.1⟩ hn.2.2 hend.2.2
      exact .inl h
  · exact .inr (.sum h)

theorem product {left : Derivation .product} {op : Operator} {right : Derivation .unary}
    {hop : op = .mul ∨ op = .div} (hl : Determined left) (hr : Determined right) :
    Determined (.product left op right hop) := by
  intro d' c n n' hv hv' hp hp' hn hn'
  obtain ⟨m, position, rest, hpl, hm, hrest, hpr⟩ := multiplies_of_passes hp
  obtain h | h := hl hv.1 hv' hpl hp' hm.ends hn'
  · obtain rfl | ⟨op', right', hop', h⟩ | ⟨right', h⟩ := h.product_cases
    · exact .inr (.product (.refl _))
    · obtain ⟨hvs, k, hk, hend⟩ := h.ends hv' hp' hn'
      obtain ⟨m', position', rest', hpl', -, hrest', hpr'⟩ := multiplies_of_passes hk
      obtain rfl := hpl.unique hpl'
      obtain ⟨⟨hsign, rfl⟩, rfl⟩ := by simpa using hrest.symm.trans hrest'
      obtain rfl := sign_injective hsign
      obtain rfl := hr.eq hv.2 hvs.2 hpr hpr' hn hend id id
      exact .inl h
    · obtain ⟨hvs, k, hk, -⟩ := h.ends hv' hp' hn'
      obtain ⟨m', hpl', -, hsign, -⟩ := implicit_of_passes hvs hk
      obtain rfl := hpl.unique hpl'
      exact absurd (next?_of_rest hrest) (hsign op)
  · exact .inr (.product h)

theorem implicit {left : Derivation .product} {right : Derivation .power}
    (hl : Determined left) (hr : Determined right) : Determined (.implicit left right) := by
  intro d' c n n' hv hv' hp hp' hn hn'
  obtain ⟨m, hpl, hm, hsign, hpr⟩ := implicit_of_passes hv hp
  obtain h | h := hl hv.1 hv' hpl hp' hm.ends hn'
  · obtain rfl | ⟨op', right', hop', h⟩ | ⟨right', h⟩ := h.product_cases
    · exact .inr (.implicit (.refl _))
    · obtain ⟨hvs, k, hk, -⟩ := h.ends hv' hp' hn'
      obtain ⟨m', position', rest', hpl', -, hrest', -⟩ := multiplies_of_passes hk
      obtain rfl := hpl.unique hpl'
      exact absurd (next?_of_rest hrest') (hsign op')
    · obtain ⟨hvs, k, hk, hend⟩ := h.ends hv' hp' hn'
      obtain ⟨m', hpl', -, -, hpr'⟩ := implicit_of_passes hvs hk
      obtain rfl := hpl.unique hpl'
      obtain rfl := hr.eq hv.2.1 hvs.2.1 hpr hpr' hn hend id id
      exact .inl h
  · exact .inr (.implicit h)

theorem minus {operand : Derivation .unary} (h : Determined operand) :
    Determined (.minus operand) := by
  intro d' c n n' hv hv' hp hp' hn hn'
  have hhead := head_yield_eq hp hp'
  cases d' with
  | minus operand' =>
    obtain ⟨position, rest, hc, hp⟩ := Passes.cons_iff.1 hp
    obtain ⟨position', rest', hc', hp'⟩ := Passes.cons_iff.1 hp'
    obtain ⟨rfl, rfl⟩ := by simpa using hc.symm.trans hc'
    obtain rfl : operand = operand' := h.eq hv hv' hp hp' hn hn' id id
    exact .inl (.refl _)
  | plus operand' => simp [Derivation.yield] at hhead
  | unsigned only' =>
    have hhead : some .minus = only'.yield.head? := hhead
    have hoperand := only'.head_yield_of_power
    simp [StartsFactor, ← hhead] at hoperand

theorem plus {operand : Derivation .unary} (h : Determined operand) :
    Determined (.plus operand) := by
  intro d' c n n' hv hv' hp hp' hn hn'
  have hhead := head_yield_eq hp hp'
  cases d' with
  | plus operand' =>
    obtain ⟨position, rest, hc, hp⟩ := Passes.cons_iff.1 hp
    obtain ⟨position', rest', hc', hp'⟩ := Passes.cons_iff.1 hp'
    obtain ⟨rfl, rfl⟩ := by simpa using hc.symm.trans hc'
    obtain rfl : operand = operand' := h.eq hv hv' hp hp' hn hn' id id
    exact .inl (.refl _)
  | minus operand' => simp [Derivation.yield] at hhead
  | unsigned only' =>
    have hhead : some .plus = only'.yield.head? := hhead
    have hoperand := only'.head_yield_of_power
    simp [StartsFactor, ← hhead] at hoperand

theorem unsigned {only : Derivation .power} (h : Determined only) :
    Determined (.unsigned only) := by
  intro d' c n n' hv hv' hp hp' hn hn'
  have hhead := head_yield_eq hp hp'
  cases d' with
  | unsigned only' =>
    obtain rfl : only = only' := h.eq hv hv' hp hp' hn hn' id id
    exact .inl (.refl _)
  | minus operand' | plus operand' =>
    have := only.head_yield_of_power
    simp_all [Derivation.yield, StartsFactor]

theorem bare {only : Derivation .primary} (h : Determined only) : Determined (.bare only) := by
  intro d' c n n' hv hv' hp hp' hn hn'
  cases d' with
  | bare only' =>
    obtain rfl := h.eq hv hv' hp hp' hn.1 hn'.1 id id
    exact .inl (.refl _)
  | raised base exponent =>
    obtain ⟨m, hpb, hpe⟩ := Passes.append_iff.1 hp'
    obtain ⟨position, rest, hm, -⟩ := Passes.cons_iff.1 hpe
    have hraises : m.Raises := next?_of_rest hm
    obtain rfl := h.eq hv hv'.1 hp hpb hn.1 hraises.ends id id
    obtain rfl := Passes.unique hp hpb
    exact absurd hraises hn.2

theorem raised {base : Derivation .primary} {exponent : Derivation .unary}
    (hb : Determined base) (he : Determined exponent) : Determined (.raised base exponent) := by
  intro d' c n n' hv hv' hp hp' hn hn'
  obtain ⟨m, hpb, hpe⟩ := Passes.append_iff.1 hp
  obtain ⟨position, rest, hm, hpe⟩ := Passes.cons_iff.1 hpe
  have hraises : m.Raises := next?_of_rest hm
  cases d' with
  | bare only' =>
    obtain rfl := hb.eq hv.1 hv' hpb hp' hraises.ends hn'.1 id id
    obtain rfl := hpb.unique hp'
    exact absurd hraises hn'.2
  | raised base' exponent' =>
    obtain ⟨m', hpb', hpe'⟩ := Passes.append_iff.1 hp'
    obtain ⟨position', rest', hm', hpe'⟩ := Passes.cons_iff.1 hpe'
    have hraises' : m'.Raises := next?_of_rest hm'
    obtain rfl := hb.eq hv.1 hv'.1 hpb hpb' hraises.ends hraises'.ends id id
    obtain rfl := hpb.unique hpb'
    obtain ⟨rfl, rfl⟩ := by simpa using hm.symm.trans hm'
    obtain rfl := he.eq hv.2 hv'.2 hpe hpe' hn hn' id id
    exact .inl (.refl _)

theorem number (value : Float) : Determined (.number value) := by
  intro d' c n n' hv hv' hp hp' hn hn'
  have hhead := head_yield_eq hp hp'
  cases d' with
  | number value' =>
    obtain rfl : value = value' := by simpa [Derivation.yield] using hhead
    exact .inl (.refl _)
  | _ => simp [Derivation.yield] at hhead

/-- A name that stands alone ends where no bracket calls it. -/
theorem not_call {spelling : String} {meaning : Expr} {h : Constant spelling meaning}
    {spelling' : String} {function : Function} {h' : Named spelling' function}
    {argument : Derivation .sum} {c n n' : Cursor}
    (hp : Passes c (Derivation.name spelling meaning h).yield n) (hn : Ends .primary n) :
    ¬ Passes c (Derivation.call spelling' function h' argument).yield n' := by
  intro hp'
  obtain ⟨position, _, hc, hp⟩ := Passes.cons_iff.1 hp
  obtain rfl := Passes.nil_iff.1 hp
  obtain ⟨position', _, hc', hp'⟩ := Passes.cons_iff.1 hp'
  obtain ⟨bracket, rest, rfl, -⟩ := Passes.cons_iff.1 hp'
  obtain ⟨⟨rfl, rfl⟩, rfl⟩ := by simpa using hc.symm.trans hc'
  exact hn ⟨⟨spelling, rfl⟩, rfl⟩

theorem name {spelling : String} {meaning : Expr} (h : Constant spelling meaning) :
    Determined (.name spelling meaning h) := by
  intro d' c n n' hv hv' hp hp' hn hn'
  have hhead := head_yield_eq hp hp'
  cases d' with
  | name spelling' meaning' h' =>
    obtain rfl : spelling = spelling' := by simpa [Derivation.yield] using hhead
    obtain rfl := h.functional h'
    exact .inl (.refl _)
  | call => exact absurd hp' (not_call hp hn)
  | _ => simp [Derivation.yield] at hhead

theorem brackets {inner : Derivation .sum} (h : Determined inner) :
    Determined (.brackets inner) := by
  intro d' c n n' hv hv' hp hp' hn hn'
  have hhead := head_yield_eq hp hp'
  cases d' with
  | brackets inner' =>
    obtain ⟨position, rest, hc, hp⟩ := Passes.cons_iff.1 hp
    obtain ⟨position', rest', hc', hp'⟩ := Passes.cons_iff.1 hp'
    obtain ⟨rfl, rfl⟩ := by simpa using hc.symm.trans hc'
    obtain rfl := h.eq_of_close hv hv' hp hp'
    exact .inl (.refl _)
  | _ => simp [Derivation.yield] at hhead

theorem call {spelling : String} {function : Function} {hf : Named spelling function}
    {argument : Derivation .sum} (h : Determined argument) :
    Determined (.call spelling function hf argument) := by
  intro d' c n n' hv hv' hp hp' hn hn'
  have hhead := head_yield_eq hp hp'
  cases d' with
  | name => exact absurd hp (not_call hp' hn')
  | call spelling' function' hf' argument' =>
    obtain rfl : spelling = spelling' := by simpa [Derivation.yield] using hhead
    obtain rfl : function = function' := by
      simpa [Named.iff_ofName?.1 hf] using Named.iff_ofName?.1 hf'
    obtain ⟨position, _, hc, hp⟩ := Passes.cons_iff.1 hp
    obtain ⟨bracket, rest, rfl, harg⟩ := Passes.cons_iff.1 hp
    obtain ⟨position', _, hc', hp'⟩ := Passes.cons_iff.1 hp'
    obtain ⟨bracket', rest', rfl, harg'⟩ := Passes.cons_iff.1 hp'
    obtain ⟨rfl, rfl, rfl⟩ := by simpa using hc.symm.trans hc'
    obtain rfl := h.eq_of_close hv hv' harg harg'
    exact .inl (.refl _)
  | _ => simp [Derivation.yield] at hhead

end Determined

theorem determined {s : Symbol} (d : Derivation s) : Determined d := by
  induction d with
  | term _ ih => exact Determined.term ih
  | sum _ _ _ _ ihl ihr => exact Determined.sum ihl ihr
  | factor _ ih => exact Determined.factor ih
  | product _ _ _ _ ihl ihr => exact Determined.product ihl ihr
  | implicit _ _ ihl ihr => exact Determined.implicit ihl ihr
  | minus _ ih => exact Determined.minus ih
  | plus _ ih => exact Determined.plus ih
  | unsigned _ ih => exact Determined.unsigned ih
  | bare _ ih => exact Determined.bare ih
  | raised _ _ ihb ihe => exact Determined.raised ihb ihe
  | number value => exact Determined.number value
  | name _ _ h => exact Determined.name h
  | brackets _ ih => exact Determined.brackets ih
  | call _ _ _ _ ih => exact Determined.call ih

/-- **The grammar is unambiguous.** -/
theorem eq_of_yield_eq {d d' : Derivation .sum} (hv : d.Valid) (hv' : d'.Valid)
    (h : d.yield = d'.yield) : d = d' := by
  let c : Cursor := ⟨none, d.yield.map fun k => ⟨k, 0⟩⟩
  have hc : c.rest.map Token.kind = d.yield := by simp [c, Function.comp_def]
  obtain ⟨n, hp, -, hn⟩ := Passes.exists_of_all hc
  have hp' : Passes c d'.yield n := h ▸ hp
  exact Determined.eq (determined d) hv hv' hp hp' hn.1 hn.1 hn.2 hn.2

end RealRoots.Grammar
