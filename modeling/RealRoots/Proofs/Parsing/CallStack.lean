import RealRoots.Proofs.Parsing.Soundness

/-!
# The calls of the parser

At every moment of a parse some readers are at work, each called by the one below it. `Activates`
says which calls a reader makes, one constructor for each place in the code: a call that comes after
another one needs that one's result. `Stack text a path` says that `a` is the innermost call at some
moment of the parse of the text, and that those of `path` are active below it.

* `exprs`: how many calls read a whole expression.
* `joined`: how many of them read the right factor of an implicit product.
* `opened`: how many brackets are open among the tokens before the innermost call.

**Theorem (`Stack.exprs_le`).** At most `maxDepth + 1` expressions are being read, and one more for
each implicit product that is joined.

**Theorem (`Stack.exprs_eq`).** One of them is the whole text, and each other one stands in an open
bracket.

Only a signed factor raises the level, and each bracket is reached through one, except the brackets
of an implicit product: its right factor is read as a power at the level of the product.
-/

namespace RealRoots.Phrase

open Token Grammar Cursor

/-- A call of a reader. The loops start from what they have read so far. -/
inductive Activation where
  | expr (level : Nat) (c : Cursor)
  | sums (level : Nat) {c : Cursor} (left : Parsed c)
  | term (level : Nat) (c : Cursor)
  | products (level : Nat) {c : Cursor} (left : Parsed c)
  | unary (level : Nat) (c : Cursor)
  | power (level : Nat) (c : Cursor)
  | primary (level : Nat) (c : Cursor)
  | arguments (level count : Nat) {c : Cursor} (last : Parsed c)

namespace Activation

@[simp] def level : Activation → Nat
  | expr level _ | sums level _ | term level _ | products level _ | unary level _
  | power level _ | primary level _ | arguments level _ _ => level

/-- Where the reader starts. -/
@[simp] def cursor : Activation → Cursor
  | expr _ c | term _ c | unary _ c | power _ c | primary _ c => c
  | sums _ left | products _ left => left.next
  | arguments _ _ last => last.next

/-- Is a whole expression read? -/
@[simp] def isExpr : Activation → Bool
  | expr .. => true
  | _ => false

/-- Is part of a factor read, with no expression started inside it? -/
@[simp] def inFactor : Activation → Bool
  | power .. | primary .. | arguments .. => true
  | _ => false

/-- Are further arguments read, inside the brackets of a call? -/
@[simp] def inArguments : Activation → Bool
  | arguments .. => true
  | _ => false

/-- The token that a factor starts with, while none of it has been read. -/
@[simp] def ahead : Activation → List Kind
  | power _ c | primary _ c => c.next?.toList
  | _ => []

/-- Is the second call for the right factor of an implicit product? -/
@[simp] def joins : Activation → Activation → Bool
  | products .., power .. => true
  | _, _ => false

end Activation

/-- The first call makes the second one, each of them from a cursor that it has come to. -/
inductive Activates : Activation → Activation → Prop
  | term (level : Nat) (c : Cursor) : Activates (.expr level c) (.term level c)
  | sums {level : Nat} {c : Cursor} {first : Parsed c} (hfirst : term level c = .ok first) :
      Activates (.expr level c) (.sums level first)
  | nextTerm {level position : Nat} {c : Cursor} {left : Parsed c} {op : Operator}
      {rest : List Token} (hop : op = .add ∨ op = .sub)
      (h : left.next.rest = ⟨sign op, position⟩ :: rest) :
      Activates (.sums level left) (.term level ⟨some ⟨sign op, position⟩, rest⟩)
  | nextSums {level position : Nat} {c : Cursor} {left : Parsed c} {op : Operator}
      {rest : List Token} {right : Parsed ⟨some ⟨sign op, position⟩, rest⟩} {tree : Expr}
      (hop : op = .add ∨ op = .sub) (h : left.next.rest = ⟨sign op, position⟩ :: rest)
      (hright : term level ⟨some ⟨sign op, position⟩, rest⟩ = .ok right)
      (htree : bounded (.binary op left.tree right.tree) position = .ok tree) :
      Activates (.sums level left)
        (.sums level (left.through tree right (Nat.le_of_lt (rest_lt h))))
  | unary (level : Nat) (c : Cursor) : Activates (.term level c) (.unary level c)
  | products {level : Nat} {c : Cursor} {first : Parsed c} (hfirst : unary level c = .ok first) :
      Activates (.term level c) (.products level first)
  | nextUnary {level position : Nat} {c : Cursor} {left : Parsed c} {op : Operator}
      {rest : List Token} (hop : op = .mul ∨ op = .div)
      (h : left.next.rest = ⟨sign op, position⟩ :: rest) :
      Activates (.products level left) (.unary level ⟨some ⟨sign op, position⟩, rest⟩)
  | nextProducts {level position : Nat} {c : Cursor} {left : Parsed c} {op : Operator}
      {rest : List Token} {right : Parsed ⟨some ⟨sign op, position⟩, rest⟩} {tree : Expr}
      (hop : op = .mul ∨ op = .div) (h : left.next.rest = ⟨sign op, position⟩ :: rest)
      (hright : unary level ⟨some ⟨sign op, position⟩, rest⟩ = .ok right)
      (htree : bounded (.binary op left.tree right.tree) position = .ok tree) :
      Activates (.products level left)
        (.products level (left.through tree right (Nat.le_of_lt (rest_lt h))))
  | joined {level : Nat} {c : Cursor} {left : Parsed c} {token : Token} {rest : List Token}
      (hlast : ∃ value, left.next.last? = some (.number value))
      (h : left.next.rest = token :: rest) (hk : token.kind.startsFactor) :
      Activates (.products level left) (.power level left.next)
  | joinedProducts {level : Nat} {c : Cursor} {left : Parsed c} {token : Token}
      {rest : List Token} {right : Parsed left.next} {tree : Expr}
      (hlast : ∃ value, left.next.last? = some (.number value))
      (h : left.next.rest = token :: rest) (hk : token.kind.startsFactor)
      (hright : power level left.next = .ok right)
      (htree : bounded (.binary .mul left.tree right.tree) token.position = .ok tree) :
      Activates (.products level left) (.products level (left.through tree right (Nat.le_refl _)))
  | minus {level position : Nat} {c : Cursor} {rest : List Token} (hl : level < maxDepth)
      (h : c.rest = ⟨.minus, position⟩ :: rest) :
      Activates (.unary level c) (.unary (level + 1) ⟨some ⟨.minus, position⟩, rest⟩)
  | plus {level position : Nat} {c : Cursor} {rest : List Token} (hl : level < maxDepth)
      (h : c.rest = ⟨.plus, position⟩ :: rest) :
      Activates (.unary level c) (.unary (level + 1) ⟨some ⟨.plus, position⟩, rest⟩)
  | unsigned {level : Nat} {c : Cursor} (hl : level < maxDepth) (hm : c.next? ≠ some .minus)
      (hp : c.next? ≠ some .plus) : Activates (.unary level c) (.power (level + 1) c)
  | primary (level : Nat) (c : Cursor) : Activates (.power level c) (.primary level c)
  | exponent {level position : Nat} {c : Cursor} {base : Parsed c} {rest : List Token}
      (hbase : primary level c = .ok base) (h : base.next.rest = ⟨.caret, position⟩ :: rest) :
      Activates (.power level c) (.unary level ⟨some ⟨.caret, position⟩, rest⟩)
  | brackets {level position : Nat} {c : Cursor} {rest : List Token}
      (h : c.rest = ⟨.leftParen, position⟩ :: rest) :
      Activates (.primary level c) (.expr level ⟨some ⟨.leftParen, position⟩, rest⟩)
  | argument {level position bracket : Nat} {c : Cursor} {name : String} {function : Function}
      {rest : List Token} (hf : Function.ofName? name = some function)
      (h : c.rest = ⟨.identifier name, position⟩ :: ⟨.leftParen, bracket⟩ :: rest) :
      Activates (.primary level c) (.expr level ⟨some ⟨.leftParen, bracket⟩, rest⟩)
  | arguments {level position bracket : Nat} {c : Cursor} {name : String} {function : Function}
      {rest : List Token} {first : Parsed ⟨some ⟨.leftParen, bracket⟩, rest⟩}
      (hf : Function.ofName? name = some function)
      (h : c.rest = ⟨.identifier name, position⟩ :: ⟨.leftParen, bracket⟩ :: rest)
      (hfirst : expr level ⟨some ⟨.leftParen, bracket⟩, rest⟩ = .ok first) :
      Activates (.primary level c) (.arguments level 1 first)
  | nextArgument {level count position : Nat} {c : Cursor} {last : Parsed c} {rest : List Token}
      (h : last.next.rest = ⟨.comma, position⟩ :: rest) :
      Activates (.arguments level count last) (.expr level ⟨some ⟨.comma, position⟩, rest⟩)
  | nextArguments {level count position : Nat} {c : Cursor} {last : Parsed c} {rest : List Token}
      {next : Parsed ⟨some ⟨.comma, position⟩, rest⟩}
      (h : last.next.rest = ⟨.comma, position⟩ :: rest)
      (hnext : expr level ⟨some ⟨.comma, position⟩, rest⟩ = .ok next) :
      Activates (.arguments level count last) (.arguments level (count + 1)
        (last.through next.tree next (Nat.le_of_lt (rest_lt h))))

/-- The call `a` is the innermost one at some moment of the parse of the text, and the calls of
`path` are active below it. -/
inductive Stack (text : String) : Activation → List Activation → Prop
  | start {tokens : List Token} (hblank : ¬ Text.allBlank text)
      (htokens : tokenize text = .ok tokens) : Stack text (.expr 0 ⟨none, tokens⟩) []
  | call {a b : Activation} {path : List Activation} (h : Stack text a path)
      (hcall : Activates a b) : Stack text b (a :: path)

/-- How many whole expressions are being read. -/
def exprs (path : List Activation) : Nat :=
  path.countP Activation.isExpr

/-- How many right factors of implicit products are being read. -/
def joined : List Activation → Nat
  | b :: a :: path => (Activation.joins a b).toNat + joined (a :: path)
  | _ => 0

theorem exprs_cons (a : Activation) (path : List Activation) :
    exprs (a :: path) = exprs path + a.isExpr.toNat := by
  rw [exprs, exprs, List.countP_cons]
  cases a.isExpr <;> rfl

theorem joined_cons_cons (b a : Activation) (path : List Activation) :
    joined (b :: a :: path) = (Activation.joins a b).toNat + joined (a :: path) := rfl

/-! ## What one call does -/

/-- What is passed starts with the token ahead. -/
theorem ahead_prefix {c n : Cursor} {u v : List Kind} (h : Passes c u n) (hu : u ≠ []) :
    c.next?.toList <+: u ++ v := by
  rw [h.next?_eq hu]
  cases u with
  | nil => exact absurd rfl hu
  | cons k u => exact ⟨u ++ v, rfl⟩


/-- Between the two calls the tokens `u` are read. They open the bracket that a whole expression
stands in, and none else. -/
structure Between (a b : Activation) (u : List Kind) : Prop where
  passes : Passes a.cursor u b.cursor
  ahead : a.ahead <+: u ++ b.ahead
  count : u.count .leftParen + a.inArguments.toNat =
    u.count .rightParen + b.isExpr.toNat + b.inArguments.toNat

namespace Activates

variable {a b : Activation}

theorem level_le (h : Activates a b) (ha : a.level ≤ maxDepth) : b.level ≤ maxDepth := by
  cases h with
  | minus hl | plus hl | unsigned hl => exact hl
  | _ => exact ha

/-- An expression inside a factor uses up the level that the factor has raised, or the implicit
product that it belongs to. -/
theorem exprs_le (h : Activates a b) : b.isExpr.toNat + b.inFactor.toNat + a.level ≤
    a.inFactor.toNat + b.level + (Activation.joins a b).toNat := by
  cases h <;> simp <;> omega

theorem exists_between (h : Activates a b) (ha : a.level ≤ maxDepth) : ∃ u, Between a b u := by
  cases h with
  | term level c => exact ⟨[], .nil _, List.nil_prefix, rfl⟩
  | @sums level c first hfirst =>
    obtain ⟨u, hp, -, hu⟩ := ((sound c).term hfirst).balanced
    exact ⟨u, hp, List.nil_prefix, hu⟩
  | nextTerm hop h =>
    exact ⟨_, Passes.token h, List.nil_prefix, by obtain rfl | rfl := hop <;> rfl⟩
  | nextSums hop h hright htree =>
    obtain ⟨u, hp, -, hu⟩ := ((sound _).term hright).balanced
    refine ⟨_, (Passes.token h).append hp, List.nil_prefix, ?_⟩
    obtain rfl | rfl := hop <;> exact hu
  | unary level c => exact ⟨[], .nil _, List.nil_prefix, rfl⟩
  | products hfirst =>
    obtain ⟨u, hp, -, hu⟩ := ((sound _).unary hfirst).balanced
    exact ⟨u, hp, List.nil_prefix, hu⟩
  | nextUnary hop h =>
    exact ⟨_, Passes.token h, List.nil_prefix, by obtain rfl | rfl := hop <;> rfl⟩
  | nextProducts hop h hright htree =>
    obtain ⟨u, hp, -, hu⟩ := ((sound _).unary hright).balanced
    refine ⟨_, (Passes.token h).append hp, List.nil_prefix, ?_⟩
    obtain rfl | rfl := hop <;> exact hu
  | joined hlast h hk => exact ⟨[], .nil _, List.nil_prefix, rfl⟩
  | joinedProducts hlast h hk hright htree =>
    obtain ⟨u, hp, -, hu⟩ := ((sound _).power ha hright).balanced
    exact ⟨u, hp, List.nil_prefix, hu⟩
  | minus hl h => exact ⟨_, Passes.token h, List.nil_prefix, rfl⟩
  | plus hl h => exact ⟨_, Passes.token h, List.nil_prefix, rfl⟩
  | unsigned => exact ⟨[], .nil _, List.nil_prefix, rfl⟩
  | primary level c => exact ⟨[], .nil _, List.prefix_rfl, rfl⟩
  | exponent hbase h =>
    obtain ⟨u, hp, hne, hu⟩ := ((sound _).primary ha hbase).balanced
    have hpass := hp.append (Passes.token h)
    exact ⟨_, hpass, ahead_prefix hpass (by simp), by simpa using hu⟩
  | brackets h => exact ⟨_, Passes.token h, ahead_prefix (Passes.token h) (by simp), rfl⟩
  | argument hf h =>
    have hpass := (Passes.token h).append (Passes.token rfl)
    exact ⟨_, hpass, ahead_prefix hpass (by simp), rfl⟩
  | arguments hf h hfirst =>
    obtain ⟨u, hp, -, hu⟩ := ((sound _).expr hfirst).balanced
    have hpass := ((Passes.token h).append (Passes.token rfl)).append hp
    exact ⟨_, hpass, ahead_prefix hpass (by simp), by simpa using hu⟩
  | nextArgument h => exact ⟨_, Passes.token h, List.nil_prefix, rfl⟩
  | nextArguments h hnext =>
    obtain ⟨u, hp, -, hu⟩ := ((sound _).expr hnext).balanced
    exact ⟨_, (Passes.token h).append hp, List.nil_prefix, by simpa using hu⟩

end Activates

/-! ## Numbers before factors -/

/-- Does a number stand directly before a name or an opening bracket? -/
def joint : Kind → Kind → Bool
  | .number _, k => k.startsFactor
  | _, _ => false

/-- How often a number stands directly before a name or an opening bracket. -/
def joints : List Kind → Nat
  | l :: k :: u => (joint l k).toNat + joints (k :: u)
  | _ => 0

theorem joints_le_append (u v : List Kind) : joints u ≤ joints (u ++ v) := by
  fun_induction joints u with
  | case1 l k u ih => exact Nat.add_le_add_left ih _
  | case2 => exact Nat.zero_le _

theorem joints_append_singleton {u : List Kind} {l k : Kind} (hu : u.getLast? = some l) :
    joints (u ++ [k]) = joints u + (joint l k).toNat := by
  fun_induction joints u with
  | case1 l k u ih =>
    rw [List.getLast?_cons_cons] at hu
    have := ih hu
    simp only [List.cons_append, joints] at this ⊢
    omega
  | case2 u hu' =>
    match u with
    | [_] =>
      obtain rfl := by simpa using hu
      simp [joints]
    | l :: k :: u => exact absurd rfl (hu' l k u)

theorem Activates.joint_of_joins {a b : Activation} (h : Activates a b) (hj : a.joins b) :
    b.cursor = a.cursor ∧ a.ahead = [] ∧
      ∃ l k, a.cursor.last? = some l ∧ b.ahead = [k] ∧ joint l k := by
  cases h with
  | joined hlast h hk =>
    obtain ⟨value, hlast⟩ := hlast
    exact ⟨rfl, rfl, _, _, hlast, by simp [next?_of_rest h], hk⟩
  | _ => cases hj

theorem last?_eq_of_passes {tokens : List Token} {u : List Kind} {n : Cursor}
    (h : Passes ⟨none, tokens⟩ u n) : n.last? = u.getLast? := by
  by_cases hu : u = []
  · subst hu
    rw [Passes.nil_iff.1 h]
    rfl
  · exact h.last?_eq hu

/-! ## What is true at every moment -/

theorem Activation.ahead_prefix (a : Activation) : a.ahead <+: a.cursor.rest.map Token.kind := by
  have next (c : Cursor) : c.next?.toList <+: c.rest.map Token.kind := by
    obtain ⟨b, _ | ⟨token, rest⟩⟩ := c
    · exact List.nil_prefix
    · exact ⟨rest.map Token.kind, rfl⟩
  cases a with
  | power level c | primary level c => exact next c
  | _ => exact List.nil_prefix

/-- The kinds of the tokens of a text, or none where it has no tokens. -/
def kinds (text : String) : List Kind :=
  match tokenize text with
  | .ok tokens => tokens.map Token.kind
  | .error _ => []

/-- The tokens before the place where the reader starts. -/
def Activation.read (text : String) (a : Activation) : List Kind :=
  (kinds text).take ((kinds text).length - a.cursor.rest.length)

theorem read_eq {text : String} {a : Activation} {tokens : List Token} {u : List Kind}
    (htokens : tokenize text = .ok tokens) (h : Passes ⟨none, tokens⟩ u a.cursor) :
    a.read text = u := by
  have hkinds : kinds text = u ++ a.cursor.rest.map Token.kind := by
    rw [← h.kinds]
    simp only [kinds, htokens]
  rw [Activation.read, hkinds]
  simp

/-- How many of the brackets stay open. -/
def opened (u : List Kind) : Int :=
  u.count .leftParen - u.count .rightParen

namespace Stack

variable {text : String} {a : Activation} {path : List Activation}

theorem level_le (h : Stack text a path) : a.level ≤ maxDepth := by
  induction h with
  | start => exact Nat.zero_le _
  | call _ hcall ih => exact hcall.level_le ih

theorem exprs_add_le (h : Stack text a path) :
    exprs (a :: path) + a.inFactor.toNat ≤ 1 + a.level + joined (a :: path) := by
  induction h with
  | start => exact Nat.le_refl _
  | call _ hcall ih =>
    have hstep := hcall.exprs_le
    rw [exprs_cons, joined_cons_cons]
    omega

/-- **The recursion is bounded by the implicit products.** -/
theorem exprs_le (h : Stack text a path) :
    exprs (a :: path) ≤ maxDepth + 1 + joined (a :: path) := by
  have := h.exprs_add_le
  have := h.level_le
  omega

/-- The innermost reader has come to its cursor from the start of the text. -/
theorem passes_read (h : Stack text a path) :
    ∃ tokens, tokenize text = .ok tokens ∧ Passes ⟨none, tokens⟩ (a.read text) a.cursor := by
  have hpass : ∃ tokens u, tokenize text = .ok tokens ∧ Passes ⟨none, tokens⟩ u a.cursor := by
    induction h with
    | start _ htokens => exact ⟨_, [], htokens, .nil _⟩
    | call hstack hcall ih =>
      obtain ⟨tokens, u, htokens, hu⟩ := ih
      obtain ⟨v, hv⟩ := hcall.exists_between hstack.level_le
      exact ⟨tokens, u ++ v, htokens, hu.append hv.passes⟩
  obtain ⟨tokens, u, htokens, hu⟩ := hpass
  exact ⟨tokens, htokens, (read_eq htokens hu).symm ▸ hu⟩

/-- What is read goes on where the calls do. -/
theorem read_call {b : Activation} (h : Stack text a path) (hcall : Activates a b) :
    ∃ u, b.read text = a.read text ++ u ∧ Between a b u := by
  obtain ⟨u, hu⟩ := hcall.exists_between h.level_le
  obtain ⟨tokens, htokens, ha⟩ := h.passes_read
  obtain ⟨tokens', htokens', hb⟩ := (h.call hcall).passes_read
  obtain rfl : tokens = tokens' := by simpa [htokens] using htokens'
  have hkinds := (ha.append hu.passes).kinds
  rw [hb.kinds] at hkinds
  exact ⟨u, List.append_cancel_right hkinds, hu⟩

/-- **Each expression that is being read but the first stands in an open bracket.** -/
theorem exprs_eq (h : Stack text a path) :
    (exprs (a :: path) : Int) + a.inArguments.toNat = opened (a.read text) + 1 := by
  induction h with
  | start hblank htokens => simp [exprs, opened, Activation.read, kinds, htokens]
  | call hstack hcall ih =>
    obtain ⟨u, hread, hu⟩ := hstack.read_call hcall
    have hcount := hu.count
    rw [hread, exprs_cons]
    simp only [opened, List.count_append] at ih ⊢
    omega

theorem joined_le (h : Stack text a path) :
    joined (a :: path) ≤ joints (a.read text ++ a.ahead) := by
  induction h with
  | start => exact Nat.zero_le _
  | @call a b path hstack hcall ih =>
    obtain ⟨u, hread, hu⟩ := hstack.read_call hcall
    rw [hread, joined_cons_cons]
    by_cases hj : a.joins b
    · -- no token is read: the joint is between the last one and the one ahead
      obtain ⟨hcursor, hahead, l, k, hl, hk, hjoint⟩ := hcall.joint_of_joins hj
      have hlength := hu.passes.length
      rw [hcursor] at hlength
      obtain rfl : u = [] := List.length_eq_zero_iff.1 (by omega)
      obtain ⟨tokens, -, hpasses⟩ := hstack.passes_read
      rw [last?_eq_of_passes hpasses] at hl
      simp only [hahead, List.append_nil] at ih
      rw [List.append_nil, hk, joints_append_singleton hl, hj, hjoint, Nat.add_comm]
      exact Nat.add_le_add_right ih 1
    · obtain ⟨v, hv⟩ := hu.ahead
      rw [Bool.not_eq_true] at hj
      rw [hj, Bool.toNat_false, Nat.zero_add, List.append_assoc, ← hv, ← List.append_assoc]
      exact Nat.le_trans ih (joints_le_append _ v)

theorem joined_le_joints (h : Stack text a path) : joined (a :: path) ≤ joints (kinds text) := by
  obtain ⟨tokens, htokens, hpasses⟩ := h.passes_read
  obtain ⟨v, hv⟩ := a.ahead_prefix
  have hkinds : kinds text = a.read text ++ a.ahead ++ v := by
    rw [List.append_assoc, hv, ← hpasses.kinds]
    simp only [kinds, htokens]
  rw [hkinds]
  exact Nat.le_trans h.joined_le (joints_le_append _ v)

end Stack

end RealRoots.Phrase
