import RealRoots.Proofs.Expr.Evaluation
import RealRoots.Proofs.Number.Doubles

/-!
# Evaluation is strict

**Theorem (`Expr.eval_strict`).** An expression has a value only where all its sub-trees have finite
values, whether the whole needs them or not. Where it has none, the error is that of the first node
in left-to-right post-order whose own operation fails while its children have values.

* `postorder`: the sub-trees, each after the sub-trees inside it.
* `Breaks`: why the operation of a node fails. A negation never does.
* `FirstBreak`: the error of the first node of a list that breaks, in front of which all have
  values.
-/

namespace RealRoots

/-! ## One operation -/

theorem finite_eq_error {x v : Float} {e : EvalError} :
    finite x v = .error e ↔ ¬ v.isFinite ∧ e = .nonFinite x := by
  unfold finite
  split <;> simp [*, eq_comm (a := e)]

theorem finite_of_isFinite {x v : Float} (h : v.isFinite) : finite x v = .ok v :=
  if_pos h

theorem Function.apply_eq_error {function : Function} {x a : Float} {e : EvalError} :
    function.apply x a = .error e ↔ ¬ function.accepts a ∧ e = .domain function.name a x := by
  unfold apply
  split <;> simp [*, eq_comm (a := e)]

theorem Function.apply_eq_ok {function : Function} {x a v : Float} :
    function.apply x a = .ok v ↔ function.accepts a ∧ v = function.value a := by
  unfold apply
  split <;> simp [*, eq_comm (a := v)]

theorem power_eq_error {x a b : Float} {e : EvalError} : power x a b = .error e ↔
    (∃ n, smallPower? b = some n ∧ a == 0 ∧ n < 0 ∧ e = .divisionByZero x) ∨
      smallPower? b = none ∧ a < 0 ∧ e = .domain "^" a x := by
  unfold power
  cases smallPower? b with
  | none => by_cases ha : a < 0 <;> simp [ha, eq_comm (a := e)]
  | some n =>
    by_cases hzero : a == 0 <;> by_cases hn : n < 0 <;> simp [hzero, hn, eq_comm (a := e)]

namespace Expr

/-! ## Sub-trees -/

/-- The sub-trees from left to right, each after the sub-trees inside it. -/
def postorder : Expr → List Expr
  | number value => [number value]
  | x => [x]
  | neg operand => operand.postorder ++ [neg operand]
  | binary op left right => left.postorder ++ right.postorder ++ [binary op left right]
  | call function argument => argument.postorder ++ [call function argument]

/-- The operation of a node fails at `x`, while its children have values. -/
inductive Breaks (x : Float) : Expr → EvalError → Prop
  | number {value : Float} : ¬ value.isFinite → Breaks x (number value) (.nonFinite x)
  | x : ¬ x.isFinite → Breaks x .x (.nonFinite x)
  | zeroDivisor {left right : Expr} {a b : Float} : left.eval x = .ok a → right.eval x = .ok b →
      b == 0 → Breaks x (binary .div left right) (.divisionByZero x)
  /-- A zero has no power with a negative small integer. -/
  | zeroBase {left right : Expr} {a b : Float} {n : Int} : left.eval x = .ok a →
      right.eval x = .ok b → smallPower? b = some n → a == 0 → n < 0 →
      Breaks x (binary .pow left right) (.divisionByZero x)
  /-- A negative number has no power that is not a small integer. -/
  | negativeBase {left right : Expr} {a b : Float} : left.eval x = .ok a → right.eval x = .ok b →
      smallPower? b = none → a < 0 → Breaks x (binary .pow left right) (.domain "^" a x)
  /-- The argument is outside the domain of the function. -/
  | outside {function : Function} {argument : Expr} {a : Float} : argument.eval x = .ok a →
      ¬ function.accepts a → Breaks x (call function argument) (.domain function.name a x)
  | overflow {op : Operator} {left right : Expr} {a b v : Float} : left.eval x = .ok a →
      right.eval x = .ok b → op.apply x a b = .ok v → ¬ v.isFinite →
      Breaks x (binary op left right) (.nonFinite x)
  | unbounded {function : Function} {argument : Expr} {a : Float} : argument.eval x = .ok a →
      function.accepts a → ¬ (function.value a).isFinite →
      Breaks x (call function argument) (.nonFinite x)

/-- The nodes up to some one have values, and the error is that of this one. -/
def FirstBreak (x : Float) (nodes : List Expr) (e : EvalError) : Prop :=
  ∃ before node after, nodes = before ++ node :: after ∧
    (∀ s ∈ before, ∃ w, s.eval x = .ok w) ∧ Breaks x node e

variable {t s : Expr} {x v : Float} {e : EvalError}

/-- A sub-tree of an expression with a value has one itself. -/
theorem exists_eval_of_mem (h : t.eval x = .ok v) (hs : s ∈ t.postorder) :
    ∃ w, s.eval x = .ok w := by
  induction t generalizing v with
  | number | x =>
    obtain rfl := List.mem_singleton.1 hs
    exact ⟨v, h⟩
  | neg operand ih =>
    obtain hs | hs := List.mem_append.1 hs
    · obtain ⟨a, ha, -⟩ := bind_eq_ok.1 h
      exact ih ha hs
    · exact ⟨v, List.mem_singleton.1 hs ▸ h⟩
  | binary op left right ihLeft ihRight =>
    obtain hs | hs := List.mem_append.1 hs
    · obtain ⟨a, ha, h⟩ := bind_eq_ok.1 h
      obtain ⟨b, hb, -⟩ := bind_eq_ok.1 h
      exact (List.mem_append.1 hs).elim (ihLeft ha) (ihRight hb)
    · exact ⟨v, List.mem_singleton.1 hs ▸ h⟩
  | call function argument ih =>
    obtain hs | hs := List.mem_append.1 hs
    · obtain ⟨a, ha, -⟩ := bind_eq_ok.1 h
      exact ih ha hs
    · exact ⟨v, List.mem_singleton.1 hs ▸ h⟩

/-! ## What breaks -/

theorem breaks_binary {op : Operator} {left right : Expr} {a b : Float} (ha : left.eval x = .ok a)
    (hb : right.eval x = .ok b) :
    Breaks x (binary op left right) e ↔ (op.apply x a b >>= finite x) = .error e := by
  rw [bind_eq_error]
  simp only [finite_eq_error]
  constructor
  · intro h
    cases h with
    | zeroDivisor ha' hb' hzero =>
      obtain rfl : b = _ := Except.ok.inj (hb.symm.trans hb')
      exact .inl (if_pos hzero)
    | zeroBase ha' hb' hn hzero hneg =>
      obtain rfl : a = _ := Except.ok.inj (ha.symm.trans ha')
      obtain rfl : b = _ := Except.ok.inj (hb.symm.trans hb')
      exact .inl (power_eq_error.2 (.inl ⟨_, hn, hzero, hneg, rfl⟩))
    | negativeBase ha' hb' hn hneg =>
      obtain rfl : a = _ := Except.ok.inj (ha.symm.trans ha')
      obtain rfl : b = _ := Except.ok.inj (hb.symm.trans hb')
      exact .inl (power_eq_error.2 (.inr ⟨hn, hneg, rfl⟩))
    | overflow ha' hb' hv hinfinite =>
      obtain rfl : a = _ := Except.ok.inj (ha.symm.trans ha')
      obtain rfl : b = _ := Except.ok.inj (hb.symm.trans hb')
      exact .inr ⟨_, hv, hinfinite, rfl⟩
  · rintro (h | ⟨v, hv, hinfinite, rfl⟩)
    · cases op with
      | add | sub | mul => cases h
      | div =>
        change (if b == 0 then _ else _) = _ at h
        split at h
        · cases h
          exact .zeroDivisor ha hb ‹_›
        · cases h
      | pow =>
        obtain ⟨n, hn, hzero, hneg, rfl⟩ | ⟨hn, hneg, rfl⟩ := power_eq_error.1 h
        · exact .zeroBase ha hb hn hzero hneg
        · exact .negativeBase ha hb hn hneg
    · exact .overflow ha hb hv hinfinite

theorem breaks_call {function : Function} {argument : Expr} {a : Float}
    (ha : argument.eval x = .ok a) :
    Breaks x (call function argument) e ↔ (function.apply x a >>= finite x) = .error e := by
  rw [bind_eq_error]
  simp only [finite_eq_error, Function.apply_eq_error, Function.apply_eq_ok]
  constructor
  · intro h
    cases h with
    | outside ha' houtside =>
      obtain rfl : a = _ := Except.ok.inj (ha.symm.trans ha')
      exact .inl ⟨houtside, rfl⟩
    | unbounded ha' haccepts hinfinite =>
      obtain rfl : a = _ := Except.ok.inj (ha.symm.trans ha')
      exact .inr ⟨_, ⟨haccepts, rfl⟩, hinfinite, rfl⟩
  · rintro (⟨houtside, rfl⟩ | ⟨_, ⟨haccepts, rfl⟩, hinfinite, rfl⟩)
    · exact .outside ha houtside
    · exact .unbounded ha haccepts hinfinite

/-- A node that breaks has no value, for that reason. -/
theorem Breaks.eval_eq (h : Breaks x t e) : t.eval x = .error e := by
  have hbreaks := h
  cases h with
  | number hinfinite => exact finite_eq_error.2 ⟨hinfinite, rfl⟩
  | x hinfinite => exact finite_eq_error.2 ⟨hinfinite, rfl⟩
  | zeroDivisor ha hb | zeroBase ha hb | negativeBase ha hb | overflow ha hb =>
    rw [eval, ha, ok_bind, hb, ok_bind]
    exact (breaks_binary ha hb).1 hbreaks
  | outside ha | unbounded ha =>
    rw [eval, ha, ok_bind]
    exact (breaks_call ha).1 hbreaks

/-! ## The first node that breaks -/

namespace FirstBreak

variable {nodes : List Expr}

theorem append (h : FirstBreak x nodes e) (more : List Expr) : FirstBreak x (nodes ++ more) e := by
  obtain ⟨before, node, after, rfl, hbefore, hbreaks⟩ := h
  exact ⟨before, node, after ++ more, by simp, hbefore, hbreaks⟩

theorem after {earlier : List Expr} (hearlier : ∀ s ∈ earlier, ∃ w, s.eval x = .ok w)
    (h : FirstBreak x nodes e) : FirstBreak x (earlier ++ nodes) e := by
  obtain ⟨before, node, after, rfl, hbefore, hbreaks⟩ := h
  exact ⟨earlier ++ before, node, after, by simp,
    List.forall_mem_append.2 ⟨hearlier, hbefore⟩, hbreaks⟩

theorem last (hnodes : ∀ s ∈ nodes, ∃ w, s.eval x = .ok w) (h : Breaks x t e) :
    FirstBreak x (nodes ++ [t]) e :=
  ⟨nodes, t, [], rfl, hnodes, h⟩

/-- The error is that of the first node without a value. -/
theorem findSome?_eq (h : FirstBreak x nodes e) :
    (nodes.findSome? fun s => error? (s.eval x)) = some e := by
  obtain ⟨before, node, after, rfl, hbefore, hbreaks⟩ := h
  have hnone : (before.findSome? fun s => error? (s.eval x)) = none := by
    rw [List.findSome?_eq_none_iff]
    intro s hs
    obtain ⟨w, hw⟩ := hbefore s hs
    rw [hw, error?]
  rw [List.findSome?_append, hnone, Option.none_or, List.findSome?_cons, hbreaks.eval_eq, error?]

end FirstBreak

/-- **Where there is no value, some node is the first to break.** -/
theorem firstBreak_of_eval_eq_error (h : t.eval x = .error e) : FirstBreak x t.postorder e := by
  induction t with
  | number value =>
    obtain ⟨hinfinite, rfl⟩ := finite_eq_error.1 h
    exact ⟨[], _, [], rfl, by simp, .number hinfinite⟩
  | x =>
    obtain ⟨hinfinite, rfl⟩ := finite_eq_error.1 h
    exact ⟨[], _, [], rfl, by simp, .x hinfinite⟩
  | neg operand ih =>
    obtain h | ⟨a, ha, h⟩ := bind_eq_error.1 h
    · exact (ih h).append _
    · -- The operand has a finite value, and so has the negation.
      obtain ⟨hinfinite, -⟩ := finite_eq_error.1 h
      rw [neg_isFinite] at hinfinite
      exact absurd (eval_isFinite ha) hinfinite
  | binary op left right ihLeft ihRight =>
    obtain h | ⟨a, ha, h⟩ := bind_eq_error.1 h
    · exact ((ihLeft h).append _).append _
    have hleft s (hs : s ∈ left.postorder) := exists_eval_of_mem ha hs
    obtain h | ⟨b, hb, h⟩ := bind_eq_error.1 h
    · exact ((ihRight h).after hleft).append _
    · have hright s (hs : s ∈ right.postorder) := exists_eval_of_mem hb hs
      exact .last (List.forall_mem_append.2 ⟨hleft, hright⟩) ((breaks_binary ha hb).2 h)
  | call function argument ih =>
    obtain h | ⟨a, ha, h⟩ := bind_eq_error.1 h
    · exact (ih h).append _
    · exact .last (fun s hs => exists_eval_of_mem ha hs) ((breaks_call ha).2 h)

theorem eval_eq_error_iff : t.eval x = .error e ↔ FirstBreak x t.postorder e := by
  refine ⟨firstBreak_of_eval_eq_error, fun h => ?_⟩
  cases hvalue : t.eval x with
  | error e' =>
    have hfirst := (firstBreak_of_eval_eq_error hvalue).findSome?_eq
    rw [Option.some.inj (hfirst.symm.trans h.findSome?_eq)]
  | ok v =>
    obtain ⟨before, node, after, hnodes, -, hbreaks⟩ := h
    obtain ⟨w, hw⟩ := exists_eval_of_mem (s := node) hvalue (by simp [hnodes])
    rw [hbreaks.eval_eq] at hw
    cases hw

/-- **Evaluation is strict, finite and blames the first node that breaks.** A value is finite, and
so are those of all sub-trees. An error is that of the first sub-tree in post-order that breaks, and
it carries the `x` of the evaluation. -/
theorem eval_strict (t : Expr) (x : Float) :
    (∀ v, t.eval x = .ok v →
      v.isFinite ∧ ∀ s ∈ t.postorder, ∃ w, s.eval x = .ok w ∧ w.isFinite) ∧
    ∀ e, (t.eval x = .error e ↔ FirstBreak x t.postorder e) ∧
      (t.eval x = .error e → e.x = x) := by
  refine ⟨fun v h => ⟨eval_isFinite h, fun s hs => ?_⟩,
    fun e => ⟨eval_eq_error_iff, x_of_eval_eq_error⟩⟩
  obtain ⟨w, hw⟩ := exists_eval_of_mem h hs
  exact ⟨w, hw, eval_isFinite hw⟩

/-- A factor of zero does not make up for a square root without a value. -/
theorem zero_times_root_breaks :
    let t : Expr := .binary .mul (.number 0) (.call .sqrt .x)
    let e : EvalError := .domain "sqrt" (-4) (-4)
    t.eval (-4) = .error e ∧ FirstBreak (-4) t.postorder e := by
  intro t e
  have h : t.eval (-4) = .error e := error?_eq_some.1 (by decide +kernel)
  exact ⟨h, ((eval_strict t (-4)).2 e).1.1 h⟩

end Expr

end RealRoots
