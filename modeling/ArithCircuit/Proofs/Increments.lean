import ArithCircuit.Proofs.Expansions

set_option autoImplicit false
set_option relaxedAutoImplicit false

/-!
# Counting up

Both increments store the successor of a number, reduced by the modulus, in the cell that held the
number. The code of `x++` gets the number back from what was stored: it adds the modulus, so that
nothing becomes negative, takes 1 away and reduces. Main statement: `Node.performs_increment`.
-/

namespace ArithCircuit

open Lowering

/-! ### The arithmetic of increments -/

namespace Machine

variable {machine : Machine} {v : Nat}

theorem sum_eq_ok (proper : 1 < machine.field.prime) (x y : Nat) :
    machine.sum x y = .ok ((x + y) % machine.field.prime) :=
  if_neg (by omega)

theorem difference_eq_ok (proper : 1 < machine.field.prime) {x y : Nat}
    (small : y ≤ x + machine.field.prime) :
    machine.difference x y = .ok ((x + machine.field.prime - y) % machine.field.prime) := by
  have natural : BigIntOp.sub.apply (x + machine.field.prime) y = .ok (x + machine.field.prime - y) :=
    if_neg (by omega)
  rw [difference, natural]
  exact if_neg (by omega)

/-- Taking 1 away from the reduced successor of a number gives the number, also where the successor is
the modulus. -/
theorem difference_of_successor (proper : 1 < machine.field.prime) (small : v < machine.field.prime) :
    machine.difference ((v + 1) % machine.field.prime) 1 = .ok v := by
  rw [difference_eq_ok proper (by omega)]
  generalize machine.field.prime = p at proper small
  congr 1
  by_cases last : v + 1 = p
  · rw [last, Nat.mod_self, Nat.zero_add, Nat.mod_eq_of_lt (by omega)]
    omega
  · have back : v + 1 + p - 1 = v + p := by omega
    rw [Nat.mod_eq_of_lt (by omega : v + 1 < p), back, Nat.add_mod_right, Nat.mod_eq_of_lt small]

end Machine

namespace Eval

variable {s : Machine.State} {address : Address} {u w : Datum} {change : Datum → Eval Datum}

/-- An operation on two numbers, where it has a result. -/
theorem run_inOrder {result : Nat → Nat → Except EvalError Nat} {x y n : Nat}
    (defined : result x y = .ok n) :
    (inOrder (number (.number x)) (pure y) result).run s = .ok (.number n, s) := by
  rw [inOrder, number, pure_bind, pure_bind, defined]
  rfl

/-- An update whose change has no effects stores the result once. -/
theorem run_updateCell (held : s.memory address = u) (changed : (change u).run s = .ok (w, s)) :
    (updateCell (pure address) (pure address) change).run s = .ok (w, s.storing address w) := by
  have loaded : (load address).run s = .ok (u, s) := by rw [← held]; rfl
  rw [updateCell, pure_bind, pure_bind, run_bind_of_ok loaded, run_bind_of_ok changed]
  rfl

end Eval

open Eval

/-! ### The code of increments -/

section

variable {ctx : Context} {span : Span} {target : Node}

/-- A reference that can be read without introducing a name is a target, with the cell that is read. -/
theorem Node.lowerTarget_of_read {e : Expr} (reference : target.isReference = true)
    (read : runFrom ctx target.lowerValue = (.ok e, ctx)) (span : Span) :
    ∃ cell, e = .get cell ∧ runFrom ctx (target.lowerTarget span) = (.ok (some cell), ctx) := by
  have lowered := runFrom_valueOf_eq_ok.1 read
  cases target
  case var place name selectors =>
    simp only [Node.lower, runFrom_bind_eq_ok, runFrom_resolve_eq_ok, runFrom_cellOf_eq_ok,
      runFrom_pure_eq_ok] at lowered
    obtain ⟨symbol, _, ⟨stands, rfl⟩, indices, _, first, cell, _, ⟨cells, rfl⟩, same, rfl⟩ := lowered
    cases same
    refine ⟨cell, rfl, ?_⟩
    simp only [Node.lowerTarget, runFrom_bind_eq_ok, runFrom_resolve_eq_ok,
      runFrom_targetOf_some_eq_ok]
    exact ⟨indices, _, first, symbol, _, ⟨stands, rfl⟩, cells, rfl⟩
  case pin place component componentSelectors name selectors =>
    simp only [Node.lower, runFrom_bind_eq_ok, runFrom_pure_eq_ok] at lowered
    obtain ⟨_, ctx₁, resolved, is, ctx₂, outer, js, _, inner, same, rfl⟩ := lowered
    cases same
    refine ⟨_, rfl, ?_⟩
    simp only [Node.lowerTarget, runFrom_bind_eq_ok, runFrom_pure_eq_ok]
    exact ⟨_, ctx₁, resolved, is, ctx₂, outer, js, _, inner, rfl, rfl⟩
  all_goals cases reference

/-- The code that counts a cell up. -/
def Cell.counted (cell : Cell) : Expr := .set cell (Arithmetic.increment (.get cell))

/-- A reference that can be read without introducing a name can be counted up. -/
theorem Node.lower_increment_of_read {e : Expr} (reference : target.isReference = true)
    (read : runFrom ctx target.lowerValue = (.ok e, ctx)) (span : Span) :
    ∃ cell, e = .get cell ∧ ∀ post : Bool, runFrom ctx
        (Node.op span (if post then Operator.postIncrement else .preIncrement).symbol [target]).lower =
      (.ok (.expr (if post then Arithmetic.previousValue cell.counted else cell.counted)), ctx) := by
  obtain ⟨cell, rfl, found⟩ := Node.lowerTarget_of_read reference read span
  refine ⟨cell, rfl, fun post => ?_⟩
  have successor : runFrom ctx (Node.successor span target).lowerValue =
      (.ok (Arithmetic.increment (.get cell)), ctx) := by
    rw [Node.lowerValue_successor]
    exact runFrom_map_eq_ok.2 ⟨_, read, rfl⟩
  have stored : runFrom ctx (Operand.store span target.operand (Node.successor span target).lowerValue) =
      (.ok (some cell.counted), ctx) :=
    Operand.runFrom_store_eq_ok.2 (.inr ⟨cell, _, ctx, found, successor, rfl⟩)
  rw [Node.lower_increment reference]
  exact runFrom_bind_eq_ok.2 ⟨_, _, stored, rfl⟩

/-- Nothing else can be counted up, be it in one way or the other. -/
theorem Node.read_of_lower_increment {post : Bool} {fragment : Fragment} {ctx' : Context}
    (lowered : runFrom ctx (Node.op span
      (if post then Operator.postIncrement else .preIncrement).symbol [target]).lower =
        (.ok fragment, ctx')) :
    target.isReference = true ∧ ∃ e, runFrom ctx target.lowerValue = (.ok e, ctx) := by
  rw [Node.lower_op_increment] at lowered
  obtain ⟨e, counted, -⟩ := runFrom_map_eq_ok.1 lowered
  simp only [Operand.increment, runFrom_bind_eq_ok, Operand.runFrom_requireReference_eq_ok] at counted
  obtain ⟨_, _, ⟨reference, rfl⟩, stored, ctx₂, storing, rest⟩ := counted
  rcases Operand.runFrom_store_eq_ok.1 storing with ⟨-, rfl⟩ | ⟨cell, _, ctx₁, found, valued, rfl⟩
  · exact absurd rest runFrom_throw_ne_ok
  · obtain ⟨current, read, -⟩ := runFrom_map_eq_ok.1 valued
    obtain ⟨rfl, rfl, -⟩ := Node.reread_of_lowerTarget reference found read (List.Subset.refl _)
    exact ⟨reference, current, read⟩

/-! ### What increments do -/

variable {machine : Machine} {s : Machine.State} {cell : Cell} {address : Address} {v : Nat}

theorem Cell.run_counted (proper : 1 < machine.field.prime)
    (found : (cell.address machine).run s = .ok (address, s)) (held : s.memory address = .number v) :
    (cell.counted.eval machine).run s = .ok (.number ((v + 1) % machine.field.prime),
      s.storing address (.number ((v + 1) % machine.field.prime))) := by
  rw [Cell.counted, Expr.eval_set_increment, run_updateCell_of_same found found]
  exact run_updateCell held (run_inOrder (Machine.sum_eq_ok proper v 1))

theorem Cell.run_previousValue_counted (proper : 1 < machine.field.prime)
    (found : (cell.address machine).run s = .ok (address, s)) (held : s.memory address = .number v)
    (small : v < machine.field.prime) :
    ((Arithmetic.previousValue cell.counted).eval machine).run s = .ok (.number v,
      s.storing address (.number ((v + 1) % machine.field.prime))) := by
  rw [Expr.eval_previousValue, run_bind_of_ok (Cell.run_counted proper found held)]
  exact run_inOrder (Machine.difference_of_successor proper small)

/-- A reference that can be read without introducing a name can be counted up in both ways. Where its
indices have values and no effects, and its cell holds a number below the modulus, both ways store the
reduced successor in the cell, which is their only effect; `++x` yields the successor and `x++` the
number that the cell held. -/
theorem Node.performs_increment {e : Expr} (span : Span) (reference : target.isReference = true)
    (read : runFrom ctx target.lowerValue = (.ok e, ctx)) :
    ∃ cell pre post, e = .get cell ∧
      runFrom ctx (Node.op span "PLUSPLUSLEFT" [target]).lower = (.ok (.expr pre), ctx) ∧
      runFrom ctx (Node.op span "PLUSPLUSRIGHT" [target]).lower = (.ok (.expr post), ctx) ∧
      ∀ (machine : Machine) (s : Machine.State) (address : Address) (v : Nat),
        1 < machine.field.prime → (cell.address machine).run s = .ok (address, s) →
        s.memory address = .number v → v < machine.field.prime →
        ∃ s', (pre.eval machine).Performs s
            [.store address (.number ((v + 1) % machine.field.prime))]
            (.number ((v + 1) % machine.field.prime)) s' ∧
          (post.eval machine).Performs s
            [.store address (.number ((v + 1) % machine.field.prime))] (.number v) s' ∧
          s'.memory address = .number ((v + 1) % machine.field.prime) ∧
          ∀ other, other ≠ address → s'.memory other = s.memory other := by
  obtain ⟨cell, same, lowered⟩ := Node.lower_increment_of_read reference read span
  refine ⟨cell, _, _, same, lowered false, lowered true, ?_⟩
  intro machine s address v proper found held small
  refine ⟨s.storing address (.number ((v + 1) % machine.field.prime)), ⟨?_, rfl⟩, ⟨?_, rfl⟩,
    Memory.write_self .., fun other elsewhere => Memory.write_of_ne _ elsewhere _⟩
  · exact Cell.run_counted proper found held
  · exact Cell.run_previousValue_counted proper found held small

/-- The operation `x[i]++` at the last number below the modulus: it stores 0 and yields the number. -/
theorem Node.performs_increment_at_last :
    let x : Node := .var .unknown "x" [.var .unknown "i" []]
    let address : Address := .var "x" [2]
    let s : Machine.State :=
      ⟨(Memory.empty.write (.var "i" []) (.number 2)).write address (.number 6), []⟩
    ∃ post s', runFrom .twoVariables (Node.op .unknown "PLUSPLUSRIGHT" [x]).lower =
        (.ok (.expr post), .twoVariables) ∧
      (post.eval (.ofField ⟨7, 7⟩)).Performs s [.store address (.number 0)] (.number 6) s' ∧
      s'.memory address = .number 0 := by
  intro x address s
  have read : runFrom .twoVariables x.lowerValue =
    (.ok (.get (.var "x" [.get (.var "i" [])])), .twoVariables) := rfl
  obtain ⟨cell, pre, post, same, -, lowered, performs⟩ := performs_increment .unknown rfl read
  cases same
  obtain ⟨s', -, performed, stored, -⟩ :=
    performs (.ofField ⟨7, 7⟩) s address 6 (by decide) rfl rfl (by decide)
  exact ⟨post, s', lowered, performed, stored⟩

end

end ArithCircuit
