import ArithCircuit.Proofs.OperandOrder
import ArithCircuit.Proofs.Repetitions

set_option autoImplicit false
set_option relaxedAutoImplicit false

/-!
# Updates in place

An operator that updates its target in place lowers it twice: once as the cell to store in and once as
a value. The code evaluates the indices of the target as often, and each time it may find another cell.
Main statement: `Node.eval_of_updatesInPlace`.
-/

namespace ArithCircuit

open Lowering

/-! ### Cells that are found twice -/

namespace Machine.State

/-- The state after a store. -/
def storing (s : Machine.State) (address : Address) (v : Datum) : Machine.State :=
  ⟨s.memory.write address v, s.effects ++ [.store address v]⟩

@[simp] theorem memory_storing_self (s : Machine.State) (address : Address) (v : Datum) :
    (s.storing address v).memory address = v :=
  Memory.write_self ..

@[simp] theorem effects_storing (s : Machine.State) (address : Address) (v : Datum) :
    (s.storing address v).effects = s.effects ++ [.store address v] := rfl

/-- The state after a demand that two values are equal. -/
def demanding (s : Machine.State) (lhs rhs : Datum) : Machine.State :=
  { s with effects := s.effects ++ [.equality lhs rhs] }

@[simp] theorem memory_demanding (s : Machine.State) (lhs rhs : Datum) :
    (s.demanding lhs rhs).memory = s.memory := rfl

@[simp] theorem effects_demanding (s : Machine.State) (lhs rhs : Datum) :
    (s.demanding lhs rhs).effects = s.effects ++ [.equality lhs rhs] := rfl

end Machine.State

namespace Eval

/-- Find a cell to store in, then a cell to read, and store what becomes of its contents. -/
def updateCell (target source : Eval Address) (change : Datum → Eval Datum) : Eval Datum := do
  let address ← target
  let current ← source >>= load
  let v ← change current
  store address v
  return v

/-- Find a cell, store a value in it, then find a cell to read, and demand that it holds the value. -/
def constrainCell (target source : Eval Address) (value : Eval Datum) : Eval Datum := do
  let address ← target
  let v ← value
  store address v
  let back ← source >>= load
  demandEqual v back
  return v

variable {α β : Type} {target source : Eval Address} {change : Datum → Eval Datum}
  {value : Eval Datum} {left right : Eval Nat} {step step' : Eval α} {address : Address}
  {s s₁ s₂ s₃ : Machine.State} {v : Datum}

theorem inOrder_bind_number (taken : Eval Datum) (right : Eval Nat)
    (result : Nat → Nat → Except EvalError Nat) :
    inOrder (taken >>= number) right result =
      taken >>= fun current => inOrder (number current) right result := by
  simp only [inOrder, bind_assoc]

theorem run_bind_congr (same : step.run s = step'.run s₁) (next : α → Eval β) :
    (step >>= next).run s = (step' >>= next).run s₁ := by
  rw [StateT.run_bind, StateT.run_bind, same]

/-- If the same cell is found both times, it is the cell that is updated. -/
theorem run_updateCell_of_same (first : target.run s = .ok (address, s₁))
    (second : source.run s₁ = .ok (address, s₂)) (change : Datum → Eval Datum) :
    (updateCell target source change).run s =
      (updateCell (pure address) (pure address) change).run s₂ := by
  rw [updateCell, run_bind_of_ok first, bind_assoc, run_bind_of_ok second]
  rfl

theorem run_constrainCell_of_same (first : target.run s = .ok (address, s₁))
    (valued : value.run s₁ = .ok (v, s₂))
    (second : source.run (s₂.storing address v) = .ok (address, s₃)) :
    (constrainCell target source value).run s = .ok (v, s₃.demanding v (s₃.memory address)) := by
  have stored : (store address v).run s₂ = .ok ((), s₂.storing address v) := rfl
  rw [constrainCell, run_bind_of_ok first, run_bind_of_ok valued, run_bind_of_ok stored, bind_assoc,
    run_bind_of_ok second]
  rfl

end Eval

open Eval (inOrder updateCell constrainCell)

namespace Machine

/-- The results of the field operations that updates perform. -/
def sum (machine : Machine) (x y : Nat) : Except EvalError Nat :=
  BigIntOp.mod.apply (x + y) machine.field.prime

def product (machine : Machine) (x y : Nat) : Except EvalError Nat :=
  BigIntOp.mod.apply (x * y) machine.field.prime

def difference (machine : Machine) (x y : Nat) : Except EvalError Nat := do
  let n ← BigIntOp.sub.apply (x + machine.field.prime) y
  BigIntOp.mod.apply n machine.field.prime

end Machine

/-- What an operator does that updates its target in place, given how the cells to store in and to read
are found and the code of the operands behind the target. -/
def Operator.evalInPlace (machine : Machine) (target source : Eval Address) :
    Operator → List Expr → Option (Eval Datum)
  | .addAssign, [b] => some <| updateCell target source fun current =>
    inOrder (Eval.number current) (b.evalNumber machine) machine.sum
  | .mulAssign, [b] => some <| updateCell target source fun current =>
    inOrder (Eval.number current) (b.evalNumber machine) machine.product
  | .preIncrement, [] => some <| updateCell target source fun current =>
    inOrder (Eval.number current) (pure 1) machine.sum
  | .postIncrement, [] => some do
    let v ← updateCell target source fun current =>
      inOrder (Eval.number current) (pure 1) machine.sum
    inOrder (Eval.number v) (pure 1) machine.difference
  | .constrainedAssign, [b] => some (constrainCell target source (b.eval machine))
  | _, _ => none

/-- From a state in which the first search for the cell of a target ends with an address, an operator
updates the cell at this address, provided that the second search ends with it, too. -/
structure Operator.UpdatesAt (op : Operator) (machine : Machine) (source : Eval Address)
    (es : List Expr) (run : Eval Datum) (address : Address) (s s₁ : Machine.State) : Prop where
  update : op.updates = true → ∀ s₂, source.run s₁ = .ok (address, s₂) →
    ∃ once, op.evalInPlace machine (pure address) (pure address) es = some once ∧
      run.run s = once.run s₂
  constraint : op = .constrainedAssign → ∀ b v s₂ s₃, es = [b] →
    (b.eval machine).run s₁ = .ok (v, s₂) → source.run (s₂.storing address v) = .ok (address, s₃) →
      run.run s = .ok (v, s₃.demanding v (s₃.memory address))

theorem Operator.updatesAt_of_evalInPlace {machine : Machine} {target source : Eval Address}
    {op : Operator} {es : List Expr} {run : Eval Datum} {address : Address} {s s₁ : Machine.State}
    (inPlace : op.evalInPlace machine target source es = some run)
    (first : target.run s = .ok (address, s₁)) :
    op.UpdatesAt machine source es run address s s₁ where
  update updates s₂ second := by
    have same := Eval.run_updateCell_of_same first second
    unfold Operator.evalInPlace at inPlace
    split at inPlace
    case h_1 | h_2 | h_3 =>
      cases inPlace
      exact ⟨_, rfl, same _⟩
    case h_4 =>
      cases inPlace
      exact ⟨_, rfl, Eval.run_bind_congr (same _) _⟩
    case h_5 => cases updates
    case h_6 => cases inPlace
  constraint := by
    rintro rfl b v s₂ s₃ rfl valued second
    cases inPlace
    exact Eval.run_constrainCell_of_same first valued second

/-! ### The code of updates -/

namespace Expr

variable {machine : Machine} {cell cell' : Cell} {a b : Expr}

theorem evalNumber_get : (Expr.get cell).evalNumber machine =
    (cell.address machine >>= Eval.load) >>= Eval.number := by
  rw [evalNumber, eval]

theorem eval_set_of_change {change : Datum → Eval Datum}
    (changed : a.eval machine = (cell'.address machine >>= Eval.load) >>= change) :
    (Expr.set cell a).eval machine =
      updateCell (cell.address machine) (cell'.address machine) change := by
  rw [eval, changed, updateCell]
  simp only [bind_assoc]

theorem eval_set_add : (Expr.set cell (Arithmetic.add (.get cell') b)).eval machine =
    updateCell (cell.address machine) (cell'.address machine) fun current =>
      inOrder (Eval.number current) (b.evalNumber machine) machine.sum := by
  apply eval_set_of_change
  rw [Arithmetic.eval_add, evalNumber_get, Eval.inOrder_bind_number]
  rfl

theorem eval_set_mul : (Expr.set cell (Arithmetic.mul (.get cell') b)).eval machine =
    updateCell (cell.address machine) (cell'.address machine) fun current =>
      inOrder (Eval.number current) (b.evalNumber machine) machine.product := by
  apply eval_set_of_change
  rw [Arithmetic.eval_mul, evalNumber_get, Eval.inOrder_bind_number]
  rfl

theorem eval_set_increment : (Expr.set cell (Arithmetic.increment (.get cell'))).eval machine =
    updateCell (cell.address machine) (cell'.address machine) fun current =>
      inOrder (Eval.number current) (pure 1) machine.sum := by
  rw [Arithmetic.increment, eval_set_add, Arithmetic.evalNumber_ofNat]

theorem eval_previousValue : (Arithmetic.previousValue a).eval machine =
    a.eval machine >>= fun v => inOrder (Eval.number v) (pure 1) machine.difference := by
  rw [Arithmetic.previousValue, Arithmetic.eval_sub, Arithmetic.evalNumber_ofNat, evalNumber,
    Eval.inOrder_bind_number]
  rfl

theorem eval_assertEqual_set : (Expr.assertEqual (.set cell b) (.get cell')).eval machine =
    constrainCell (cell.address machine) (cell'.address machine) (b.eval machine) := by
  rw [eval, eval, eval, constrainCell]
  simp only [bind_assoc, pure_bind]

end Expr

/-! ### Operators that update in place -/

theorem Operand.readBack_of_isReference {n : Node} (reference : n.isReference = true) :
    readBack n.operand = n.lowerValue := by
  cases n
  case var | pin => rfl
  all_goals cases reference

theorem Node.exists_evalInPlace_of_lower {span : Span} {symbol : String} {op : Operator} {target : Node}
    {values : List Node} {ctx ctx' : Context} {e : Expr}
    (known : Operator.ofSymbol? symbol = some op)
    (inPlace : op.updates = true ∨ op = .constrainedAssign)
    (reference : target.isReference = true)
    (lowered : runFrom ctx (Node.op span symbol (target :: values)).lower =
      (.ok (.expr e), ctx')) :
    ∃ cell cell' es, runFrom ctx (target.lowerTarget span) = (.ok (some cell), ctx) ∧
      runFrom ctx (Node.lowerValues values) = (.ok es, ctx') ∧
      (op = .constrainedAssign → runFrom ctx' target.lowerValue = (.ok (.get cell'), ctx')) ∧
      (op.updates = true ∨ ctx.Agrees target ctx' → cell' = cell) ∧
      ∀ machine, op.evalInPlace machine (cell.address machine) (cell'.address machine) es =
        some (e.eval machine) := by
  have stores : op.stores = true ∧ op ≠ .assign ∧ op ≠ .signalAssign := by
    rcases inPlace with updates | rfl
    · cases op <;> cases updates <;> exact ⟨rfl, nofun, nofun⟩
    · exact ⟨rfl, nofun, nofun⟩
  rw [Node.lower, known] at lowered
  have operates := Operand.operates_of_runFrom lowered
  generalize same : Node.operands (target :: values) = operands at operates
  cases operates with
  | store plain => exact absurd plain (not_or.2 stores.2)
  | constrain => cases stores.1
  | arithmetic _ combined =>
    have plain := Operator.stores_of_isArithmetic (Operator.isArithmetic_of_combine? combined)
    exact absurd stores.1 (by simp [plain])
  | @update _ combine _ _ cell current b _ _ _ updates _ found first second =>
    obtain ⟨m, n, both, rfl, rfl⟩ := Node.eq_of_operands same
    cases both
    -- The target is lowered twice in a row, so it introduces nothing, and its code is the same.
    obtain ⟨rfl, rfl, -, reread⟩ :=
      Node.reread_of_lowerTarget reference found first (List.Subset.refl _)
    obtain rfl : current = .get cell := reread fun _ _ _ _ => rfl
    refine ⟨cell, cell, [b], found, ?_, ?_, fun _ => rfl, fun machine => ?_⟩
    · exact runFrom_lowerValues_cons_eq_ok.2 ⟨b, _, [], runFrom_valueOf_eq_ok.1 second, rfl, rfl⟩
    · rintro rfl
      cases updates
    · cases op <;> cases updates
      · exact congrArg some Expr.eval_set_add.symm
      · exact congrArg some Expr.eval_set_mul.symm
  | @increment post _ cell current _ _ _ found read =>
    obtain ⟨m, single, rfl⟩ := Node.eq_of_operands_singleton same
    cases single
    obtain ⟨rfl, rfl, -, reread⟩ :=
      Node.reread_of_lowerTarget reference found read (List.Subset.refl _)
    obtain rfl : current = .get cell := reread fun _ _ _ _ => rfl
    refine ⟨cell, cell, [], found, rfl, ?_, fun _ => rfl, fun machine => ?_⟩
    · cases post <;> nofun
    · cases post
      · exact congrArg some Expr.eval_set_increment.symm
      · refine congrArg some ?_
        rw [if_pos rfl, Expr.eval_previousValue, Expr.eval_set_increment]
  | @constrainedStore _ _ cell b back ctx₁ ctx₂ _ found second read =>
    obtain ⟨m, n, both, rfl, rfl⟩ := Node.eq_of_operands same
    cases both
    have kept := (Node.repeats_of_expr n .self (runFrom_valueOf_eq_ok.1 second)).declares.grows
    have again : runFrom ctx₂ target.lowerValue = (.ok back, ctx') := by
      rw [← Operand.readBack_of_isReference reference]
      exact read
    obtain ⟨rfl, rfl, ⟨cell', rfl⟩, reread⟩ := Node.reread_of_lowerTarget reference found again kept
    refine ⟨cell, cell', [b], found, ?_, fun _ => again, ?_, fun machine => ?_⟩
    · exact runFrom_lowerValues_cons_eq_ok.2 ⟨b, _, [], runFrom_valueOf_eq_ok.1 second, rfl, rfl⟩
    · rintro (updates | agrees)
      · cases updates
      · cases reread agrees
        rfl
    · exact congrArg some Expr.eval_assertEqual_set.symm

/-- An operator that updates a reference in place evaluates the indices of the reference twice, once
for the cell that it stores in and once for the cell that it reads. For `+=`, `*=` and the increments
both are the cell of the same code, one right after the other; `<==` reads the cell after the value was
stored, and by the same code if the value leaves the names in the reference what they are. If both
times the same cell is found, this is the cell that is updated. -/
theorem Node.eval_of_updatesInPlace {span : Span} {symbol : String} {op : Operator} {target : Node}
    {values : List Node} {ctx ctx' : Context} {e : Expr}
    (known : Operator.ofSymbol? symbol = some op)
    (inPlace : op.updates = true ∨ op = .constrainedAssign)
    (reference : target.isReference = true)
    (lowered : runFrom ctx (Node.op span symbol (target :: values)).lower =
      (.ok (.expr e), ctx')) :
    ∃ cell cell' es, runFrom ctx (target.lowerTarget span) = (.ok (some cell), ctx) ∧
      runFrom ctx (Node.lowerValues values) = (.ok es, ctx') ∧
      (op = .constrainedAssign → runFrom ctx' target.lowerValue = (.ok (.get cell'), ctx')) ∧
      (op.updates = true ∨ ctx.Agrees target ctx' → cell' = cell) ∧
      ∀ machine, op.evalInPlace machine (cell.address machine) (cell'.address machine) es =
          some (e.eval machine) ∧
        ∀ s address s₁, (cell.address machine).run s = .ok (address, s₁) →
          op.UpdatesAt machine (cell'.address machine) es (e.eval machine) address s s₁ := by
  obtain ⟨cell, cell', es, found, valued, read, same, evaluated⟩ :=
    exists_evalInPlace_of_lower known inPlace reference lowered
  exact ⟨cell, cell', es, found, valued, read, same, fun machine => ⟨evaluated machine,
    fun _ _ _ first => Operator.updatesAt_of_evalInPlace (evaluated machine) first⟩⟩

/-- The value of `x <== (var x = 3)` hides the signal that is stored to behind a variable. -/
example :
    let x : Node := .var .unknown "x" []
    let value : Node := .op .unknown "=" [.declare .unknown "VARIABLE" x, .number .unknown 3]
    let outer : Table := (∅ : Table).insert "x" ⟨.signal, .unknown⟩
    let ctx : Context := { Context.empty with scope := ⟨[∅], outer⟩ }
    (runFrom ctx (Node.op .unknown "<==" [x, value]).lower).1 =
      .ok (.expr (.assertEqual (.set (.signal "x" []) (.set (.var "x" []) (.ofNat 3)))
        (.get (.var "x" [])))) := rfl

/-- The operation `x[selector] += 1`. -/
def Node.countedAt (selector : Node) : Node :=
  .op .unknown "+=" [.var .unknown "x" [selector], .number .unknown 1]

theorem Node.eval_of_updatesInPlace_countedAt :
    let i : Node := .var .unknown "i" []
    let s : Machine.State := ⟨Memory.empty.write (.var "i" []) (.number 2), []⟩
    ∃ e cell once, runFrom .twoVariables (countedAt i).lower = (.ok (.expr e), .twoVariables) ∧
      runFrom .twoVariables ((Node.var .unknown "x" [i]).lowerTarget .unknown) =
        (.ok (some cell), .twoVariables) ∧
      (cell.address (.ofField .bn254)).run s = .ok (.var "x" [2], s) ∧
      Operator.addAssign.evalInPlace (.ofField .bn254) (pure (.var "x" [2])) (pure (.var "x" [2]))
        [.ofNat 1] = some once ∧
      (e.eval (.ofField .bn254)).run s = once.run s := by
  intro i s
  obtain ⟨e, lowered⟩ : ∃ e, runFrom .twoVariables (countedAt i).lower =
      (.ok (.expr e), .twoVariables) := ⟨_, rfl⟩
  obtain ⟨cell, cell', es, found, valued, -, same, evaluated⟩ :=
    eval_of_updatesInPlace rfl (.inl rfl) rfl lowered
  cases found
  cases valued
  cases same (.inl rfl)
  obtain ⟨once, inPlace, runs⟩ := ((evaluated (.ofField .bn254)).2 s _ _ rfl).update rfl s rfl
  exact ⟨e, _, once, lowered, rfl, rfl, inPlace, runs⟩

/-- The update `x[i++] += 1` counts `i` up twice and stores the successor of `x[1]` in `x[0]`. -/
theorem Node.not_updates_once_of_countedAt :
    let i : Node := .op .unknown "PLUSPLUSRIGHT" [.var .unknown "i" []]
    let x (index : Nat) : Address := .var "x" [index]
    let s : Machine.State :=
      ⟨(Memory.empty.write (x 0) (.number 5)).write (x 1) (.number 7), []⟩
    let counts (n : Nat) : Effect := .store (.var "i" []) (.number n)
    let once (cell : Cell) : Eval Datum := do
      let address ← cell.address (.ofField .bn254)
      updateCell (pure address) (pure address) fun current =>
        inOrder (Eval.number current) (pure 1) (Machine.ofField .bn254).sum
    ∃ e cell s' s'', runFrom .twoVariables (countedAt i).lower =
        (.ok (.expr e), .twoVariables) ∧
      runFrom .twoVariables ((Node.var .unknown "x" [i]).lowerTarget .unknown) =
        (.ok (some cell), .twoVariables) ∧
      (e.eval (.ofField .bn254)).Performs s [counts 1, counts 2, .store (x 0) (.number 8)]
        (.number 8) s' ∧
      (once cell).Performs s [counts 1, .store (x 0) (.number 6)] (.number 6) s'' ∧
      (e.eval (.ofField .bn254)).run s ≠ (once cell).run s := by
  intro i x s counts once
  refine ⟨_, _, _, _, rfl, rfl, ⟨rfl, rfl⟩, ⟨rfl, rfl⟩, ?_⟩
  intro same
  have values : (8 : Nat) = 6 := Datum.number.inj (Prod.mk.inj (Except.ok.inj same)).1
  omega

end ArithCircuit
