import ArithCircuit.Proofs.Expansions

set_option autoImplicit false
set_option relaxedAutoImplicit false

/-!
# Stores that are demanded

`<==` evaluates its value, stores it and demands that the cell, read back, holds it. The cell to read is
searched for after the store, so the demand is about the value on both sides only if the store does not
lead the second search elsewhere. Main statement: `Node.performs_constrainedAssign_iff`.
-/

namespace ArithCircuit

open Lowering

/-! ### One cell before and after a store -/

namespace Eval

/-- From a state, a search for a cell has no effects and ends with the same address before a value is
computed and after the value was stored at this address. -/
structure Steady (search : Eval Address) (value : Eval Datum) (s : Machine.State)
    (address : Address) : Prop where
  before : search.run s = .ok (address, s)
  after : ∀ v s₁, value.run s = .ok (v, s₁) →
    search.run (s₁.storing address v) = .ok (address, s₁.storing address v)

variable {search : Eval Address} {value : Eval Datum} {s s' : Machine.State} {address : Address}
  {effects : List Effect} {w : Datum}

/-- The effects are those of the value, then one store and one demand. -/
theorem performs_constrainCell_iff (steady : search.Steady value s address) (appends : value.Appends) :
    (constrainCell search search value).Performs s effects w s' ↔
      ∃ own s₁, value.Performs s own w s₁ ∧
        effects = own ++ [.store address w, .equality w w] ∧
        s' = (s₁.storing address w).demanding w w := by
  have whole : ∀ v s₁, value.run s = .ok (v, s₁) → (constrainCell search search value).run s =
      .ok (v, (s₁.storing address v).demanding v v) := by
    intro v s₁ valued
    rw [run_constrainCell_of_same steady.before valued (steady.after v s₁ valued),
      Machine.State.memory_storing_self]
  constructor
  · rintro ⟨ran, added⟩
    have rest := ran
    rw [constrainCell, run_bind_of_ok steady.before] at rest
    obtain ⟨v, s₁, valued, -⟩ := run_bind_eq_ok.1 rest
    cases (whole v s₁ valued).symm.trans ran
    obtain ⟨own, performed⟩ := appends s w s₁ valued
    refine ⟨own, s₁, performed, List.append_cancel_left (added.symm.trans ?_), rfl⟩
    simp [performed.2]
  · rintro ⟨own, s₁, ⟨valued, added⟩, rfl, rfl⟩
    refine ⟨whole w s₁ valued, ?_⟩
    simp [added]

end Eval

/-! ### Targets that are read back -/

section

variable {ctx ctx₁ ctx' : Context} {span : Span} {target value : Node} {cell : Cell}

/-- Right after the cell of a target was found, the target is read back from this cell. Only a declared
target leaves another context. -/
theorem Node.readBack_of_lowerTarget {back : Expr}
    (found : runFrom ctx (target.lowerTarget span) = (.ok (some cell), ctx₁))
    (read : runFrom ctx₁ (Operand.readBack target.operand) = (.ok back, ctx')) :
    ctx' = ctx₁ ∧ back = .get cell ∧ (target.isReference = true → ctx₁ = ctx) := by
  have reference (refers : target.isReference = true) :
      ctx' = ctx₁ ∧ back = .get cell ∧ (target.isReference = true → ctx₁ = ctx) := by
    rw [Operand.readBack_of_isReference refers] at read
    obtain ⟨rfl, rfl, -, same⟩ := Node.reread_of_lowerTarget refers found read (List.Subset.refl _)
    exact ⟨rfl, same fun _ _ _ _ => rfl, fun _ => rfl⟩
  cases target
  case var | pin => exact reference rfl
  case declare place tag name =>
    simp only [Node.lowerTarget, runFrom_bind_eq_ok, runFrom_resolve_eq_ok,
      runFrom_targetOf_some_eq_ok] at found
    obtain ⟨_, _, declared, symbol, _, ⟨stands, rfl⟩, cells, rfl⟩ := found
    obtain ⟨kind, at', dimensions, -, rfl, -⟩ := runFrom_declareNode_eq_ok.1 declared
    simp only [Operand.readBack, Node.operand, readName, runFrom_bind_eq_ok, runFrom_resolve_eq_ok,
      runFrom_map_eq_ok, runFrom_cellOf_eq_ok] at read
    obtain ⟨symbol', _, ⟨stands', rfl⟩, cell', ⟨cells', rfl⟩, rfl⟩ := read
    cases stands.symm.trans stands'
    cases cells.symm.trans cells'
    exact ⟨rfl, rfl, fun refers => by cases refers⟩
  all_goals
    rw [Node.lowerTarget] at found
    · exact absurd found runFrom_throw_ne_ok
    all_goals simp

/-- The cell of a declared name has no indices. -/
theorem Node.exists_address_of_declare (declares : target.kind = .declare)
    (found : runFrom ctx (target.lowerTarget span) = (.ok (some cell), ctx₁)) :
    ∃ address, ∀ machine s, (cell.address machine).run s = .ok (address, s) := by
  cases target <;> cases declares
  case declare place tag name =>
    simp only [Node.lowerTarget, runFrom_bind_eq_ok, runFrom_targetOf_some_eq_ok] at found
    obtain ⟨name, _, -, symbol, _, -, cells, -⟩ := found
    cases kind : symbol.kind <;> rw [kind] at cells <;> cases cells
    · exact ⟨.var name [], fun _ _ => rfl⟩
    · exact ⟨.signal name [], fun _ _ => rfl⟩

/-! ### The operator -/

/-- Apart from its target, `<==` is its value, lowered where the name of a declared target is known. -/
theorem Node.exists_cell_of_constrainedAssign {fragment : Fragment}
    (plain : ∀ n, value.Contains n → n.kind ≠ .declare)
    (lowered : runFrom ctx (Node.op span "<==" [target, value]).lower = (.ok fragment, ctx')) :
    ∃ cell b, runFrom ctx (target.lowerTarget span) = (.ok (some cell), ctx') ∧
      runFrom ctx' value.lowerValue = (.ok b, ctx') ∧ (target.isReference = true → ctx' = ctx) ∧
      fragment = .expr (.assertEqual (.set cell b) (.get cell)) := by
  rw [Node.lower_constrainedStore] at lowered
  obtain ⟨stored, ctx₂, storing, rest⟩ := runFrom_bind_eq_ok.1 lowered
  rcases Operand.runFrom_store_eq_ok.1 storing with ⟨-, rfl⟩ | ⟨cell, b, ctx₁, found, valued, rfl⟩
  · exact absurd rest runFrom_throw_ne_ok
  · simp only [Option.elim_some, runFrom_bind_eq_ok, runFrom_pure_eq_ok] at rest
    obtain ⟨back, _, read, rfl, rfl⟩ := rest
    have asExpr := runFrom_valueOf_eq_ok.1 valued
    -- The value declares nothing, so the target is read back where its cell was found.
    obtain rfl : ctx₂ = ctx₁ := Node.keeps_of_expr (Context.frameOf_eq plain) value .self asExpr
    obtain ⟨rfl, rfl, unchanged⟩ := Node.readBack_of_lowerTarget found read
    exact ⟨cell, b, found, valued, unchanged, rfl⟩

/-- Where a value declares nothing, `<==` performs the effects of the value, then one store of the value
and one demand with the value on both sides, and yields the value, which the cell of the target then
holds. The selectors of a target have to lead to the same cell before the value is evaluated and after
it was stored, without effects; the name of a declared target always does. -/
theorem Node.performs_constrainedAssign_iff {fragment : Fragment}
    (plain : ∀ n, value.Contains n → n.kind ≠ .declare)
    (lowered : runFrom ctx (Node.op span "<==" [target, value]).lower = (.ok fragment, ctx')) :
    ∃ e cell b, fragment = .expr e ∧
      runFrom ctx (target.lowerTarget span) = (.ok (some cell), ctx') ∧
      runFrom ctx' value.lowerValue = (.ok b, ctx') ∧ (target.isReference = true → ctx' = ctx) ∧
      (target.kind = .declare → ∀ machine s, ∃ address,
        (cell.address machine).Steady (b.eval machine) s address) ∧
      ∀ machine s address, (cell.address machine).Steady (b.eval machine) s address →
        ∀ effects w s', (e.eval machine).Performs s effects w s' ↔
          ∃ own s₁, (b.eval machine).Performs s own w s₁ ∧
            effects = own ++ [.store address w, .equality w w] ∧
            s' = (s₁.storing address w).demanding w w ∧ s'.memory address = w := by
  obtain ⟨cell, b, found, valued, unchanged, rfl⟩ :=
    Node.exists_cell_of_constrainedAssign plain lowered
  refine ⟨_, cell, b, rfl, found, valued, unchanged, fun declares machine s => ?_, ?_⟩
  · obtain ⟨address, search⟩ := Node.exists_address_of_declare declares found
    exact ⟨address, search machine s, fun _ _ _ => search machine _⟩
  · intro machine s address steady effects w s'
    rw [Expr.eval_assertEqual_set,
      Eval.performs_constrainCell_iff steady (Expr.appends_eval machine b)]
    refine exists_congr fun own => exists_congr fun s₁ => and_congr_right fun _ =>
      and_congr_right fun _ => (and_iff_left_of_imp ?_).symm
    rintro rfl
    exact Machine.State.memory_storing_self s₁ address w

/-- The value of `x[i] <== x[i]++` stores in the cell of the target, and still the old value is stored
last and demanded. -/
theorem Node.performs_constrainedAssign_counted :
    let x : Node := .var .unknown "x" [.var .unknown "i" []]
    let value : Node := .op .unknown "PLUSPLUSRIGHT" [x]
    let address : Address := .var "x" [2]
    let s : Machine.State :=
      ⟨(Memory.empty.write (.var "i" []) (.number 2)).write address (.number 5), []⟩
    (∀ n, value.Contains n → n.kind ≠ .declare) ∧
      ∃ e s', runFrom .twoVariables (Node.op .unknown "<==" [x, value]).lower =
          (.ok (.expr e), .twoVariables) ∧
        (e.eval (.ofField ⟨7, 7⟩)).Performs s [.store address (.number 6), .store address (.number 5),
          .equality (.number 5) (.number 5)] (.number 5) s' ∧
        s'.memory address = .number 5 := by
  intro x value address s
  have plain : ∀ n, value.Contains n → n.kind ≠ .declare := by
    refine Node.forall_contains (by decide) fun m member => ?_
    cases List.mem_singleton.1 member
    refine Node.forall_contains (by decide) fun m member => ?_
    cases List.mem_singleton.1 member
    exact Node.forall_contains (by decide) nofun
  obtain ⟨e, lowered⟩ : ∃ e, runFrom .twoVariables (Node.op .unknown "<==" [x, value]).lower =
      (.ok (.expr e), .twoVariables) := ⟨_, rfl⟩
  obtain ⟨_, cell, b, same, found, valued, -, -, performs⟩ :=
    performs_constrainedAssign_iff plain lowered
  cases same
  cases found
  cases valued
  have performed := (performs (.ofField ⟨7, 7⟩) s address
    ⟨rfl, fun v s₁ ran => by cases ran; rfl⟩ _ _ _).2
      ⟨[.store address (.number 6)], _, ⟨rfl, rfl⟩, rfl, rfl, rfl⟩
  exact ⟨plain, e, _, lowered, performed, rfl⟩

/-- For `x[x[0]] <== 5` the same cell `x[0]` is found before and after the value is evaluated, but once
5 was stored there, the cell to read is `x[5]`: the code demands that 5 is 7. -/
theorem Node.not_performs_equality_of_constrainedAssign :
    let x (index : Nat) : Address := .var "x" [index]
    let target : Node := .var .unknown "x" [.var .unknown "x" [.number .unknown 0]]
    let value : Node := .number .unknown 5
    let s : Machine.State :=
      ⟨(Memory.empty.write (x 0) (.number 0)).write (x 5) (.number 7), []⟩
    let stored : Effect := .store (x 0) (.number 5)
    ∃ e cell b s', runFrom .twoVariables (Node.op .unknown "<==" [target, value]).lower =
        (.ok (.expr e), .twoVariables) ∧
      runFrom .twoVariables (target.lowerTarget .unknown) = (.ok (some cell), .twoVariables) ∧
      runFrom .twoVariables value.lowerValue = (.ok b, .twoVariables) ∧
      (cell.address (.ofField .bn254)).run s = .ok (x 0, s) ∧
      (b.eval (.ofField .bn254)).Performs s [] (.number 5) s ∧
      (e.eval (.ofField .bn254)).Performs s [stored, .equality (.number 5) (.number 7)]
        (.number 5) s' ∧
      ¬ ∃ s'', (e.eval (.ofField .bn254)).Performs s [stored, .equality (.number 5) (.number 5)]
        (.number 5) s'' := by
  intro x target value s stored
  refine ⟨_, _, _, _, rfl, rfl, rfl, rfl, ⟨rfl, rfl⟩, ⟨rfl, rfl⟩, ?_⟩
  rintro ⟨s'', performed⟩
  obtain ⟨-, -, effects⟩ := performed.unique
    (⟨rfl, rfl⟩ : Eval.Performs _ _ [stored, .equality (.number 5) (.number 7)] _ _)
  simp at effects

end

end ArithCircuit
