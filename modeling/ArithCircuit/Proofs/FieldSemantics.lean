import ArithCircuit.Proofs.Evaluation

set_option autoImplicit false
set_option relaxedAutoImplicit false

/-!
# Lowered arithmetic means what its source means

Arithmetic nodes are built from literals, references and the operators that compute a value. Lowering
one touches no context, and the code yields the value that the table of the operators assigns to the
node. All values that occur stay in any set of numbers that is closed under the operators and goes no
further than the modulus; if the mask is below the modulus, so are all values.
-/

namespace ArithCircuit

open Lowering

mutual

/-- Whether a node is made of literals below a bound, references and operators that compute a value.
-/
def Node.isArithmetic (bound : Nat) : Node → Bool
  | .number _ n => n < bound
  | .var _ _ selectors => Node.allArithmetic bound selectors
  | .pin _ _ componentSelectors _ selectors =>
    Node.allArithmetic bound componentSelectors && Node.allArithmetic bound selectors
  | .op _ symbol operands =>
    (Operator.ofSymbol? symbol).any Operator.isArithmetic && Node.allArithmetic bound operands
  | _ => false

/-- Whether all nodes are arithmetic. -/
def Node.allArithmetic (bound : Nat) : List Node → Bool
  | [] => true
  | n :: ns => n.isArithmetic bound && Node.allArithmetic bound ns

end

/-- The memory whose cells all hold numbers. -/
def Memory.ofNumbers (contents : Address → Nat) : Memory := fun address => .number (contents address)

/-- What references stand for in a scope, given the contents of all cells. -/
def Scope.environment (scope : Scope) (contents : Address → Nat) : Environment where
  named name indices :=
    if (scope.lookup? name).map Symbol.kind = some .signal then contents (.signal name indices)
    else contents (.var name indices)
  pin component componentIndices pin indices :=
    contents (.pin component componentIndices pin indices)

/-- A set of numbers that the arithmetic of a field does not leave. Results of the field operators
are below the modulus; bitwise results are bounded by the mask alone. -/
structure Field.Closed (field : Field) (V : Nat → Prop) : Prop where
  residue : ∀ {x}, x < field.prime → V x
  bitAnd : ∀ {x y}, V x → V y → V (x &&& y &&& field.mask)
  shl : ∀ {x y}, V x → V y → y ≤ 256 → V (x <<< y &&& field.mask)
  shr : ∀ {x y}, V x → V y → y ≤ 256 → V (x >>> y &&& field.mask)

/-- If the mask is below the modulus, the numbers below the modulus are such a set. -/
theorem Field.closed_lt_prime {field : Field} (masked : field.mask < field.prime) :
    field.Closed (· < field.prime) where
  residue := id
  bitAnd _ _ := Nat.lt_of_le_of_lt Nat.and_le_right masked
  shl _ _ _ := Nat.lt_of_le_of_lt Nat.and_le_right masked
  shr _ _ _ := Nat.lt_of_le_of_lt Nat.and_le_right masked

namespace Operator

variable {field : Field} {V : Nat → Prop}

/-- What an operator makes of numbers in a closed set is in the set. -/
theorem value?_closed (closed : field.Closed V) (large : 1 < field.prime) {op : Operator}
    {vs : List Nat} {v : Nat} (each : ∀ x ∈ vs, V x) (result : op.value? field vs = some v) :
    V v := by
  have positive : 0 < field.prime := by omega
  have truth (p : Prop) [Decidable p] : V (if p then 1 else 0) := by
    apply closed.residue
    split <;> omega
  unfold value? at result
  split at result <;> cases result
  case h_1 | h_2 | h_3 | h_4 | h_5 => exact closed.residue (Nat.mod_lt _ positive)
  case h_6 x y => exact closed.bitAnd (each x (by simp)) (each y (by simp))
  case h_7 x y =>
    split
    · exact closed.residue positive
    · exact closed.shl (each x (by simp)) (each y (by simp)) (by omega)
  case h_8 x y =>
    split
    · exact closed.residue positive
    · exact closed.shr (each x (by simp)) (each y (by simp)) (by omega)
  case h_9 x y => exact truth _
  case h_10 x y => exact truth _
  case h_11 c x y =>
    split
    · exact each y (by simp)
    · exact each x (by simp)

end Operator

/-- An operation of an operator that computes a value combines the values of its operands. -/
theorem Operand.Operates.eq_combine {span : Span} {ctx ctx' : Context} {op : Operator}
    {operands : List Operand} {fragment : Fragment}
    (h : Operates span ctx op operands fragment ctx') (arithmetic : op.isArithmetic = true) :
    ∃ es e, runFrom ctx (Operand.values operands) = (.ok es, ctx') ∧ op.combine? es = some e ∧
      fragment = .expr e := by
  cases h with
  | store plain => rcases plain with rfl | rfl <;> cases arithmetic
  | storeComponent plain => rcases plain with rfl | rfl <;> cases arithmetic
  | update updates => cases op <;> cases updates <;> cases arithmetic
  | updateComponent updates => cases op <;> cases updates <;> cases arithmetic
  | increment => split at arithmetic <;> cases arithmetic
  | constrainedStore => cases arithmetic
  | constrain => cases arithmetic
  | arithmetic lowered combined => exact ⟨_, _, lowered, combined, rfl⟩

section

variable {machine : Machine} {V : Nat → Prop} {contents : Address → Nat}

/-- The cell of a name holds what the name stands for in its scope. -/
theorem SymbolKind.finds_of_cell? (contents : Address → Nat) {memory : Memory} {scope : Scope}
    {name : String} {symbol : Symbol} {es : List Expr} {vs : List Nat} {cell : Cell}
    (found : scope.lookup? name = some symbol) (stands : symbol.kind.cell? name es = some cell)
    (each : List.Forall₂ (Expr.Yields machine memory) es vs) :
    ∃ address, cell.Finds machine memory address ∧
      contents address = (scope.environment contents).named name vs := by
  obtain ⟨kind, span⟩ := symbol
  cases kind <;> cases stands
  case var => exact ⟨_, Cell.finds_var name each, by simp [Scope.environment, found]⟩
  case signal => exact ⟨_, Cell.finds_signal name each, by simp [Scope.environment, found]⟩

mutual

/-- Lowering an arithmetic node leaves the context as it is, and the code yields the value of the
node, which is in every closed set that holds the contents of the memory and does not go beyond the
modulus. -/
theorem Node.yields_of_isArithmetic (closed : machine.field.Closed V)
    (large : 1 < machine.field.prime) (fits : ∀ v, V v → v ≤ machine.field.prime)
    (held : ∀ address, V (contents address)) {ctx ctx' : Context} {fragment : Fragment} :
    (n : Node) → n.isArithmetic machine.field.prime = true →
      runFrom ctx n.lower = (.ok fragment, ctx') →
      ctx' = ctx ∧ ∃ e v, fragment = .expr e ∧ V v ∧
        n.value? machine.field (ctx.scope.environment contents) = some v ∧
        e.Yields machine (Memory.ofNumbers contents) v
  | .number _ n, arithmetic, h => by
    rw [Node.lower] at h
    obtain ⟨rfl, rfl⟩ := runFrom_pure_eq_ok.1 h
    have below : n < machine.field.prime := by simpa [Node.isArithmetic] using arithmetic
    exact ⟨rfl, _, n, rfl, closed.residue below, rfl, fun _ => Expr.gives_ofNat n⟩
  | .var span name selectors, arithmetic, h => by
    simp only [Node.lower, runFrom_bind_eq_ok, runFrom_resolve_eq_ok, runFrom_cellOf_eq_ok,
      runFrom_pure_eq_ok] at h
    obtain ⟨symbol, _, ⟨found, rfl⟩, es, ctx₁, lowered, cell, _, ⟨stands, rfl⟩, rfl, rfl⟩ := h
    obtain ⟨rfl, vs, -, meaning, each⟩ :=
      Node.yields_of_allArithmetic closed large fits held selectors arithmetic lowered
    obtain ⟨address, finds, named⟩ :=
      SymbolKind.finds_of_cell? contents found stands each
    refine ⟨rfl, _, contents address, rfl, held address, ?_, finds.yields_get rfl⟩
    rw [Node.value?, meaning, named]
    rfl
  | .pin span component componentSelectors name selectors, arithmetic, h => by
    simp only [Node.isArithmetic, Bool.and_eq_true] at arithmetic
    simp only [Node.lower, runFrom_bind_eq_ok, runFrom_resolveComponent_eq_ok,
      runFrom_pure_eq_ok] at h
    obtain ⟨_, _, ⟨-, rfl⟩, is, ctx₁, first, es, _, second, rfl, rfl⟩ := h
    obtain ⟨rfl, ws, -, meaning₁, each₁⟩ :=
      Node.yields_of_allArithmetic closed large fits held componentSelectors arithmetic.1 first
    obtain ⟨rfl, vs, -, meaning₂, each₂⟩ :=
      Node.yields_of_allArithmetic closed large fits held selectors arithmetic.2 second
    refine ⟨rfl, _, contents (.pin component ws name vs), rfl, held _, ?_,
      (Cell.finds_pin component name each₁ each₂).yields_get rfl⟩
    rw [Node.value?, meaning₁, meaning₂]
    rfl
  | .op span symbol operands, arithmetic, h => by
    simp only [Node.isArithmetic, Bool.and_eq_true, Option.any_eq_true] at arithmetic
    obtain ⟨⟨op, known, computes⟩, operandsArithmetic⟩ := arithmetic
    simp only [Node.lower, known] at h
    obtain ⟨es, e, lowered, combined, rfl⟩ :=
      (Operand.operates_of_runFrom h).eq_combine computes
    rw [Operand.values_operands] at lowered
    obtain ⟨rfl, vs, inside, meaning, each⟩ :=
      Node.yields_of_allArithmetic closed large fits held operands operandsArithmetic lowered
    obtain ⟨v, result, yields⟩ := Operator.combine?_yields combined (by omega) each
      fun v member => fits v (inside v member)
    refine ⟨rfl, e, v, rfl, Operator.value?_closed closed large inside result, ?_, yields⟩
    rw [Node.value?, known, meaning]
    exact result
  | .declare .., arithmetic, _ | .call .., arithmetic, _ | .block .., arithmetic, _
  | .forLoop .., arithmetic, _ | .whileLoop .., arithmetic, _ | .ret .., arithmetic, _
  | .template .., arithmetic, _ | .function .., arithmetic, _ | .inclusion .., arithmetic, _
  | .array .., arithmetic, _ => by simp [Node.isArithmetic] at arithmetic

/-- The same for nodes that are lowered as values one after the other. -/
theorem Node.yields_of_allArithmetic (closed : machine.field.Closed V)
    (large : 1 < machine.field.prime) (fits : ∀ v, V v → v ≤ machine.field.prime)
    (held : ∀ address, V (contents address)) {ctx ctx' : Context} {es : List Expr} :
    (ns : List Node) → Node.allArithmetic machine.field.prime ns = true →
      runFrom ctx (Node.lowerValues ns) = (.ok es, ctx') →
      ctx' = ctx ∧ ∃ vs, (∀ v ∈ vs, V v) ∧
        Node.values? machine.field (ctx.scope.environment contents) ns = some vs ∧
        List.Forall₂ (Expr.Yields machine (Memory.ofNumbers contents)) es vs
  | [], _, h => by
    rw [Node.lowerValues] at h
    obtain ⟨rfl, rfl⟩ := runFrom_pure_eq_ok.1 h
    exact ⟨rfl, [], by simp, rfl, .nil⟩
  | n :: ns, arithmetic, h => by
    simp only [Node.allArithmetic, Bool.and_eq_true] at arithmetic
    obtain ⟨e, ctx₁, rest, first, last, rfl⟩ := runFrom_lowerValues_cons_eq_ok.1 h
    obtain ⟨rfl, _, v, same, inside, meaning, yields⟩ :=
      Node.yields_of_isArithmetic closed large fits held n arithmetic.1 first
    cases same
    obtain ⟨rfl, vs, allInside, meanings, each⟩ :=
      Node.yields_of_allArithmetic closed large fits held ns arithmetic.2 last
    refine ⟨rfl, v :: vs, ?_, ?_, .cons yields each⟩
    · simpa using ⟨inside, allInside⟩
    · rw [Node.values?, meaning, meanings]
      rfl

end

end

/-- Lowered arithmetic keeps its meaning: in a field whose mask is below its modulus, over cells that
all hold numbers below the modulus, the code of an arithmetic node evaluates without failure and
without effect to the value of the node, which is below the modulus again. -/
theorem Node.eval_lowerValue (machine : Machine) (large : 1 < machine.field.prime)
    (masked : machine.field.mask < machine.field.prime) (n : Node)
    (arithmetic : n.isArithmetic machine.field.prime = true) {ctx ctx' : Context} {e : Expr}
    (lowered : runFrom ctx n.lowerValue = (.ok e, ctx')) (contents : Address → Nat)
    (bounded : ∀ address, contents address < machine.field.prime) (effects : List Effect) :
    ∃ v, v < machine.field.prime ∧
      n.value? machine.field (ctx.scope.environment contents) = some v ∧
      (e.eval machine).run ⟨.ofNumbers contents, effects⟩ =
        .ok (.number v, ⟨.ofNumbers contents, effects⟩) := by
  obtain ⟨-, _, v, same, below, meaning, yields⟩ :=
    Node.yields_of_isArithmetic (Field.closed_lt_prime masked) large (fun _ => Nat.le_of_lt) bounded
      n arithmetic (runFrom_valueOf_eq_ok.1 lowered)
  cases same
  exact ⟨v, below, meaning, yields effects⟩

/-- A context that knows a variable, a signal and a component. -/
def Context.ofNames : Context :=
  { Context.empty with
    scope := ⟨[], .ofList [("x", ⟨.var, .unknown⟩), ("s", ⟨.signal, .unknown⟩),
      ("c", ⟨.component, .unknown⟩)]⟩ }

/-- `x[1] - (s << 3) ? -(x[1] & c.out[s]) : x ** 90` -/
def Node.mixed : Node :=
  .op .unknown "?"
    [.op .unknown "-" [.var .unknown "x" [.number .unknown 1],
        .op .unknown "<<" [.var .unknown "s" [], .number .unknown 3]],
      .op .unknown "UMINUS" [.op .unknown "&" [.var .unknown "x" [.number .unknown 1],
        .pin .unknown "c" [] "out" [.var .unknown "s" []]]],
      .op .unknown "**" [.var .unknown "x" [], .number .unknown 90]]

theorem Node.eval_lowerValue_mixed :
    ∃ e, runFrom .ofNames Node.mixed.lowerValue = (.ok e, .ofNames) ∧
      (e.eval (.ofField ⟨97, 63⟩)).run ⟨.ofNumbers fun _ => 4, []⟩ =
        .ok (.number 93, ⟨.ofNumbers fun _ => 4, []⟩) := by
  obtain ⟨e, lowered⟩ : ∃ e, runFrom .ofNames Node.mixed.lowerValue = (.ok e, .ofNames) := ⟨_, rfl⟩
  obtain ⟨v, -, meaning, result⟩ := Node.eval_lowerValue (.ofField ⟨97, 63⟩) (by decide) (by decide)
    .mixed (by decide) lowered (fun _ => 4) (fun _ => by decide) []
  have value : v = 93 := Option.some.inj (meaning.symm.trans rfl)
  exact ⟨e, lowered, value ▸ result⟩

end ArithCircuit
