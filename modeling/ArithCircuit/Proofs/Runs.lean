import ArithCircuit.Lowering.Node

set_option autoImplicit false
set_option relaxedAutoImplicit false

/-!
# Lowering steps that succeed

What is known when a step of lowering has succeeded: the steps it is made of, their results and the
contexts between them. `runFrom_bind_eq_ok` takes a sequence of steps apart, and
`Operand.operates_of_runFrom` does so for an operation over its operands.
-/

namespace ArithCircuit

namespace Lowering

variable {α β : Type} {ctx ctx' : Context}

/-- A sequence of two steps succeeds exactly if both steps do, one after the other. -/
theorem runFrom_bind_eq_ok {step : Lowering α} {next : α → Lowering β} {b : β} :
    runFrom ctx (step >>= next) = (.ok b, ctx') ↔
      ∃ a ctx₁, runFrom ctx step = (.ok a, ctx₁) ∧ runFrom ctx₁ (next a) = (.ok b, ctx') := by
  rw [runFrom_bind]
  rcases runFrom ctx step with ⟨_ | a, ctx₁⟩
  · simp
  · simp only [Prod.mk.injEq, Except.ok.injEq, and_assoc, exists_and_left, exists_eq_left']

/-- It fails where the first of the two steps fails. -/
theorem runFrom_bind_eq_error {step : Lowering α} {next : α → Lowering β} {e : LoweringError} :
    runFrom ctx (step >>= next) = (.error e, ctx') ↔
      runFrom ctx step = (.error e, ctx') ∨
        ∃ a ctx₁, runFrom ctx step = (.ok a, ctx₁) ∧ runFrom ctx₁ (next a) = (.error e, ctx') := by
  rw [runFrom_bind]
  rcases runFrom ctx step with ⟨_ | a, ctx₁⟩
  · simp
  · simp only [Prod.mk.injEq, reduceCtorEq, Except.ok.injEq, false_and, false_or, and_assoc,
      exists_and_left, exists_eq_left']

theorem runFrom_map_eq_ok {step : Lowering α} {f : α → β} {b : β} :
    runFrom ctx (f <$> step) = (.ok b, ctx') ↔ ∃ a, runFrom ctx step = (.ok a, ctx') ∧ f a = b := by
  rw [map_eq_pure_bind, runFrom_bind_eq_ok]
  constructor
  · rintro ⟨a, ctx₁, first, last⟩
    rw [runFrom_pure, Prod.mk.injEq, Except.ok.injEq] at last
    obtain ⟨rfl, rfl⟩ := last
    exact ⟨a, first, rfl⟩
  · rintro ⟨a, first, rfl⟩
    exact ⟨a, ctx', first, runFrom_pure ..⟩

theorem runFrom_pure_eq_ok {a b : α} :
    runFrom ctx (pure a) = (.ok b, ctx') ↔ b = a ∧ ctx' = ctx := by
  simp only [runFrom_pure, Prod.mk.injEq, Except.ok.injEq, eq_comm]

theorem runFrom_throw_ne_ok {e : LoweringError} {a : α} :
    runFrom ctx (throw e) ≠ (.ok a, ctx') := by
  simp

/-- A change of the scope keeps the rest of the context. -/
theorem runFrom_changeScope (change : Scope → Except LoweringError Scope) :
    runFrom ctx (changeScope change) =
      match change ctx.scope with
      | .ok scope => (.ok (), { ctx with scope })
      | .error e => (.error e, ctx) := by
  rw [changeScope, runFrom_bind, runFrom_get]
  cases h : change ctx.scope <;> simp only [h, runFrom_set, runFrom_throw]

theorem runFrom_resolve (name : String) (span : Span) :
    runFrom ctx (resolve name span) =
      match ctx.scope.lookup? name with
      | some symbol => (.ok symbol, ctx)
      | none => (.error (.unresolved name span), ctx) := by
  rw [resolve, runFrom_bind, runFrom_get]
  cases h : ctx.scope.lookup? name <;> simp only [Scope.resolve, h, runFrom_pure, runFrom_throw]

theorem runFrom_resolve_eq_ok {name : String} {span : Span} {symbol : Symbol} :
    runFrom ctx (resolve name span) = (.ok symbol, ctx') ↔
      ctx.scope.lookup? name = some symbol ∧ ctx' = ctx := by
  rw [runFrom_resolve]
  cases ctx.scope.lookup? name <;> simp [eq_comm]

theorem runFrom_declare_eq_ok {name : String} {kind : SymbolKind} {span : Span} {u : Unit} :
    runFrom ctx (Lowering.declare name kind span) = (.ok u, ctx') ↔
      ∃ scope, ctx.scope.declare name ⟨kind, span⟩ = .ok scope ∧ ctx' = { ctx with scope } := by
  rw [Lowering.declare, runFrom_changeScope]
  split
  · next scope declared => simp [declared, eq_comm]
  · next e failed => simp [failed]

theorem runFrom_declareGlobal_eq_ok {name : String} {kind : SymbolKind} {span : Span} {u : Unit} :
    runFrom ctx (declareGlobal name kind span) = (.ok u, ctx') ↔
      ∃ scope, ctx.scope.declareGlobal name ⟨kind, span⟩ = .ok scope ∧
        ctx' = { ctx with scope } := by
  rw [declareGlobal, runFrom_changeScope]
  split
  · next scope declared => simp [declared, eq_comm]
  · next e failed => simp [failed]

theorem runFrom_changeScope_eq_error {change : Scope → Except LoweringError Scope} {e : LoweringError} :
    runFrom ctx (changeScope change) = (.error e, ctx') ↔
      change ctx.scope = .error e ∧ ctx' = ctx := by
  rw [runFrom_changeScope]
  split
  · next scope changed => simp [changed]
  · next e failed => simp [failed, eq_comm]

theorem runFrom_inLevel_eq_ok {step : Lowering α} {a : α} :
    runFrom ctx (inLevel step) = (.ok a, ctx') ↔
      ∃ ctx₁, runFrom { ctx with scope := ctx.scope.push } step = (.ok a, ctx₁) ∧
        ctx' = { ctx₁ with scope := ctx₁.scope.pop } := by
  rw [runFrom_inLevel]
  rcases runFrom { ctx with scope := ctx.scope.push } step with ⟨outcome, ctx₁⟩
  simp only [Prod.mk.injEq]
  constructor
  · rintro ⟨rfl, rfl⟩
    exact ⟨ctx₁, ⟨rfl, rfl⟩, rfl⟩
  · rintro ⟨_, ⟨rfl, rfl⟩, rfl⟩
    exact ⟨rfl, rfl⟩

theorem runFrom_registerTemplate_eq_ok {name : String} {d : Definition} {u : Unit} :
    runFrom ctx (registerTemplate name d) = (.ok u, ctx') ↔
      ∃ scope, ctx.scope.declareGlobal name ⟨.template, d.span⟩ = .ok scope ∧
        ctx' = { ctx with
          scope, registry.templates := ctx.registry.templates.insert name d } := by
  simp only [registerTemplate, runFrom_bind_eq_ok, runFrom_declareGlobal_eq_ok, runFrom_modify,
    Prod.mk.injEq, true_and]
  constructor
  · rintro ⟨_, _, ⟨scope, declared, rfl⟩, rfl⟩
    exact ⟨scope, declared, rfl⟩
  · rintro ⟨scope, declared, rfl⟩
    exact ⟨(), _, ⟨scope, declared, rfl⟩, rfl⟩

theorem runFrom_registerFunction_eq_ok {name : String} {d : Definition} {u : Unit} :
    runFrom ctx (registerFunction name d) = (.ok u, ctx') ↔
      ctx.registry.functions.get? name = none ∧
      ∃ scope, ctx.scope.declare name ⟨.function, d.span⟩ = .ok scope ∧
        ctx' = { ctx with
          scope
          registry.functions := ctx.registry.functions.insert name d
          registry.functionParams := ctx.registry.functionParams.insert name d.params } := by
  rw [registerFunction, runFrom_bind, runFrom_get]
  cases found : ctx.registry.functions.get? name with
  | some previous => simp [found]
  | none =>
    simp only [found, runFrom_bind_eq_ok, runFrom_declare_eq_ok, runFrom_modify, Prod.mk.injEq,
      true_and]
    constructor
    · rintro ⟨_, _, ⟨scope, declared, rfl⟩, rfl⟩
      exact ⟨scope, declared, rfl⟩
    · rintro ⟨scope, declared, rfl⟩
      exact ⟨(), _, ⟨scope, declared, rfl⟩, rfl⟩

end Lowering

open Lowering

variable {ctx ctx' : Context}

/-! ### Names and cells -/

/-- The cell of a name that stands for a variable or a signal. -/
def SymbolKind.cell? (name : String) (indices : List Expr) : SymbolKind → Option Cell
  | .var => some (.var name indices)
  | .signal => some (.signal name indices)
  | _ => none

theorem runFrom_cellOf_eq_ok {name : String} {indices : List Expr} {span : Span}
    {kind : SymbolKind} {cell : Cell} :
    runFrom ctx (cellOf name indices span kind) = (.ok cell, ctx') ↔
      kind.cell? name indices = some cell ∧ ctx' = ctx := by
  cases kind <;> simp [cellOf, SymbolKind.cell?, eq_comm]

theorem runFrom_targetOf_eq_ok {name : String} {indices : List Expr} {span : Span}
    {kind : SymbolKind} {target : Option Cell} :
    runFrom ctx (targetOf name indices span kind) = (.ok target, ctx') ↔
      (kind = .component ∧ target = none ∨
        ∃ cell, kind.cell? name indices = some cell ∧ target = some cell) ∧ ctx' = ctx := by
  cases kind <;> simp [targetOf, SymbolKind.cell?, eq_comm]

theorem runFrom_targetOf_some_eq_ok {name : String} {indices : List Expr} {span : Span}
    {kind : SymbolKind} {cell : Cell} :
    runFrom ctx (targetOf name indices span kind) = (.ok (some cell), ctx') ↔
      kind.cell? name indices = some cell ∧ ctx' = ctx := by
  rw [runFrom_targetOf_eq_ok]
  simp [eq_comm]

theorem runFrom_resolveComponent_eq_ok {name : String} {span : Span} {u : Unit} :
    runFrom ctx (resolveComponent name span) = (.ok u, ctx') ↔
      (∃ symbol, ctx.scope.lookup? name = some symbol ∧ symbol.kind = .component) ∧ ctx' = ctx := by
  rw [resolveComponent, runFrom_bind_eq_ok]
  constructor
  · rintro ⟨symbol, ctx₁, found, rest⟩
    obtain ⟨found, rfl⟩ := runFrom_resolve_eq_ok.1 found
    split at rest
    · next component => exact ⟨⟨symbol, found, component⟩, (runFrom_pure_eq_ok.1 rest).2⟩
    · exact absurd rest runFrom_throw_ne_ok
  · rintro ⟨⟨symbol, found, component⟩, rfl⟩
    refine ⟨symbol, ctx', runFrom_resolve_eq_ok.2 ⟨found, rfl⟩, ?_⟩
    rw [if_pos component, runFrom_pure]

/-- A declaration succeeds only for a plain name under a known tag. -/
theorem runFrom_declareNode_eq_ok {tag name : String} {node : Node} {span : Span} :
    runFrom ctx (declareNode tag node span) = (.ok name, ctx') ↔
      ∃ kind at' selectors, DeclarationKind.ofTag? tag = some kind ∧ node = .var at' name selectors ∧
        runFrom ctx (Lowering.declare name (.ofDeclaration kind) span) = (.ok (), ctx') := by
  unfold declareNode
  cases DeclarationKind.ofTag? tag with
  | none => simp
  | some kind =>
    cases node
    case var at' other selectors =>
      simp only [runFrom_bind_eq_ok, runFrom_pure_eq_ok]
      constructor
      · rintro ⟨_, ctx₁, declared, rfl, rfl⟩
        exact ⟨kind, at', selectors, rfl, rfl, declared⟩
      · rintro ⟨_, _, _, same, equal, declared⟩
        cases same
        cases equal
        exact ⟨(), ctx', declared, rfl, rfl⟩
    all_goals simp

/-! ### Values -/

/-- A node has a value exactly if lowering it yields an expression. -/
theorem runFrom_valueOf_eq_ok {n : Node} {step : Lowering Fragment} {e : Expr} :
    runFrom ctx (valueOf n step) = (.ok e, ctx') ↔
      runFrom ctx step = (.ok (.expr e), ctx') := by
  rw [valueOf, runFrom_bind_eq_ok]
  constructor
  · rintro ⟨fragment, ctx₁, first, last⟩
    cases fragment
    case expr e₁ =>
      obtain ⟨rfl, rfl⟩ := runFrom_pure_eq_ok.1 last
      exact first
    all_goals exact absurd last runFrom_throw_ne_ok
  · intro h
    exact ⟨_, _, h, runFrom_pure ..⟩

theorem runFrom_lowerValues_cons_eq_ok {n : Node} {ns : List Node} {es : List Expr} :
    runFrom ctx (Node.lowerValues (n :: ns)) = (.ok es, ctx') ↔
      ∃ e ctx₁ rest, runFrom ctx n.lower = (.ok (.expr e), ctx₁) ∧
        runFrom ctx₁ (Node.lowerValues ns) = (.ok rest, ctx') ∧ es = e :: rest := by
  simp only [Node.lowerValues, runFrom_bind_eq_ok, runFrom_valueOf_eq_ok, runFrom_pure_eq_ok]
  constructor
  · rintro ⟨e, ctx₁, first, rest, ctx₂, last, rfl, rfl⟩
    exact ⟨e, ctx₁, rest, first, last, rfl⟩
  · rintro ⟨e, ctx₁, rest, first, last, rfl⟩
    exact ⟨e, ctx₁, first, rest, ctx', last, rfl, rfl⟩

/-! ### Definitions -/

/-- The body of a definition is a block; it is lowered above its parameters. -/
theorem runFrom_lowerBody_eq_ok {params : List String} {span : Span} {body : Node}
    {ss : List Stmt} :
    runFrom ctx (Node.lowerBody params span body) = (.ok ss, ctx') ↔
      ∃ at' statements ctx₁ ctx₂, body = .block at' statements ∧
        runFrom { ctx with scope := ctx.scope.push }
          (params.forM fun param => Lowering.declare param .var span) = (.ok (), ctx₁) ∧
        runFrom ctx₁ (Node.lowerStatements statements) = (.ok ss, ctx₂) ∧
        ctx' = { ctx₂ with scope := ctx₂.scope.pop } := by
  cases body
  case block at' statements =>
    simp only [Node.lowerBody, runFrom_inLevel_eq_ok, runFrom_bind_eq_ok, Node.block.injEq]
    constructor
    · rintro ⟨ctx₂, ⟨_, ctx₁, declared, lowered⟩, rfl⟩
      exact ⟨at', statements, ctx₁, ctx₂, ⟨rfl, rfl⟩, declared, lowered, rfl⟩
    · rintro ⟨_, _, ctx₁, ctx₂, ⟨rfl, rfl⟩, declared, lowered, rfl⟩
      exact ⟨ctx₂, ⟨(), ctx₁, declared, lowered⟩, rfl⟩
  all_goals simp [Node.lowerBody]

theorem runFrom_lower_template_eq_ok {span : Span} {name : String} {params : List String}
    {body : Node} {fragment : Fragment} :
    runFrom ctx (Node.template span name params body).lower = (.ok fragment, ctx') ↔
      ∃ ss ctx₁, runFrom ctx (Node.lowerBody params span body) = (.ok ss, ctx₁) ∧
        runFrom ctx₁ (registerTemplate name ⟨params, ss, span⟩) = (.ok (), ctx') ∧
        fragment = .nothing := by
  simp only [Node.lower, runFrom_bind_eq_ok, runFrom_pure_eq_ok]
  constructor
  · rintro ⟨ss, ctx₁, lowered, _, _, registered, rfl, rfl⟩
    exact ⟨ss, ctx₁, lowered, registered, rfl⟩
  · rintro ⟨ss, ctx₁, lowered, registered, rfl⟩
    exact ⟨ss, ctx₁, lowered, (), ctx', registered, rfl, rfl⟩

theorem runFrom_lower_function_eq_ok {span : Span} {name : String} {params : List String}
    {body : Node} {fragment : Fragment} :
    runFrom ctx (Node.function span name params body).lower = (.ok fragment, ctx') ↔
      ∃ ss ctx₁, runFrom ctx (Node.lowerBody params span body) = (.ok ss, ctx₁) ∧
        runFrom ctx₁ (registerFunction name ⟨params, ss, span⟩) = (.ok (), ctx') ∧
        fragment = .nothing := by
  simp only [Node.lower, runFrom_bind_eq_ok, runFrom_pure_eq_ok]
  constructor
  · rintro ⟨ss, ctx₁, lowered, _, _, registered, rfl, rfl⟩
    exact ⟨ss, ctx₁, lowered, registered, rfl⟩
  · rintro ⟨ss, ctx₁, lowered, registered, rfl⟩
    exact ⟨ss, ctx₁, lowered, (), ctx', registered, rfl, rfl⟩

/-! ### Operations -/

/-- Whether a node is a plain reference. -/
def Node.isReference : Node → Bool
  | .var _ _ _ => true
  | .pin _ _ _ _ _ => true
  | _ => false

/-- The arithmetic of an operator on the code of its operands, if it is arithmetic. -/
def Operator.combine? : Operator → List Expr → Option Expr
  | .neg, [a] => some (Arithmetic.neg a)
  | .ternary, [c, a, b] => some (Arithmetic.ternary c a b)
  | op, [a, b] => (Arithmetic.binary? op).map fun combine => combine a b
  | _, _ => none

/-- The operators that compute a value. -/
def Operator.isArithmetic : Operator → Bool
  | .add | .sub | .neg | .mul | .pow | .bitAnd | .shl | .shr | .lt | .eq | .ternary => true
  | _ => false

theorem Operator.isArithmetic_of_combine? {op : Operator} {es : List Expr} {e : Expr}
    (combined : op.combine? es = some e) : op.isArithmetic = true := by
  unfold Operator.combine? at combined
  split at combined
  case h_1 => rfl
  case h_2 => rfl
  case h_3 =>
    obtain ⟨combine, binary, -⟩ := Option.map_eq_some_iff.1 combined
    cases op <;> cases binary <;> rfl
  case h_4 => cases combined

/-- How an operator combines the value of its target with another one, if it updates in place. -/
def Operator.update? : Operator → Option (Expr → Expr → Expr)
  | .addAssign => some Arithmetic.add
  | .mulAssign => some Arithmetic.mul
  | _ => none

namespace Operand

/-- Lower operands as values, one after the other. -/
def values : List Operand → Lowering (List Expr)
  | [] => return []
  | operand :: rest => do
    let e ← operand.value
    let es ← values rest
    return e :: es

theorem operate_of_length_ne {op : Operator} {operands : List Operand}
    (other : operands.length ≠ op.arity) (span : Span) :
    operate span op operands = throw (.operandCount op.symbol op.arity operands.length span) := by
  unfold operate
  split
  case h_11 => exact if_neg (Ne.symm other)
  case h_12 => rfl
  all_goals exact absurd rfl other

theorem operate_of_binary {op : Operator} {combine : Expr → Expr → Expr}
    (binary : Arithmetic.binary? op = some combine) (span : Span) (lhs rhs : Operand) :
    operate span op [lhs, rhs] = do
      let a ← lhs.value
      let b ← rhs.value
      return .expr (combine a b) := by
  cases op <;> cases binary <;> rfl

/-- The successful operations from a context: the steps taken, the fragment and the context after. -/
inductive Operates (span : Span) (ctx : Context) :
    Operator → List Operand → Fragment → Context → Prop where
  | store {op : Operator} {target value : Operand} {cell : Cell} {e : Expr} {ctx₁ ctx' : Context} :
      op = .assign ∨ op = .signalAssign →
      runFrom ctx (target.target span) = (.ok (some cell), ctx₁) →
      runFrom ctx₁ value.value = (.ok e, ctx') →
      Operates span ctx op [target, value] (.expr (.set cell e)) ctx'
  | storeComponent {op : Operator} {target value : Operand} {ctx' : Context} :
      op = .assign ∨ op = .signalAssign →
      runFrom ctx (target.target span) = (.ok none, ctx') →
      Operates span ctx op [target, value] .nothing ctx'
  | update {op : Operator} {combine : Expr → Expr → Expr} {target value : Operand} {cell : Cell}
      {current e : Expr} {ctx₁ ctx₂ ctx' : Context} :
      op.update? = some combine → target.node.isReference = true →
      runFrom ctx (target.target span) = (.ok (some cell), ctx₁) →
      runFrom ctx₁ target.value = (.ok current, ctx₂) →
      runFrom ctx₂ value.value = (.ok e, ctx') →
      Operates span ctx op [target, value] (.expr (.set cell (combine current e))) ctx'
  | updateComponent {op : Operator} {combine : Expr → Expr → Expr} {target value : Operand}
      {ctx' : Context} :
      op.update? = some combine → target.node.isReference = true →
      runFrom ctx (target.target span) = (.ok none, ctx') →
      Operates span ctx op [target, value] .nothing ctx'
  | increment {post : Bool} {target : Operand} {cell : Cell} {current : Expr}
      {ctx₁ ctx' : Context} :
      target.node.isReference = true →
      runFrom ctx (target.target span) = (.ok (some cell), ctx₁) →
      runFrom ctx₁ target.value = (.ok current, ctx') →
      Operates span ctx (if post then .postIncrement else .preIncrement) [target]
        (.expr (if post then Arithmetic.previousValue (.set cell (Arithmetic.increment current))
          else .set cell (Arithmetic.increment current))) ctx'
  | constrainedStore {target value : Operand} {cell : Cell} {e back : Expr}
      {ctx₁ ctx₂ ctx' : Context} :
      runFrom ctx (target.target span) = (.ok (some cell), ctx₁) →
      runFrom ctx₁ value.value = (.ok e, ctx₂) →
      runFrom ctx₂ (readBack target) = (.ok back, ctx') →
      Operates span ctx .constrainedAssign [target, value]
        (.expr (.assertEqual (.set cell e) back)) ctx'
  | constrain {lhs rhs : Operand} {a b : Expr} {ctx₁ ctx' : Context} :
      runFrom ctx lhs.value = (.ok a, ctx₁) →
      runFrom ctx₁ rhs.value = (.ok b, ctx') →
      Operates span ctx .constrain [lhs, rhs] (.expr (.assertEqual a b)) ctx'
  | arithmetic {op : Operator} {operands : List Operand} {es : List Expr} {e : Expr}
      {ctx' : Context} :
      runFrom ctx (values operands) = (.ok es, ctx') →
      op.combine? es = some e →
      Operates span ctx op operands (.expr e) ctx'

variable {span : Span}

theorem runFrom_requireReference_eq_ok {target : Operand} {u : Unit} :
    runFrom ctx (requireReference span target) = (.ok u, ctx') ↔
      target.node.isReference = true ∧ ctx' = ctx := by
  unfold requireReference Node.isReference
  split <;> simp_all [eq_comm]

/-- A store either finds a cell and then lowers its value, or is void. -/
theorem runFrom_store_eq_ok {target : Operand} {value : Lowering Expr} {stored : Option Expr} :
    runFrom ctx (store span target value) = (.ok stored, ctx') ↔
      (runFrom ctx (target.target span) = (.ok none, ctx') ∧ stored = none) ∨
        ∃ cell e ctx₁, runFrom ctx (target.target span) = (.ok (some cell), ctx₁) ∧
          runFrom ctx₁ value = (.ok e, ctx') ∧ stored = some (.set cell e) := by
  rw [store, runFrom_bind_eq_ok]
  constructor
  · rintro ⟨_ | cell, ctx₁, found, rest⟩
    · obtain ⟨rfl, rfl⟩ := runFrom_pure_eq_ok.1 rest
      exact .inl ⟨found, rfl⟩
    · simp only [runFrom_bind_eq_ok, runFrom_pure_eq_ok] at rest
      obtain ⟨e, _, lowered, rfl, rfl⟩ := rest
      exact .inr ⟨cell, e, ctx₁, found, lowered, rfl⟩
  · rintro (⟨found, rfl⟩ | ⟨cell, e, ctx₁, found, lowered, rfl⟩)
    · exact ⟨none, ctx', found, runFrom_pure ..⟩
    · refine ⟨some cell, ctx₁, found, ?_⟩
      simp only [runFrom_bind_eq_ok, runFrom_pure_eq_ok]
      exact ⟨e, ctx', lowered, rfl, rfl⟩

private theorem operates_of_plainStore {op : Operator} {target value : Operand}
    {fragment : Fragment} (plain : op = .assign ∨ op = .signalAssign)
    (h : runFrom ctx (Fragment.ofStore <$> store span target value.value) = (.ok fragment, ctx')) :
    Operates span ctx op [target, value] fragment ctx' := by
  obtain ⟨stored, ran, rfl⟩ := runFrom_map_eq_ok.1 h
  obtain ⟨found, rfl⟩ | ⟨cell, e, ctx₁, found, lowered, rfl⟩ := runFrom_store_eq_ok.1 ran
  · exact .storeComponent plain found
  · exact .store plain found lowered

private theorem operates_of_update {op : Operator} {combine : Expr → Expr → Expr}
    {target value : Operand} {fragment : Fragment} (updates : op.update? = some combine)
    (h : runFrom ctx (update combine span target value) = (.ok fragment, ctx')) :
    Operates span ctx op [target, value] fragment ctx' := by
  simp only [update, runFrom_bind_eq_ok, runFrom_requireReference_eq_ok, runFrom_pure_eq_ok] at h
  obtain ⟨_, _, ⟨reference, rfl⟩, stored, _, ran, rfl, rfl⟩ := h
  obtain ⟨found, rfl⟩ | ⟨cell, e, ctx₁, found, lowered, rfl⟩ := runFrom_store_eq_ok.1 ran
  · exact .updateComponent updates reference found
  · simp only [runFrom_bind_eq_ok, runFrom_pure_eq_ok] at lowered
    obtain ⟨current, ctx₂, first, operand, _, second, rfl, rfl⟩ := lowered
    exact .update updates reference found first second

private theorem operates_of_increment (post : Bool) {target : Operand} {fragment : Fragment}
    (h : runFrom ctx (.expr <$> increment post span target) = (.ok fragment, ctx')) :
    Operates span ctx (if post then .postIncrement else .preIncrement) [target] fragment ctx' := by
  obtain ⟨e, ran, rfl⟩ := runFrom_map_eq_ok.1 h
  simp only [increment, runFrom_bind_eq_ok, runFrom_requireReference_eq_ok] at ran
  obtain ⟨_, _, ⟨reference, rfl⟩, stored, _, ran, rest⟩ := ran
  obtain ⟨found, rfl⟩ | ⟨cell, value, ctx₁, found, lowered, rfl⟩ := runFrom_store_eq_ok.1 ran
  · exact absurd rest runFrom_throw_ne_ok
  · obtain ⟨rfl, rfl⟩ := runFrom_pure_eq_ok.1 rest
    obtain ⟨current, read, rfl⟩ := runFrom_map_eq_ok.1 lowered
    exact .increment reference found read

private theorem operates_of_constrainedStore {target value : Operand} {fragment : Fragment}
    (h : runFrom ctx (.expr <$> constrainedStore span target value) = (.ok fragment, ctx')) :
    Operates span ctx .constrainedAssign [target, value] fragment ctx' := by
  obtain ⟨e, ran, rfl⟩ := runFrom_map_eq_ok.1 h
  rw [constrainedStore, runFrom_bind_eq_ok] at ran
  obtain ⟨stored, _, ran, rest⟩ := ran
  obtain ⟨found, rfl⟩ | ⟨cell, value, ctx₁, found, lowered, rfl⟩ := runFrom_store_eq_ok.1 ran
  · exact absurd rest runFrom_throw_ne_ok
  · simp only [runFrom_bind_eq_ok, runFrom_pure_eq_ok] at rest
    obtain ⟨back, _, read, rfl, rfl⟩ := rest
    exact .constrainedStore found lowered read

private theorem operates_of_constrain {lhs rhs : Operand} {fragment : Fragment}
    (h : runFrom ctx (.expr <$> constrain lhs rhs) = (.ok fragment, ctx')) :
    Operates span ctx .constrain [lhs, rhs] fragment ctx' := by
  obtain ⟨e, ran, rfl⟩ := runFrom_map_eq_ok.1 h
  simp only [constrain, runFrom_bind_eq_ok, runFrom_pure_eq_ok] at ran
  obtain ⟨a, ctx₁, first, b, _, second, rfl, rfl⟩ := ran
  exact .constrain first second

theorem runFrom_values_cons_eq_ok {operand : Operand} {rest : List Operand} {es : List Expr} :
    runFrom ctx (values (operand :: rest)) = (.ok es, ctx') ↔
      ∃ e ctx₁ es', runFrom ctx operand.value = (.ok e, ctx₁) ∧
        runFrom ctx₁ (values rest) = (.ok es', ctx') ∧ es = e :: es' := by
  simp only [values, runFrom_bind_eq_ok, runFrom_pure_eq_ok]
  constructor
  · rintro ⟨e, ctx₁, first, es', ctx₂, last, rfl, rfl⟩
    exact ⟨e, ctx₁, es', first, last, rfl⟩
  · rintro ⟨e, ctx₁, es', first, last, rfl⟩
    exact ⟨e, ctx₁, first, es', ctx', last, rfl, rfl⟩

/-- An operation that succeeds is one of the successful ones. -/
theorem operates_of_runFrom {op : Operator} {operands : List Operand} {fragment : Fragment}
    (h : runFrom ctx (operate span op operands) = (.ok fragment, ctx')) :
    Operates span ctx op operands fragment ctx' := by
  unfold operate at h
  split at h
  case h_1 => exact operates_of_plainStore (.inl rfl) h
  case h_2 => exact operates_of_plainStore (.inr rfl) h
  case h_3 => exact operates_of_constrainedStore h
  case h_4 => exact operates_of_constrain h
  case h_5 => exact operates_of_update rfl h
  case h_6 => exact operates_of_update rfl h
  case h_7 => exact operates_of_increment true h
  case h_8 => exact operates_of_increment false h
  case h_9 operand =>
    simp only [runFrom_bind_eq_ok, runFrom_pure_eq_ok] at h
    obtain ⟨a, _, lowered, rfl, rfl⟩ := h
    exact .arithmetic (runFrom_values_cons_eq_ok.2 ⟨a, _, [], lowered, rfl, rfl⟩) rfl
  case h_10 condition whenTrue whenFalse =>
    simp only [runFrom_bind_eq_ok, runFrom_pure_eq_ok] at h
    obtain ⟨c, ctx₁, first, a, ctx₂, second, b, _, third, rfl, rfl⟩ := h
    have last : runFrom ctx₂ (values [whenFalse]) = (.ok [b], ctx') :=
      runFrom_values_cons_eq_ok.2 ⟨b, _, [], third, rfl, rfl⟩
    have later : runFrom ctx₁ (values [whenTrue, whenFalse]) = (.ok [a, b], ctx') :=
      runFrom_values_cons_eq_ok.2 ⟨a, _, _, second, last, rfl⟩
    exact .arithmetic (runFrom_values_cons_eq_ok.2 ⟨c, _, _, first, later, rfl⟩) rfl
  case h_11 lhs rhs _ _ _ _ _ _ =>
    split at h
    · simp only [runFrom_bind_eq_ok] at h
      obtain ⟨a, ctx₁, first, b, ctx₂, second, combined⟩ := h
      split at combined
      case h_1 combine binary =>
        obtain ⟨rfl, rfl⟩ := runFrom_pure_eq_ok.1 combined
        have last : runFrom ctx₁ (values [rhs]) = (.ok [b], ctx') :=
          runFrom_values_cons_eq_ok.2 ⟨b, _, [], second, rfl, rfl⟩
        exact .arithmetic (runFrom_values_cons_eq_ok.2 ⟨a, _, _, first, last, rfl⟩)
          (by simp only [Operator.combine?, binary, Option.map_some])
      case h_2 => exact absurd combined runFrom_throw_ne_ok
    · exact absurd h runFrom_throw_ne_ok
  case h_12 => exact absurd h runFrom_throw_ne_ok

/-- The values of nodes as operands are the values of the nodes. -/
theorem values_operands (ns : List Node) : values (Node.operands ns) = Node.lowerValues ns := by
  induction ns with
  | nil => rfl
  | cons n ns ih => simp only [Node.operands, values, Node.lowerValues, ih]

end Operand

theorem Node.length_operands (ns : List Node) : (Node.operands ns).length = ns.length := by
  induction ns with
  | nil => rfl
  | cons n ns ih => rw [Node.operands, List.length_cons, List.length_cons, ih]

theorem Node.eq_of_operands_cons {ns : List Node} {a : Operand} {operands : List Operand}
    (same : Node.operands ns = a :: operands) :
    ∃ m ms, ns = m :: ms ∧ a = m.operand ∧ Node.operands ms = operands := by
  cases ns with
  | nil =>
    rw [Node.operands] at same
    cases same
  | cons m ms =>
    rw [Node.operands] at same
    cases same
    exact ⟨m, ms, rfl, rfl, rfl⟩

theorem Node.eq_of_operands_singleton {ns : List Node} {a : Operand}
    (same : Node.operands ns = [a]) : ∃ m, ns = [m] ∧ a = m.operand := by
  rcases ns with _ | ⟨m, _ | ⟨_, ns⟩⟩
  case cons.nil =>
    rw [Node.operands, Node.operands] at same
    cases same
    exact ⟨m, rfl, rfl⟩
  all_goals simp [Node.operands] at same

theorem Node.eq_of_operands {ns : List Node} {a b : Operand} (same : Node.operands ns = [a, b]) :
    ∃ m n, ns = [m, n] ∧ a = m.operand ∧ b = n.operand := by
  rcases ns with _ | ⟨m, _ | ⟨n, _ | ⟨_, ns⟩⟩⟩
  case cons.cons.nil =>
    rw [Node.operands, Node.operands, Node.operands] at same
    cases same
    exact ⟨m, n, rfl, rfl, rfl⟩
  all_goals simp [Node.operands] at same

theorem Node.lower_op (op : Operator) (span : Span) (operands : List Node) :
    (Node.op span op.symbol operands).lower = Operand.operate span op (Node.operands operands) := by
  rw [Node.lower, Operator.ofSymbol?_symbol]

/-- An operator that combines two values lowers its operands one after the other. -/
theorem Node.lower_pair (op : Operator) {span : Span} {combine : Expr → Expr → Expr}
    (operates : ∀ lhs rhs, Operand.operate span op [lhs, rhs] = do
      let a ← lhs.value
      let b ← rhs.value
      return .expr (combine a b)) (m n : Node) :
    (Node.op span op.symbol [m, n]).lower = do
      let a ← m.lowerValue
      let b ← n.lowerValue
      return .expr (combine a b) := by
  rw [Node.lower_op, Node.operands, Node.operands, Node.operands, operates]
  rfl

end ArithCircuit
