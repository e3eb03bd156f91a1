import Mathlib.Data.List.Forall2
import ArithCircuit.Proofs.Parts

set_option autoImplicit false
set_option relaxedAutoImplicit false

/-!
# Source positions do not matter

Moving the nodes of a tree to other places of the source moves what the lowering reports and records
along with them, and changes nothing else: no lookup, collision or comparison looks at a span. Trees
that differ only in their spans are therefore compiled to circuits that differ only in theirs, or fail
with errors that do. Main statements: `Node.compile_relocate` and
`Node.compile_of_withoutSpans_eq`.
-/

namespace ArithCircuit

open Lowering

/-! ### Moving everything that holds a span -/

mutual

/-- A node with each span in it replaced by the one that a map gives. -/
def Node.relocate (move : Span → Span) : Node → Node
  | .number span value => .number (move span) value
  | .var span name selectors => .var (move span) name (Node.relocateAll move selectors)
  | .pin span component componentSelectors name selectors =>
    .pin (move span) component (Node.relocateAll move componentSelectors) name
      (Node.relocateAll move selectors)
  | .op span symbol operands => .op (move span) symbol (Node.relocateAll move operands)
  | .declare span tag name => .declare (move span) tag (Node.relocate move name)
  | .call span name args => .call (move span) name (Node.relocateAll move args)
  | .block span statements => .block (move span) (Node.relocateAll move statements)
  | .forLoop span init condition step body =>
    .forLoop (move span) (Node.relocate move init) (Node.relocate move condition)
      (Node.relocate move step) (Node.relocate move body)
  | .whileLoop span condition body =>
    .whileLoop (move span) (Node.relocate move condition) (Node.relocate move body)
  | .ret span value => .ret (move span) (Node.relocate move value)
  | .template span name params body => .template (move span) name params (Node.relocate move body)
  | .function span name params body => .function (move span) name params (Node.relocate move body)
  | .inclusion span file content => .inclusion (move span) file (Node.relocateOption move content)
  | .array span items => .array (move span) (Node.relocateAll move items)

/-- Nodes with each span in them replaced. -/
def Node.relocateAll (move : Span → Span) : List Node → List Node
  | [] => []
  | n :: ns => Node.relocate move n :: Node.relocateAll move ns

/-- A node that may be absent, with each span in it replaced. -/
def Node.relocateOption (move : Span → Span) : Option Node → Option Node
  | none => none
  | some n => some (Node.relocate move n)

end

namespace OrderedMap

variable {α β : Type}

/-- A map with its values replaced under the same names. -/
def mapValues (f : α → β) (m : OrderedMap α) : OrderedMap β where
  entries := m.entries.map fun e => (e.1, f e.2)
  nodup := by
    rw [List.map_map]
    exact m.nodup

theorem get?_mapValues (f : α → β) (m : OrderedMap α) (name : String) :
    (m.mapValues f).get? name = (m.get? name).map f := by
  simp only [get?, mapValues]
  induction m.entries with
  | nil => rfl
  | cons e rest ih =>
    obtain ⟨k, v⟩ := e
    simp only [List.map_cons, List.lookup_cons, ih]
    cases name == k <;> rfl

theorem mapValues_insert (f : α → β) (m : OrderedMap α) (name : String) (value : α) :
    (m.insert name value).mapValues f = (m.mapValues f).insert name (f value) := by
  apply OrderedMap.ext
  simp only [mapValues, entries_insert]
  induction m.entries with
  | nil => rfl
  | cons e rest ih =>
    by_cases same : e.1 = name
    · simp only [assign, List.map_cons, same, if_true]
    · simp only [assign, List.map_cons, same, if_false, ih]

end OrderedMap

section

variable (move : Span → Span)

/-- A symbol that was introduced elsewhere. -/
def Symbol.relocate (symbol : Symbol) : Symbol := ⟨symbol.kind, move symbol.span⟩

/-- A table whose names were introduced elsewhere. -/
def Table.relocate (t : Table) : Table := t.mapValues (Symbol.relocate move)

/-- A scope whose names were introduced elsewhere. -/
def Scope.relocate (s : Scope) : Scope := ⟨s.inner.map (Table.relocate move), s.global.relocate move⟩

/-- A definition that stood elsewhere. -/
def Definition.relocate (d : Definition) : Definition := ⟨d.params, d.body, move d.span⟩

/-- Definitions that stood elsewhere. -/
def Registry.relocate (r : Registry) : Registry :=
  ⟨r.templates.mapValues (Definition.relocate move), r.functions.mapValues (Definition.relocate move),
    r.functionParams⟩

/-- A circuit whose definitions stood elsewhere. -/
def Circuit.relocate (c : Circuit) : Circuit := ⟨c.field, c.registry.relocate move⟩

/-- A diagnostic of nodes that stood elsewhere. -/
def LoweringError.relocate : LoweringError → LoweringError
  | .invalidNode role actual span => .invalidNode role actual (move span)
  | .invalidOperator symbol span => .invalidOperator symbol (move span)
  | .invalidDeclaration tag span => .invalidDeclaration tag (move span)
  | .operandCount symbol expected actual span => .operandCount symbol expected actual (move span)
  | .invalidAssignment fault span => .invalidAssignment fault (move span)
  | .collision name span previous => .collision name (move span) (move previous)
  | .unresolved name span => .unresolved name (move span)
  | .wrongSymbol name found role span => .wrongSymbol name found role (move span)

/-- The state of a lowering of nodes that stood elsewhere. -/
def Context.relocate (ctx : Context) : Context :=
  ⟨ctx.scope.relocate move, ctx.registry.relocate move, ctx.failure.map (LoweringError.relocate move)⟩

/-! ### Scopes -/

variable {move}

@[simp] theorem Node.kind_relocate (n : Node) : (n.relocate move).kind = n.kind := by
  cases n <;> simp only [Node.relocate, Node.kind]

@[simp] theorem Node.span_relocate (n : Node) : (n.relocate move).span = move n.span := by
  cases n <;> simp only [Node.relocate, Node.span]

theorem Table.declare_relocate (t : Table) (name : String) (symbol : Symbol) :
    (t.relocate move).declare name (symbol.relocate move) =
      match t.declare name symbol with
      | .ok t' => .ok (t'.relocate move)
      | .error e => .error (e.relocate move) := by
  simp only [Table.declare, Table.relocate, OrderedMap.get?_mapValues]
  cases t.get? name with
  | none => simp only [Option.map_none, OrderedMap.mapValues_insert]
  | some previous => rfl

theorem Scope.declare_relocate (s : Scope) (name : String) (symbol : Symbol) :
    (s.relocate move).declare name (symbol.relocate move) =
      match s.declare name symbol with
      | .ok s' => .ok (s'.relocate move)
      | .error e => .error (e.relocate move) := by
  obtain ⟨_ | ⟨t, rest⟩, global⟩ := s
  · simp only [Scope.declare, Scope.relocate, List.map_nil, Table.declare_relocate]
    cases global.declare name symbol <;> rfl
  · simp only [Scope.declare, Scope.relocate, List.map_cons, Table.declare_relocate]
    cases t.declare name symbol <;> rfl

theorem Scope.declareGlobal_relocate (s : Scope) (name : String) (symbol : Symbol) :
    (s.relocate move).declareGlobal name (symbol.relocate move) =
      match s.declareGlobal name symbol with
      | .ok s' => .ok (s'.relocate move)
      | .error e => .error (e.relocate move) := by
  simp only [Scope.declareGlobal, Scope.relocate, Table.declare_relocate]
  cases s.global.declare name symbol <;> rfl

theorem Scope.lookup?_relocate (s : Scope) (name : String) :
    (s.relocate move).lookup? name = (s.lookup? name).map (Symbol.relocate move) := by
  have tables : (s.relocate move).tables = s.tables.map (Table.relocate move) := by
    simp only [Scope.tables, Scope.relocate, List.map_append, List.map_singleton]
  rw [Scope.lookup?, Scope.lookup?, tables]
  induction s.tables with
  | nil => rfl
  | cons t rest ih =>
    simp only [List.map_cons, List.findSome?_cons, Table.relocate, OrderedMap.get?_mapValues]
    cases t.get? name with
    | none => exact ih
    | some symbol => rfl

/-! ### Steps -/

variable (move) in
/-- One step does from the moved context what another step does from the context itself, with every
span moved; what the steps yield corresponds through a function. -/
def Lowering.Relocates {α β : Type} (carry : α → β) (step : Lowering α) (moved : Lowering β) : Prop :=
  ∀ ctx, runFrom (ctx.relocate move) moved =
    match runFrom ctx step with
    | (.ok a, ctx') => (.ok (carry a), ctx'.relocate move)
    | (.error e, ctx') => (.error (e.relocate move), ctx'.relocate move)

namespace Lowering

variable {α β γ δ : Type}

theorem relocates_pure (a : α) : Relocates move id (pure a : Lowering α) (pure a) := fun _ => rfl

theorem relocates_throw (e : LoweringError) :
    Relocates move id (throw e : Lowering α) (throw (e.relocate move)) := fun _ => rfl

theorem relocates_bind {carry : α → β} {carry' : γ → δ} {step : Lowering α} {moved : Lowering β}
    {next : α → Lowering γ} {next' : β → Lowering δ} (first : Relocates move carry step moved)
    (second : ∀ a, Relocates move carry' (next a) (next' (carry a))) :
    Relocates move carry' (step >>= next) (moved >>= next') := by
  intro ctx
  rw [runFrom_bind, runFrom_bind, first ctx]
  rcases runFrom ctx step with ⟨e | a, ctx₁⟩
  · rfl
  · exact second a ctx₁

theorem relocates_map {step moved : Lowering α} (same : Relocates move id step moved) (f : α → β) :
    Relocates move id (f <$> step) (f <$> moved) := by
  rw [map_eq_pure_bind, map_eq_pure_bind]
  exact relocates_bind same fun a => relocates_pure (f a)

theorem relocates_changeScope {change change' : Scope → Except LoweringError Scope}
    (same : ∀ s, change' (s.relocate move) =
      match change s with
      | .ok s' => .ok (s'.relocate move)
      | .error e => .error (e.relocate move)) :
    Relocates move id (changeScope change) (changeScope change') := by
  intro ctx
  have moved := same ctx.scope
  simp only [runFrom_changeScope, Context.relocate, moved]
  cases change ctx.scope <;> rfl

theorem relocates_declare (name : String) (kind : SymbolKind) (span : Span) :
    Relocates move id (Lowering.declare name kind span) (Lowering.declare name kind (move span)) :=
  relocates_changeScope fun s => s.declare_relocate name ⟨kind, span⟩

theorem relocates_declareGlobal (name : String) (kind : SymbolKind) (span : Span) :
    Relocates move id (declareGlobal name kind span) (declareGlobal name kind (move span)) :=
  relocates_changeScope fun s => s.declareGlobal_relocate name ⟨kind, span⟩

/-- What a name stands for is the only result of a step that holds a span. -/
theorem relocates_resolve (name : String) (span : Span) :
    Relocates move (Symbol.relocate move) (resolve name span) (resolve name (move span)) := by
  intro ctx
  simp only [runFrom_resolve, Context.relocate, Scope.lookup?_relocate]
  cases ctx.scope.lookup? name <;> rfl

theorem relocates_inLevel {step moved : Lowering α} (same : Relocates move id step moved) :
    Relocates move id (inLevel step) (inLevel moved) := by
  intro ctx
  have inside := same { ctx with scope := ctx.scope.push }
  have opened : ({ ctx with scope := ctx.scope.push } : Context).relocate move =
      { ctx.relocate move with scope := (ctx.relocate move).scope.push } := rfl
  rw [opened] at inside
  rw [runFrom_inLevel, runFrom_inLevel, inside]
  rcases runFrom { ctx with scope := ctx.scope.push } step with ⟨e | a, ctx₁⟩
  · simp only [Context.relocate, Scope.relocate, Scope.pop, List.map_tail]
  · simp only [Context.relocate, Scope.relocate, Scope.pop, List.map_tail]

theorem relocates_registerTemplate (name : String) (d : Definition) :
    Relocates move id (registerTemplate name d) (registerTemplate name (d.relocate move)) := by
  apply relocates_bind (relocates_declareGlobal name .template d.span)
  intro _ ctx
  simp only [runFrom_modify, Context.relocate, Registry.relocate, OrderedMap.mapValues_insert, id]

theorem relocates_registerFunction (name : String) (d : Definition) :
    Relocates move id (registerFunction name d) (registerFunction name (d.relocate move)) := by
  intro ctx
  have found : (ctx.relocate move).registry.functions.get? name =
      (ctx.registry.functions.get? name).map (Definition.relocate move) :=
    OrderedMap.get?_mapValues ..
  rw [registerFunction, registerFunction, runFrom_bind, runFrom_bind, runFrom_get, runFrom_get]
  simp only [found]
  cases ctx.registry.functions.get? name with
  | some previous => rfl
  | none =>
    refine relocates_bind (relocates_declare name .function d.span) ?_ ctx
    intro _ ctx₁
    simp only [runFrom_modify, Context.relocate, Registry.relocate, OrderedMap.mapValues_insert, id]
    rfl

theorem relocates_params (params : List String) (span : Span) :
    Relocates move id (params.forM fun param => Lowering.declare param .var span)
      (params.forM fun param => Lowering.declare param .var (move span)) := by
  induction params with
  | nil => exact relocates_pure ()
  | cons param params ih =>
    simp only [List.forM_eq_forM, List.forM_cons] at ih ⊢
    exact relocates_bind (relocates_declare param .var span) fun _ => ih

/-! ### Names and targets -/

theorem relocates_cellOf (name : String) (indices : List Expr) (span : Span) (kind : SymbolKind) :
    Relocates move id (cellOf name indices span kind) (cellOf name indices (move span) kind) := by
  cases kind
  case var | signal => exact relocates_pure _
  case component | template | function => exact relocates_throw _

theorem relocates_targetOf (name : String) (indices : List Expr) (span : Span) (kind : SymbolKind) :
    Relocates move id (targetOf name indices span kind) (targetOf name indices (move span) kind) := by
  cases kind
  case var | signal | component => exact relocates_pure _
  case template | function => exact relocates_throw _

theorem relocates_resolveComponent (name : String) (span : Span) :
    Relocates move id (resolveComponent name span) (resolveComponent name (move span)) := by
  apply relocates_bind (relocates_resolve name span)
  intro symbol
  by_cases component : symbol.kind = .component
  · simp only [Symbol.relocate, component, if_true]
    exact relocates_pure ()
  · simp only [Symbol.relocate, component, if_false]
    exact relocates_throw _

theorem relocates_readName (name : String) (span : Span) :
    Relocates move id (readName name span) (readName name (move span)) :=
  relocates_bind (relocates_resolve name span) fun symbol =>
    relocates_map (relocates_cellOf name [] span symbol.kind) Expr.get

theorem relocates_declareNode (tag : String) (name : Node) (span : Span) :
    Relocates move id (declareNode tag name span)
      (declareNode tag (name.relocate move) (move span)) := by
  unfold declareNode
  cases DeclarationKind.ofTag? tag with
  | none => exact relocates_throw _
  | some kind =>
    cases name
    case var at' name selectors =>
      exact relocates_bind (relocates_declare name _ span) fun _ => relocates_pure name
    all_goals
      simp only [Node.relocate]
      exact relocates_throw _

theorem relocates_valueOf (n : Node) {step moved : Lowering Fragment}
    (same : Relocates move id step moved) :
    Relocates move id (valueOf n step) (valueOf (n.relocate move) moved) := by
  apply relocates_bind same
  intro fragment
  cases fragment
  case expr e => exact relocates_pure e
  all_goals
    simp only [id, Node.kind_relocate, Node.span_relocate]
    exact relocates_throw _

end Lowering

/-! ### Operations -/

namespace Operand

variable (move) in
/-- An operand is used as another one whose spans are moved. -/
structure Relocates (operand moved : Operand) : Prop where
  node : moved.node = operand.node.relocate move
  value : Lowering.Relocates move id operand.value moved.value
  target : ∀ span, Lowering.Relocates move id (operand.target span) (moved.target (move span))

variable {target target' lhs lhs' rhs rhs' : Operand}

theorem relocates_store (span : Span) (found : target.Relocates move target')
    {value value' : Lowering Expr} (same : Lowering.Relocates move id value value') :
    Lowering.Relocates move id (store span target value) (store (move span) target' value') := by
  apply relocates_bind (found.target span)
  rintro (_ | cell)
  · exact relocates_pure none
  · exact relocates_bind same fun e => relocates_pure (some (Expr.set cell e))

theorem relocates_requireReference (span : Span) (found : target.Relocates move target') :
    Lowering.Relocates move id (requireReference span target)
      (requireReference (move span) target') := by
  simp only [requireReference, found.node]
  cases target.node
  case var | pin =>
    simp only [Node.relocate]
    exact relocates_pure ()
  all_goals
    simp only [Node.relocate]
    exact relocates_throw _

theorem relocates_readBack (found : target.Relocates move target') :
    Lowering.Relocates move id (readBack target) (readBack target') := by
  simp only [readBack, found.node]
  cases target.node
  case declare at' tag name =>
    cases name
    case var span name selectors =>
      simp only [Node.relocate]
      exact relocates_readName name span
    all_goals
      simp only [Node.relocate]
      exact found.value
  all_goals
    simp only [Node.relocate]
    exact found.value

theorem relocates_update (combine : Expr → Expr → Expr) (span : Span)
    (found : lhs.Relocates move lhs') (same : rhs.Relocates move rhs') :
    Lowering.Relocates move id (update combine span lhs rhs)
      (update combine (move span) lhs' rhs') := by
  have combined : Lowering.Relocates move id
      (do
        let current ← lhs.value
        let operand ← rhs.value
        return combine current operand)
      (do
        let current ← lhs'.value
        let operand ← rhs'.value
        return combine current operand) :=
    relocates_bind found.value fun current =>
      relocates_bind same.value fun operand => relocates_pure (combine current operand)
  exact relocates_bind (relocates_requireReference span found) fun _ =>
    relocates_bind (relocates_store span found combined) fun stored =>
      relocates_pure (Fragment.ofStore stored)

theorem relocates_increment (post : Bool) (span : Span) (found : target.Relocates move target') :
    Lowering.Relocates move id (increment post span target)
      (increment post (move span) target') := by
  have counted := relocates_map found.value Arithmetic.increment
  apply relocates_bind (relocates_requireReference span found)
  intro _
  apply relocates_bind (relocates_store span found counted)
  rintro (_ | e)
  · exact relocates_throw _
  · exact relocates_pure _

theorem relocates_constrainedStore (span : Span) (found : lhs.Relocates move lhs')
    (same : rhs.Relocates move rhs') :
    Lowering.Relocates move id (constrainedStore span lhs rhs)
      (constrainedStore (move span) lhs' rhs') := by
  apply relocates_bind (relocates_store span found same.value)
  rintro (_ | stored)
  · exact relocates_throw _
  · exact relocates_bind (relocates_readBack found) fun back =>
      relocates_pure (Expr.assertEqual stored back)

theorem relocates_constrain (left : lhs.Relocates move lhs') (right : rhs.Relocates move rhs') :
    Lowering.Relocates move id (constrain lhs rhs) (constrain lhs' rhs') :=
  relocates_bind left.value fun a =>
    relocates_bind right.value fun b => relocates_pure (Expr.assertEqual a b)

/-- What an operator does with its operands does not depend on where they stand. -/
theorem relocates_operate (span : Span) (op : Operator) {operands moved : List Operand}
    (same : List.Forall₂ (Relocates move) operands moved) :
    Lowering.Relocates move id (operate span op operands) (operate (move span) op moved) := by
  by_cases arity : operands.length = op.arity
  · cases binary : Arithmetic.binary? op with
    | some combine =>
      have two : op.arity = 2 := by cases op <;> cases binary <;> rfl
      obtain ⟨lhs, rhs, rfl⟩ := List.length_eq_two.1 (arity.trans two)
      obtain _ | ⟨left, _ | ⟨right, ⟨⟩⟩⟩ := same
      rw [operate_of_binary binary, operate_of_binary binary]
      exact relocates_bind left.value fun a =>
        relocates_bind right.value fun b => relocates_pure (Fragment.expr (combine a b))
    | none =>
      cases op
      case assign | signalAssign =>
        obtain ⟨target, value, rfl⟩ := List.length_eq_two.1 arity
        obtain _ | ⟨found, _ | ⟨right, ⟨⟩⟩⟩ := same
        exact relocates_map (relocates_store span found right.value) Fragment.ofStore
      case constrainedAssign =>
        obtain ⟨target, value, rfl⟩ := List.length_eq_two.1 arity
        obtain _ | ⟨found, _ | ⟨right, ⟨⟩⟩⟩ := same
        exact relocates_map (relocates_constrainedStore span found right) Fragment.expr
      case constrain =>
        obtain ⟨lhs, rhs, rfl⟩ := List.length_eq_two.1 arity
        obtain _ | ⟨left, _ | ⟨right, ⟨⟩⟩⟩ := same
        exact relocates_map (relocates_constrain left right) Fragment.expr
      case addAssign =>
        obtain ⟨target, value, rfl⟩ := List.length_eq_two.1 arity
        obtain _ | ⟨found, _ | ⟨right, ⟨⟩⟩⟩ := same
        exact relocates_update Arithmetic.add span found right
      case mulAssign =>
        obtain ⟨target, value, rfl⟩ := List.length_eq_two.1 arity
        obtain _ | ⟨found, _ | ⟨right, ⟨⟩⟩⟩ := same
        exact relocates_update Arithmetic.mul span found right
      case postIncrement =>
        obtain ⟨target, rfl⟩ := List.length_eq_one_iff.1 arity
        obtain _ | ⟨found, ⟨⟩⟩ := same
        exact relocates_map (relocates_increment true span found) Fragment.expr
      case preIncrement =>
        obtain ⟨target, rfl⟩ := List.length_eq_one_iff.1 arity
        obtain _ | ⟨found, ⟨⟩⟩ := same
        exact relocates_map (relocates_increment false span found) Fragment.expr
      case neg =>
        obtain ⟨operand, rfl⟩ := List.length_eq_one_iff.1 arity
        obtain _ | ⟨negated, ⟨⟩⟩ := same
        exact relocates_bind negated.value fun a =>
          relocates_pure (Fragment.expr (Arithmetic.neg a))
      case ternary =>
        obtain ⟨condition, whenTrue, whenFalse, rfl⟩ := List.length_eq_three.1 arity
        obtain _ | ⟨tested, _ | ⟨yes, _ | ⟨no, ⟨⟩⟩⟩⟩ := same
        exact relocates_bind tested.value fun c => relocates_bind yes.value fun a =>
          relocates_bind no.value fun b =>
            relocates_pure (Fragment.expr (Arithmetic.ternary c a b))
      all_goals cases binary
  · have length : moved.length = operands.length := same.length_eq.symm
    rw [operate_of_length_ne arity, operate_of_length_ne (length ▸ arity), length]
    exact relocates_throw _

end Operand

end

/-! ### Nodes -/

section

variable (move : Span → Span)

mutual

/-- A node is lowered at another place as it is where it stands. -/
theorem Node.relocates_lower : (n : Node) →
    Lowering.Relocates move id n.lower (n.relocate move).lower
  | .number _ value => by
    simp only [Node.relocate, Node.lower]
    exact relocates_pure _
  | .var span name selectors => by
    simp only [Node.relocate, Node.lower]
    exact relocates_bind (relocates_resolve name span) fun symbol =>
      relocates_bind (Node.relocates_lowerValues selectors) fun indices =>
        relocates_bind (relocates_cellOf name indices span symbol.kind) fun cell =>
          relocates_pure (Fragment.expr (.get cell))
  | .pin span component componentSelectors name selectors => by
    simp only [Node.relocate, Node.lower]
    exact relocates_bind (relocates_resolveComponent component span) fun _ =>
      relocates_bind (Node.relocates_lowerValues componentSelectors) fun _ =>
        relocates_bind (Node.relocates_lowerValues selectors) fun _ => relocates_pure _
  | .op span symbol operands => by
    simp only [Node.relocate, Node.lower]
    cases Operator.ofSymbol? symbol with
    | some op => exact Operand.relocates_operate span op (Node.relocates_operands operands)
    | none => exact relocates_throw _
  | .declare span tag name => by
    simp only [Node.relocate, Node.lower]
    exact relocates_bind (relocates_declareNode tag name span) fun _ => relocates_pure _
  | .call _ name args => by
    simp only [Node.relocate, Node.lower]
    exact relocates_bind (Node.relocates_lowerValues args) fun _ => relocates_pure _
  | .block _ statements => by
    simp only [Node.relocate, Node.lower]
    exact relocates_bind (Node.relocates_lowerStatements statements) fun _ => relocates_pure _
  | .forLoop _ init condition step body => by
    simp only [Node.relocate, Node.lower]
    exact relocates_bind (Node.relocates_lower init) fun _ =>
      relocates_bind (relocates_valueOf condition (Node.relocates_lower condition)) fun _ =>
        relocates_bind (Node.relocates_lower step) fun _ =>
          relocates_bind (Node.relocates_lower body) fun _ => relocates_pure _
  | .whileLoop _ condition body => by
    simp only [Node.relocate, Node.lower]
    exact relocates_bind (relocates_valueOf condition (Node.relocates_lower condition)) fun _ =>
      relocates_bind (Node.relocates_lower body) fun _ => relocates_pure _
  | .ret _ value => by
    simp only [Node.relocate, Node.lower]
    exact relocates_bind (relocates_valueOf value (Node.relocates_lower value)) fun _ =>
      relocates_pure _
  | .template span name params body => by
    simp only [Node.relocate, Node.lower]
    exact relocates_bind (Node.relocates_lowerBody params span body) fun ss =>
      relocates_bind (relocates_registerTemplate name ⟨params, ss, span⟩) fun _ => relocates_pure _
  | .function span name params body => by
    simp only [Node.relocate, Node.lower]
    exact relocates_bind (Node.relocates_lowerBody params span body) fun ss =>
      relocates_bind (relocates_registerFunction name ⟨params, ss, span⟩) fun _ => relocates_pure _
  | .inclusion _ _ content => by
    simp only [Node.relocate, Node.lower]
    exact Node.relocates_lowerOption content
  | .array _ items => by
    simp only [Node.relocate, Node.lower]
    exact relocates_bind (Node.relocates_lowerValues items) fun _ => relocates_pure _

theorem Node.relocates_lowerTarget : (n : Node) → (span : Span) →
    Lowering.Relocates move id (n.lowerTarget span) ((n.relocate move).lowerTarget (move span))
  | .declare declaration tag name, span => by
    simp only [Node.relocate, Node.lowerTarget]
    exact relocates_bind (relocates_declareNode tag name declaration) fun name =>
      relocates_bind (relocates_resolve name span) fun symbol =>
        relocates_targetOf name [] span symbol.kind
  | .pin target component componentSelectors name selectors, span => by
    simp only [Node.relocate, Node.lowerTarget]
    exact relocates_bind (relocates_resolveComponent component target) fun _ =>
      relocates_bind (Node.relocates_lowerValues componentSelectors) fun _ =>
        relocates_bind (Node.relocates_lowerValues selectors) fun _ => relocates_pure _
  | .var target name selectors, span => by
    simp only [Node.relocate, Node.lowerTarget]
    exact relocates_bind (Node.relocates_lowerValues selectors) fun indices =>
      relocates_bind (relocates_resolve name target) fun symbol =>
        relocates_targetOf name indices target symbol.kind
  | .number .., span | .op .., span | .call .., span | .block .., span | .forLoop .., span
  | .whileLoop .., span | .ret .., span | .template .., span | .function .., span
  | .inclusion .., span | .array .., span => by
    simp only [Node.relocate, Node.lowerTarget]
    exact relocates_throw _

theorem Node.relocates_lowerBody (params : List String) (span : Span) : (body : Node) →
    Lowering.Relocates move id (Node.lowerBody params span body)
      (Node.lowerBody params (move span) (body.relocate move))
  | .block _ statements => by
    simp only [Node.relocate, Node.lowerBody]
    exact relocates_inLevel (relocates_bind (relocates_params params span) fun _ =>
      Node.relocates_lowerStatements statements)
  | .number .. | .op .. | .call .. | .var .. | .pin .. | .declare .. | .forLoop .. | .whileLoop ..
  | .ret .. | .template .. | .function .. | .inclusion .. | .array .. => by
    simp only [Node.relocate, Node.lowerBody]
    exact relocates_throw _

theorem Node.relocates_lowerValues : (ns : List Node) →
    Lowering.Relocates move id (Node.lowerValues ns) (Node.lowerValues (Node.relocateAll move ns))
  | [] => by
    simp only [Node.relocateAll, Node.lowerValues]
    exact relocates_pure _
  | n :: ns => by
    simp only [Node.relocateAll, Node.lowerValues]
    exact relocates_bind (relocates_valueOf n (Node.relocates_lower n)) fun _ =>
      relocates_bind (Node.relocates_lowerValues ns) fun _ => relocates_pure _

theorem Node.relocates_lowerStatements : (ns : List Node) →
    Lowering.Relocates move id (Node.lowerStatements ns)
      (Node.lowerStatements (Node.relocateAll move ns))
  | [] => by
    simp only [Node.relocateAll, Node.lowerStatements]
    exact relocates_pure _
  | n :: ns => by
    simp only [Node.relocateAll, Node.lowerStatements]
    exact relocates_bind (Node.relocates_lower n) fun _ =>
      relocates_bind (Node.relocates_lowerStatements ns) fun _ => relocates_pure _

theorem Node.relocates_lowerOption : (content : Option Node) →
    Lowering.Relocates move id (Node.lowerOption content)
      (Node.lowerOption (Node.relocateOption move content))
  | none => by
    simp only [Node.relocateOption, Node.lowerOption]
    exact relocates_pure _
  | some n => by
    simp only [Node.relocateOption, Node.lowerOption]
    exact Node.relocates_lower n

theorem Node.relocates_operands : (ns : List Node) →
    List.Forall₂ (Operand.Relocates move) (Node.operands ns)
      (Node.operands (Node.relocateAll move ns))
  | [] => by
    simp only [Node.relocateAll, Node.operands]
    exact .nil
  | n :: ns => by
    simp only [Node.relocateAll, Node.operands]
    refine .cons ⟨rfl, ?_, Node.relocates_lowerTarget n⟩ (Node.relocates_operands ns)
    exact relocates_valueOf n (Node.relocates_lower n)

end

/-- Compiling a tree at other places gives the same circuit, or the same error, at these places. -/
theorem Node.compile_relocate (n : Node) (field : Field) :
    (n.relocate move).compile field =
      match n.compile field with
      | .ok c => .ok (c.relocate move)
      | .error e => .error (e.relocate move) := by
  have lowered := Node.relocates_lower move n .empty
  have fresh : Context.relocate move .empty = .empty := rfl
  rw [fresh] at lowered
  rw [Node.compile_eq, Node.compile_eq, lowered]
  rcases runFrom .empty n.lower with ⟨e | fragment, ctx⟩ <;> rfl

end

/-! ### Trees that differ in their spans only -/

/-- A node without its spans. -/
def Node.withoutSpans (n : Node) : Node := n.relocate fun _ => .unknown

/-- A circuit without the spans of its definitions. -/
def Circuit.withoutSpans (c : Circuit) : Circuit := c.relocate fun _ => .unknown

/-- A diagnostic without its spans. -/
def LoweringError.withoutSpans (e : LoweringError) : LoweringError := e.relocate fun _ => .unknown

/-- Trees that differ only in their spans, over fields with the same constants, are compiled to
circuits that differ only in theirs, or fail with errors that differ only in theirs. -/
theorem Node.compile_of_withoutSpans_eq {n m : Node} {field field' : Field}
    (same : n.withoutSpans = m.withoutSpans) (prime : field.prime = field'.prime)
    (mask : field.mask = field'.mask) :
    (∃ c c', n.compile field = .ok c ∧ m.compile field' = .ok c' ∧
      c.withoutSpans = c'.withoutSpans) ∨
    ∃ e e', n.compile field = .error e ∧ m.compile field' = .error e' ∧
      e.withoutSpans = e'.withoutSpans := by
  obtain rfl : field = field' := by
    cases field
    cases field'
    cases prime
    cases mask
    rfl
  have left := n.compile_relocate (fun _ => .unknown) field
  have right := m.compile_relocate (fun _ => .unknown) field
  rw [withoutSpans, withoutSpans] at same
  rw [same, right] at left
  rcases first : n.compile field with e | c <;> rcases second : m.compile field with e' | c' <;>
    simp only [first, second] at left
  · exact .inr ⟨e, e', rfl, rfl, (Except.error.inj left).symm⟩
  · cases left
  · cases left
  · exact .inl ⟨c, c', rfl, rfl, (Except.ok.inj left).symm⟩

/-- A template that declares a variable and stores its parameter in it, all of it at one span. -/
def Node.copyAt (span : Span) : Node :=
  .template span "Copy" ["n"] <| .block span
    [.declare span "VARIABLE" (.var span "x" []),
      .op span "=" [.var span "x" [], .var span "n" []]]

theorem Node.compile_of_withoutSpans_eq_copyAt :
    let n := Node.copyAt .unknown
    let m := Node.copyAt (.line 7 1 24)
    n.withoutSpans = m.withoutSpans ∧
      ((∃ c c', n.compile .bn254 = .ok c ∧ m.compile .bn254 = .ok c' ∧
        c.withoutSpans = c'.withoutSpans) ∨
      ∃ e e', n.compile .bn254 = .error e ∧ m.compile .bn254 = .error e' ∧
        e.withoutSpans = e'.withoutSpans) :=
  ⟨rfl, Node.compile_of_withoutSpans_eq rfl rfl rfl⟩

end ArithCircuit
