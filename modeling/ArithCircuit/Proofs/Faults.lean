import ArithCircuit.Proofs.Introductions

set_option autoImplicit false
set_option relaxedAutoImplicit false

/-!
# Faults

What an error says about a node of the unit that it comes from: `Node.Shows` has one case for each
way in which a node can be at fault. The place of an error is that of the node that shows its fault.
-/

namespace ArithCircuit

open Lowering

/-! ### Faults -/

namespace Node

/-- The nodes right below a node whose values it needs. -/
def expressions : Node → List Node
  | .var _ _ selectors => selectors
  | .pin _ _ componentSelectors _ selectors => componentSelectors ++ selectors
  | .op _ symbol operands =>
    if (Operator.ofSymbol? symbol).any Operator.stores then operands.tail else operands
  | .call _ _ args => args
  | .forLoop _ _ condition _ _ => [condition]
  | .whileLoop _ condition _ => [condition]
  | .ret _ value => [value]
  | .array _ items => items
  | _ => []

/-- The body of a definition. -/
def body? : Node → Option Node
  | .template _ _ _ body => some body
  | .function _ _ _ body => some body
  | _ => none

/-- A node can be lowered somewhere without having a value. -/
def LacksValue (n : Node) : Prop :=
  ∃ ctx fragment ctx', runFrom ctx n.lower = (.ok fragment, ctx') ∧ ∀ e, fragment ≠ .expr e

/-- A node of a unit shows the fault that an error tells of; names are introduced in some order. -/
inductive Shows (root : Node) (trace : List Introduction) : Node → LoweringError → Prop where
  | unknownOperator {span : Span} {symbol : String} {operands : List Node} :
      Operator.ofSymbol? symbol = none →
      Shows root trace (.op span symbol operands) (.invalidOperator symbol span)
  | operandCount {span : Span} {op : Operator} {operands : List Node} :
      operands.length ≠ op.arity →
      Shows root trace (.op span op.symbol operands)
        (.operandCount op.symbol op.arity operands.length span)
  | unknownTag {span : Span} {tag : String} {name : Node} :
      DeclarationKind.ofTag? tag = none →
      Shows root trace (.declare span tag name) (.invalidDeclaration tag span)
  | noValue {n parent : Node} :
      root.Contains parent → n ∈ parent.expressions → n.LacksValue →
      Shows root trace n (.invalidNode .expression n.kind n.span)
  | noName {span : Span} {tag : String} {n : Node} :
      root.Contains (.declare span tag n) → n.kind ≠ .var →
      Shows root trace n (.invalidNode .declaredName n.kind n.span)
  | noBody {definition n : Node} :
      root.Contains definition → definition.body? = some n → n.kind ≠ .block →
      Shows root trace n (.invalidNode .body n.kind n.span)
  | noTarget {span : Span} {op : Operator} {target : Node} {values : List Node} :
      op.stores = true → op.updates = false → target.kind ∉ [NodeKind.declare, .var, .pin] →
      Shows root trace (.op span op.symbol (target :: values))
        (.invalidAssignment (.target target.kind) span)
  | noReference {span : Span} {op : Operator} {target : Node} {values : List Node} :
      op.updates = true → target.kind ∉ [NodeKind.var, .pin] →
      Shows root trace (.op span op.symbol (target :: values))
        (.invalidAssignment (.update target.kind) span)
  | constrainedComponent {span : Span} {target value : Node} :
      target.kind ∈ [NodeKind.declare, .var] →
      Shows root trace (.op span Operator.constrainedAssign.symbol [target, value])
        (.invalidAssignment .constrainComponent span)
  | incrementedComponent {span : Span} {op : Operator} {target : Node} :
      op = .postIncrement ∨ op = .preIncrement → target.kind = .var →
      Shows root trace (.op span op.symbol [target]) (.invalidAssignment .incrementComponent span)
  | definedName {span at' : Span} {op : Operator} {name : String} {selectors values : List Node}
      {kind : SymbolKind} :
      root.Contains (.op span op.symbol (.var at' name selectors :: values)) → op.stores = true →
      kind = .template ∨ kind = .function →
      Shows root trace (.var at' name selectors) (.invalidAssignment (.definedName kind name) at')
  | unresolved {span : Span} {name : String} {selectors : List Node} :
      Shows root trace (.var span name selectors) (.unresolved name span)
  | unresolvedComponent {span : Span} {component pin : String}
      {componentSelectors selectors : List Node} :
      Shows root trace (.pin span component componentSelectors pin selectors)
        (.unresolved component span)
  | wrongSymbol {span : Span} {name : String} {selectors : List Node} {kind : SymbolKind} :
      kind ≠ .var → kind ≠ .signal →
      Shows root trace (.var span name selectors) (.wrongSymbol name kind .value span)
  | wrongComponent {span : Span} {component pin : String}
      {componentSelectors selectors : List Node} {kind : SymbolKind} :
      kind ≠ .component →
      Shows root trace (.pin span component componentSelectors pin selectors)
        (.wrongSymbol component kind .component span)
  | collision {earlier later : Introduction} :
      List.Sublist [earlier, later] trace → earlier.Clashes later → root.Contains earlier.node →
      Shows root trace later.node (.collision later.name later.node.span earlier.node.span)

theorem Shows.span_eq {root n : Node} {trace : List Introduction} {e : LoweringError}
    (shows : root.Shows trace n e) : n.span = e.span := by
  cases shows <;> rfl

theorem Shows.append {root n : Node} {trace : List Introduction} {e : LoweringError}
    (shows : root.Shows trace n e) (more : List Introduction) : root.Shows (trace ++ more) n e := by
  cases shows with
  | collision order clashes inside =>
    exact .collision (order.trans (List.sublist_append_left _ _)) clashes inside
  | unknownOperator unknown => exact .unknownOperator unknown
  | operandCount other => exact .operandCount other
  | unknownTag unknown => exact .unknownTag unknown
  | noValue inside expected lacks => exact .noValue inside expected lacks
  | noName inside other => exact .noName inside other
  | noBody inside body other => exact .noBody inside body other
  | noTarget stores updates other => exact .noTarget stores updates other
  | noReference updates other => exact .noReference updates other
  | constrainedComponent kind => exact .constrainedComponent kind
  | incrementedComponent op kind => exact .incrementedComponent op kind
  | definedName inside stores kind => exact .definedName inside stores kind
  | unresolved => exact .unresolved
  | unresolvedComponent => exact .unresolvedComponent
  | wrongSymbol noVar noSignal => exact .wrongSymbol noVar noSignal
  | wrongComponent other => exact .wrongComponent other

theorem expressions_op (span : Span) (op : Operator) (operands : List Node) :
    (Node.op span op.symbol operands).expressions =
      if op.stores then operands.tail else operands := by
  rw [expressions, Operator.ofSymbol?_symbol]
  rfl

theorem expressions_subset_children (n : Node) : n.expressions ⊆ n.children := by
  cases n
  case op span symbol operands =>
    rw [expressions]
    split
    · exact (List.tail_sublist operands).subset
    · exact List.Subset.refl _
  all_goals simp [expressions, children]

end Node

theorem Node.Contains.expressions {root n m : Node} (inside : root.Contains n)
    (expected : m ∈ n.expressions) : root.Contains m :=
  inside.child (n.expressions_subset_children expected)

theorem Node.mem_children_of_body? {n body : Node} (same : n.body? = some body) :
    body ∈ n.children := by
  cases n
  case template | function =>
    cases same
    exact .head _
  all_goals cases same

/-- A reference always has a value. -/
theorem Node.exists_expr_of_isReference {n : Node} {ctx ctx' : Context} {fragment : Fragment}
    (reference : n.isReference = true) (ran : runFrom ctx n.lower = (.ok fragment, ctx')) :
    ∃ e, fragment = .expr e := by
  cases n
  case var =>
    simp only [Node.lower, runFrom_bind_eq_ok, runFrom_pure_eq_ok] at ran
    obtain ⟨_, _, -, _, _, -, _, _, -, rfl, -⟩ := ran
    exact ⟨_, rfl⟩
  case pin =>
    simp only [Node.lower, runFrom_bind_eq_ok, runFrom_pure_eq_ok] at ran
    obtain ⟨_, _, -, _, _, -, _, _, -, rfl, -⟩ := ran
    exact ⟨_, rfl⟩
  all_goals cases reference

/-- A name that has just been declared can be assigned to. -/
theorem exists_target_of_declareNode {ctx ctx' : Context} {tag declared : String} {node : Node}
    {at' : Span} (ran : runFrom ctx (declareNode tag node at') = (.ok declared, ctx'))
    (span : Span) :
    ∃ found, runFrom ctx' (do
      let symbol ← Lowering.resolve declared span
      targetOf declared [] span symbol.kind) = (.ok found, ctx') := by
  obtain ⟨kind, _, _, -, -, declaration⟩ := runFrom_declareNode_eq_ok.1 ran
  obtain ⟨scope, added, rfl⟩ := runFrom_declare_eq_ok.1 declaration
  have present : scope.lookup? declared = some ⟨.ofDeclaration kind, at'⟩ := by
    rw [Scope.lookup?_of_declare added, if_pos rfl]
  simp only [runFrom_bind, runFrom_resolve, present]
  cases kind <;> exact ⟨_, rfl⟩

/-- A unit has a node that shows the fault that an error tells of. -/
def LoweringError.Diagnosed (root : Node) (trace : List Introduction) (e : LoweringError) : Prop :=
  ∃ n, root.Contains n ∧ root.Shows trace n e

end ArithCircuit
