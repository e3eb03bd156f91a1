import ArithCircuit.Lowering.Operand

set_option autoImplicit false
set_option relaxedAutoImplicit false

/-!
# Lowering source trees

One pass over the tree turns nodes into expressions and statements of the compiled circuit. A
declaration takes effect when it is met, so a name is visible behind it only. The first failure ends
the pass. `Node.lower` is that pass, and `Node.compile` runs it on a whole compilation unit.
-/

namespace ArithCircuit

mutual

/-- Lower a node. -/
def Node.lower : Node → Lowering Fragment
  | .number _ value => return .expr (.ofNat value)
  | .var span name selectors => do
    let symbol ← Lowering.resolve name span
    let indices ← Node.lowerValues selectors
    let cell ← cellOf name indices span symbol.kind
    return .expr (.get cell)
  | .pin span component componentSelectors name selectors => do
    resolveComponent component span
    let componentIndices ← Node.lowerValues componentSelectors
    let indices ← Node.lowerValues selectors
    return .expr (.get (.pin component componentIndices name indices))
  | .op span symbol operands =>
    match Operator.ofSymbol? symbol with
    | some operator => Operand.operate span operator (Node.operands operands)
    | none => throw (.invalidOperator symbol span)
  | .declare span tag name => do
    let _ ← declareNode tag name span
    return .nothing
  | .call _ name args => do
    -- The callee is found by its name at run time, so it need not be known yet.
    let values ← Node.lowerValues args
    return .expr (.call name values)
  | .block _ statements => do
    let body ← Node.lowerStatements statements
    return .stmt (.block body)
  | .forLoop _ init condition step body => do
    let init ← init.lower
    let condition ← valueOf condition condition.lower
    let step ← step.lower
    let body ← body.lower
    return .stmt (.forLoop init.statement? condition step.statement?
      (body.statement?.getD (.block [])))
  | .whileLoop _ condition body => do
    let condition ← valueOf condition condition.lower
    let body ← body.lower
    return .stmt (.whileLoop condition (body.statement?.getD (.block [])))
  | .ret _ value => do
    let e ← valueOf value value.lower
    return .stmt (.ret e)
  | .template span name params body => do
    let statements ← Node.lowerBody params span body
    Lowering.registerTemplate name ⟨params, statements, span⟩
    return .nothing
  | .function span name params body => do
    let statements ← Node.lowerBody params span body
    Lowering.registerFunction name ⟨params, statements, span⟩
    return .nothing
  | .inclusion _ _ content => Node.lowerOption content
  | .array _ items => do
    let values ← Node.lowerValues items
    return .expr (.array values)

/-- Find the cell that an assignment to a node stores in. -/
def Node.lowerTarget : Node → Span → Lowering (Option Cell)
  | .declare declaration tag name, span => do
    let name ← declareNode tag name declaration
    let symbol ← Lowering.resolve name span
    targetOf name [] span symbol.kind
  | .pin target component componentSelectors name selectors, _ => do
    resolveComponent component target
    let componentIndices ← Node.lowerValues componentSelectors
    let indices ← Node.lowerValues selectors
    return some (.pin component componentIndices name indices)
  | .var target name selectors, _ => do
    let indices ← Node.lowerValues selectors
    let symbol ← Lowering.resolve name target
    targetOf name indices target symbol.kind
  | other, span => throw (.invalidAssignment (.target other.kind) span)

/-- Lower the body of a definition in a level of its own, which holds the parameters as variables.
-/
def Node.lowerBody (params : List String) (span : Span) : Node → Lowering (List Stmt)
  | .block _ statements =>
    Lowering.inLevel do
      params.forM fun param => Lowering.declare param .var span
      Node.lowerStatements statements
  | other => throw (.invalidNode .body other.kind other.span)

/-- Lower nodes as values, one after the other. -/
def Node.lowerValues : List Node → Lowering (List Expr)
  | [] => return []
  | n :: ns => do
    let e ← valueOf n n.lower
    let es ← Node.lowerValues ns
    return e :: es

/-- Lower nodes as statements, one after the other; those that yield no code are left out. -/
def Node.lowerStatements : List Node → Lowering (List Stmt)
  | [] => return []
  | n :: ns => do
    let fragment ← n.lower
    let ss ← Node.lowerStatements ns
    return fragment.statement?.toList ++ ss

/-- Lower a node that may be absent. -/
def Node.lowerOption : Option Node → Lowering Fragment
  | none => return .nothing
  | some n => n.lower

/-- The operands that nodes are. -/
def Node.operands : List Node → List Operand
  | [] => []
  | n :: ns => ⟨n, valueOf n n.lower, n.lowerTarget⟩ :: Node.operands ns

end

namespace Node

/-- A node as an operand. -/
def operand (n : Node) : Operand := ⟨n, valueOf n n.lower, n.lowerTarget⟩

/-- Lower a node as a value. -/
def lowerValue (n : Node) : Lowering Expr := valueOf n n.lower

/-- Lower a node as a statement, if it yields any code. -/
def lowerStatement (n : Node) : Lowering (Option Stmt) := Fragment.statement? <$> n.lower

/-- Lower a node as a part of a compilation unit. The first error is recorded, and from then on it
is the answer to every further part. -/
def generate (n : Node) : Lowering Fragment := do
  let ctx ← get
  match ctx.failure with
  | some e => throw e
  | none =>
    tryCatch n.lower fun e => do
      modify fun ctx => { ctx with failure := some e }
      throw e

/-- Lower a whole compilation unit and collect its templates and functions. -/
def compile (root : Node) (field : Field) : Except LoweringError Circuit :=
  match Lowering.runFrom .empty root.generate with
  | (.ok _, ctx) => ctx.circuit field
  | (.error e, _) => .error e

end Node

end ArithCircuit
