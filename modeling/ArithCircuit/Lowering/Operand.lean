import ArithCircuit.Lowering.Arithmetic
import ArithCircuit.Lowering.Context

set_option autoImplicit false
set_option relaxedAutoImplicit false

/-!
# What operators do with their operands

An operand holds the ways in which an operator may use a node: lower it as a value, or find the cell
that an assignment to it stores in. `Operand.operate` decides for each operator which of them it
takes, in which order and how often. How nodes are lowered plays no part in it.
-/

namespace ArithCircuit

/-- What lowering a node yields. -/
inductive Fragment where
  /-- Only the context has changed. -/
  | nothing
  | expr (e : Expr)
  | stmt (s : Stmt)

namespace Fragment

/-- The fragment as a statement, if there is any code. -/
def statement? : Fragment → Option Stmt
  | nothing => none
  | expr e => some (.expr e)
  | stmt s => some s

/-- The fragment of a store that a component as its target makes void. -/
def ofStore : Option Expr → Fragment
  | none => nothing
  | some e => expr e

end Fragment

/-! ### Names and cells -/

/-- The cell that a name stands for when its value is used. -/
def cellOf (name : String) (indices : List Expr) (span : Span) : SymbolKind → Lowering Cell
  | .var => return .var name indices
  | .signal => return .signal name indices
  | found => throw (.wrongSymbol name found .value span)

/-- The cell that a name stands for when it is assigned to. There is none for a component: the
runtime makes components, and only their names are bound. -/
def targetOf (name : String) (indices : List Expr) (span : Span) :
    SymbolKind → Lowering (Option Cell)
  | .var => return some (.var name indices)
  | .signal => return some (.signal name indices)
  | .component => return none
  | found => throw (.invalidAssignment (.definedName found name) span)

/-- Make sure that a name stands for a component. -/
def resolveComponent (name : String) (span : Span) : Lowering Unit := do
  let symbol ← Lowering.resolve name span
  if symbol.kind = .component then return ()
  else throw (.wrongSymbol name symbol.kind .component span)

/-- The value of a plain name. -/
def readName (name : String) (span : Span) : Lowering Expr := do
  let symbol ← Lowering.resolve name span
  .get <$> cellOf name [] span symbol.kind

/-- Declare the name of a declaration. Selectors on it are array dimensions, which the runtime looks
after. -/
def declareNode (tag : String) (name : Node) (span : Span) : Lowering String :=
  match DeclarationKind.ofTag? tag with
  | none => throw (.invalidDeclaration tag span)
  | some kind =>
    match name with
    | .var _ name _ => do
      Lowering.declare name (.ofDeclaration kind) span
      return name
    | other => throw (.invalidNode .declaredName other.kind other.span)

/-! ### Operands -/

/-- The value of a node, given what lowering it yields. -/
def valueOf (node : Node) (step : Lowering Fragment) : Lowering Expr := do
  match ← step with
  | .expr e => return e
  | _ => throw (.invalidNode .expression node.kind node.span)

/-- A node as an operator sees it. -/
structure Operand where
  node : Node
  /-- Lower the node as a value. -/
  value : Lowering Expr
  /-- Find the cell that an assignment to the node stores in, if it is no component. The span is
  that of the assignment. -/
  target : Span → Lowering (Option Cell)

namespace Operand

/-- Store a value in a target. The target is checked before the value is lowered, and a component
takes no value at all. -/
def store (span : Span) (target : Operand) (value : Lowering Expr) : Lowering (Option Expr) := do
  match ← target.target span with
  | none => return none
  | some cell =>
    let e ← value
    return some (.set cell e)

/-- An operator that updates its target in place needs a plain reference. -/
def requireReference (span : Span) (target : Operand) : Lowering Unit :=
  match target.node with
  | .var _ _ _ => return ()
  | .pin _ _ _ _ _ => return ()
  | other => throw (.invalidAssignment (.update other.kind) span)

/-- Store the value of a target combined with another value. -/
def update (combine : Expr → Expr → Expr) (span : Span) (target value : Operand) :
    Lowering Fragment := do
  requireReference span target
  let stored ← store span target do
    let current ← target.value
    let operand ← value.value
    return combine current operand
  return .ofStore stored

/-- Count a target up; the result is the new value or, afterwards, the old one. -/
def increment (post : Bool) (span : Span) (target : Operand) : Lowering Expr := do
  requireReference span target
  match ← store span target (Arithmetic.increment <$> target.value) with
  | none => throw (.invalidAssignment .incrementComponent span)
  | some e => return if post then Arithmetic.previousValue e else e

/-- Read back what was stored in a target. A fresh declaration is read by its plain name. -/
def readBack (target : Operand) : Lowering Expr :=
  match target.node with
  | .declare _ _ (.var span name _) => readName name span
  | _ => target.value

/-- Store a value and demand that the target then holds it. The value is lowered once; the store
comes first, and the target is read after it. -/
def constrainedStore (span : Span) (target value : Operand) : Lowering Expr := do
  match ← store span target value.value with
  | none => throw (.invalidAssignment .constrainComponent span)
  | some stored =>
    let back ← readBack target
    return .assertEqual stored back

/-- Demand that two values are equal. -/
def constrain (lhs rhs : Operand) : Lowering Expr := do
  let a ← lhs.value
  let b ← rhs.value
  return .assertEqual a b

/-- Lower an operation over its operands. -/
def operate (span : Span) (op : Operator) (operands : List Operand) : Lowering Fragment :=
  match op, operands with
  | .assign, [target, value] => .ofStore <$> store span target value.value
  | .signalAssign, [target, value] => .ofStore <$> store span target value.value
  | .constrainedAssign, [target, value] => .expr <$> constrainedStore span target value
  | .constrain, [lhs, rhs] => .expr <$> constrain lhs rhs
  | .addAssign, [target, value] => update Arithmetic.add span target value
  | .mulAssign, [target, value] => update Arithmetic.mul span target value
  | .postIncrement, [target] => .expr <$> increment true span target
  | .preIncrement, [target] => .expr <$> increment false span target
  | .neg, [operand] => do
    let a ← operand.value
    return .expr (Arithmetic.neg a)
  | .ternary, [condition, whenTrue, whenFalse] => do
    let c ← condition.value
    let a ← whenTrue.value
    let b ← whenFalse.value
    return .expr (Arithmetic.ternary c a b)
  | op, [lhs, rhs] =>
    if op.arity = 2 then do
      let a ← lhs.value
      let b ← rhs.value
      match Arithmetic.binary? op with
      | some combine => return .expr (combine a b)
      -- The operators that are left all compute something.
      | none => throw (.invalidOperator op.symbol span)
    else throw (.operandCount op.symbol op.arity 2 span)
  | op, operands => throw (.operandCount op.symbol op.arity operands.length span)

end Operand

end ArithCircuit
