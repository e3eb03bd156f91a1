import ArithCircuit.Ast.Node

set_option autoImplicit false
set_option relaxedAutoImplicit false

/-!
# Symbols and diagnostics

What a name can stand for, and the ways in which lowering a source tree fails. Every diagnostic is
tied to the span of the node at fault.
-/

namespace ArithCircuit

/-- What a declared name stands for. -/
inductive SymbolKind where
  | var
  | signal
  | component
  | template
  | function
  deriving DecidableEq, Repr

namespace SymbolKind

/-- All kinds of symbols. -/
def all : List SymbolKind := [var, signal, component, template, function]

/-- The word for a kind in diagnostics. -/
def text : SymbolKind → String
  | var => "variable"
  | signal => "signal"
  | component => "component"
  | template => "template"
  | function => "function"

/-- What a declaration makes of its name. -/
def ofDeclaration : DeclarationKind → SymbolKind
  | .signalInput | .signalOutput | .signal => signal
  | .var => var
  | .component => component

end SymbolKind

/-- A declared name: what it stands for and where it was introduced. -/
structure Symbol where
  kind : SymbolKind
  span : Span
  deriving DecidableEq, Repr

/-- What a node is needed for that cannot serve. -/
inductive NodeRole where
  | expression
  | declaredName
  | body
  deriving DecidableEq, Repr

/-- The words for what a node is needed for. -/
def NodeRole.text : NodeRole → String
  | expression => "expression"
  | declaredName => "identifier"
  | body => "BLOCK"

/-- What a name is used as. -/
inductive NameRole where
  | value
  | component
  deriving DecidableEq, Repr

/-- The words for what a name is used as. -/
def NameRole.text : NameRole → String
  | value => "variable or signal"
  | component => "component"

/-- Why an assignment is refused. -/
inductive AssignmentFault where
  /-- The name stands for a template or function. -/
  | definedName (kind : SymbolKind) (name : String)
  /-- The node names no place to store in. -/
  | target (kind : NodeKind)
  /-- The node names no place whose value can be read back. -/
  | update (kind : NodeKind)
  | constrainComponent
  | incrementComponent
  deriving DecidableEq, Repr

/-- The words for a refused assignment. -/
def AssignmentFault.text : AssignmentFault → String
  | definedName kind name => s!"cannot assign to {kind.text} {name}"
  | target kind => s!"cannot assign to {kind.tag}"
  | update kind => s!"cannot update {kind.tag} in place"
  | constrainComponent => "cannot constrain a component"
  | incrementComponent => "cannot increment a component"

/-- Why a source tree cannot be lowered. -/
inductive LoweringError where
  | invalidNode (role : NodeRole) (actual : NodeKind) (span : Span)
  | invalidOperator (symbol : String) (span : Span)
  | invalidDeclaration (tag : String) (span : Span)
  | operandCount (symbol : String) (expected actual : Nat) (span : Span)
  | invalidAssignment (fault : AssignmentFault) (span : Span)
  /-- A name is introduced a second time; `previous` is where it was first. -/
  | collision (name : String) (span previous : Span)
  | unresolved (name : String) (span : Span)
  | wrongSymbol (name : String) (found : SymbolKind) (role : NameRole) (span : Span)
  deriving DecidableEq, Repr

namespace LoweringError

/-- The span of the node at fault. -/
def span : LoweringError → Span
  | invalidNode _ _ span => span
  | invalidOperator _ span => span
  | invalidDeclaration _ span => span
  | operandCount _ _ _ span => span
  | invalidAssignment _ span => span
  | collision _ span _ => span
  | unresolved _ span => span
  | wrongSymbol _ _ _ span => span

/-- What is wrong, without the place. -/
def reason : LoweringError → String
  | invalidNode role actual _ =>
    s!"invalid node kind: expected {role.text}, got {actual.tag}"
  | invalidOperator symbol _ => s!"invalid operation: {symbol}"
  | invalidDeclaration tag _ => s!"invalid declaration: {tag}"
  | operandCount symbol expected actual _ =>
    s!"operator {symbol} takes {expected} operands, got {actual}"
  | invalidAssignment fault _ => s!"invalid assignment: {fault.text}"
  | collision name _ previous => s!"name already exists: {name} (declared at {previous.text})"
  | unresolved name _ => s!"use of undeclared identifier: {name}"
  | wrongSymbol name found role _ => s!"{name} is a {found.text}, expected {role.text}"

/-- The diagnostic: the place, then what is wrong. -/
def message (e : LoweringError) : String := s!"{e.span.text}: {e.reason}"

end LoweringError

end ArithCircuit
