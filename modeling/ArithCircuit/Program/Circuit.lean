import ArithCircuit.Field
import ArithCircuit.OrderedMap
import ArithCircuit.Program.Expr
import ArithCircuit.Span

set_option autoImplicit false
set_option relaxedAutoImplicit false

/-!
# Statements, definitions and circuits

A circuit is what the runtime loads: the field constants and the bodies of all templates and
functions by name. The parameter names of the functions are kept a second time, because the runtime
binds the arguments of a call by them.
-/

namespace ArithCircuit

/-- A statement of a compiled circuit. -/
inductive Stmt where
  | expr (e : Expr)
  | block (body : List Stmt)
  | forLoop (init : Option Stmt) (condition : Expr) (step : Option Stmt) (body : Stmt)
  | whileLoop (condition : Expr) (body : Stmt)
  | ret (e : Expr)

instance : Inhabited Stmt := ⟨.block []⟩

/-- The body of a template or function, with its parameters and the place it was defined at. -/
structure Definition where
  params : List String
  body : List Stmt
  span : Span

/-- The definitions of a circuit by name, oldest first. -/
structure Registry where
  templates : OrderedMap Definition
  functions : OrderedMap Definition
  functionParams : OrderedMap (List String)

/-- The registry without definitions. -/
def Registry.empty : Registry := ⟨∅, ∅, ∅⟩

/-- A compiled circuit. -/
structure Circuit where
  field : Field
  registry : Registry

namespace Circuit

/-- The circuit of a field without definitions. -/
def empty (field : Field) : Circuit := ⟨field, .empty⟩

/-- The template of a name. -/
def template? (c : Circuit) (name : String) : Option Definition := c.registry.templates.get? name

/-- The function of a name. -/
def function? (c : Circuit) (name : String) : Option Definition := c.registry.functions.get? name

end Circuit

end ArithCircuit
