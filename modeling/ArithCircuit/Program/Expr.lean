import ArithCircuit.Decimal

set_option autoImplicit false
set_option relaxedAutoImplicit false

/-!
# Expressions of compiled circuits

A compiled circuit is made of big-integer arithmetic and calls of the runtime. Expressions name the
field constants symbolically, so the same code serves every field. A `Cell` is a place that the
runtime stores a value in: a variable, a signal, or a pin of a component, each with its indices.
-/

namespace ArithCircuit

/-- An operation on integers of any size. The comparisons yield 1 or 0. -/
inductive BigIntOp where
  | add
  | sub
  | mul
  | mod
  | bitAnd
  | shl
  | shr
  | lt
  | gt
  | eq
  | ne
  deriving DecidableEq, Repr

namespace BigIntOp

/-- All operations, in the order in which they are offered as choices. -/
def all : List BigIntOp := [add, sub, mul, mod, bitAnd, shl, shr, lt, gt, eq, ne]

/-- The name of an operation in listings. -/
def name : BigIntOp → String
  | add => "add"
  | sub => "sub"
  | mul => "mul"
  | mod => "mod"
  | bitAnd => "and"
  | shl => "shl"
  | shr => "shr"
  | lt => "lt"
  | gt => "gt"
  | eq => "eq"
  | ne => "ne"

instance : ToString BigIntOp := ⟨name⟩

end BigIntOp

mutual

/-- An expression of a compiled circuit. -/
inductive Expr where
  /-- A literal, as decimal text. -/
  | number (text : String)
  /-- The modulus of the field. -/
  | prime
  /-- The bit mask of the field. -/
  | mask
  | binary (op : BigIntOp) (lhs rhs : Expr)
  /-- The power of a base, reduced by a modulus. -/
  | modPow (base exponent modulus : Expr)
  /-- The second part if the condition is not 0, else the third; the other one is not evaluated. -/
  | select (condition whenTrue whenFalse : Expr)
  | get (cell : Cell)
  /-- Store a value; the result is the value stored. -/
  | set (cell : Cell) (value : Expr)
  /-- Demand that two values are equal: a constraint of the circuit. -/
  | assertEqual (lhs rhs : Expr)
  | call (name : String) (args : List Expr)
  | array (items : List Expr)

/-- A place that holds a value at run time. -/
inductive Cell where
  | var (name : String) (indices : List Expr)
  | signal (name : String) (indices : List Expr)
  | pin (component : String) (componentIndices : List Expr) (pin : String)
    (pinIndices : List Expr)

end

instance : Inhabited Expr := ⟨.prime⟩

namespace Expr

/-- The literal for a natural number. -/
def ofNat (n : Nat) : Expr := number (Decimal.text n)

end Expr

/-- What the runtime calls the reading of a cell. -/
def Cell.getterName : Cell → String
  | .var _ _ => "getVariable"
  | .signal _ _ => "getSignal"
  | .pin _ _ _ _ => "getPin"

/-- What the runtime calls the writing of a cell. -/
def Cell.setterName : Cell → String
  | .var _ _ => "setVariable"
  | .signal _ _ => "setSignal"
  | .pin _ _ _ _ => "setPin"

/-- The call of the runtime that an expression is, if it is one; arithmetic is none. -/
def Expr.runtimeCall? : Expr → Option String
  | .get cell => some cell.getterName
  | .set cell _ => some cell.setterName
  | .assertEqual _ _ => some "assertEqual"
  | .call _ _ => some "callFunction"
  | _ => none

end ArithCircuit
