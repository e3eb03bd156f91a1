import ArithCircuit.Ast.Operator
import ArithCircuit.Program.Expr

set_option autoImplicit false
set_option relaxedAutoImplicit false

/-!
# Field arithmetic

What the operators of the source become over operands that are lowered already. Field operators
reduce by the modulus. Subtraction and negation add the modulus first, so that no intermediate value
is negative. Bitwise operators work on the raw integers and are bounded by the mask instead.
-/

namespace ArithCircuit.Arithmetic

/-- Shifts by more than this yield 0. -/
def shiftLimit : Nat := 256

/-- `a mod P` -/
def reduce (a : Expr) : Expr := .binary .mod a .prime

/-- `a & MASK` -/
def masked (a : Expr) : Expr := .binary .bitAnd a .mask

/-- The sum `(a + b) mod P`. -/
def add (a b : Expr) : Expr := reduce (.binary .add a b)

/-- The difference `(a + P - b) mod P`. -/
def sub (a b : Expr) : Expr := reduce (.binary .sub (.binary .add a .prime) b)

/-- The negative `(P - a) mod P`. -/
def neg (a : Expr) : Expr := reduce (.binary .sub .prime a)

/-- The product `(a * b) mod P`. -/
def mul (a b : Expr) : Expr := reduce (.binary .mul a b)

/-- The power `a ^ b mod P`; the exponent is used as it is. -/
def pow (a b : Expr) : Expr := .modPow a b .prime

/-- The conjunction `(a & b) & MASK`. -/
def bitAnd (a b : Expr) : Expr := masked (.binary .bitAnd a b)

/-- A masked shift, or 0 if the amount is beyond the limit. The amount is evaluated twice. -/
def boundedShift (op : BigIntOp) (a b : Expr) : Expr :=
  .select (.binary .gt b (.ofNat shiftLimit)) (.ofNat 0) (masked (.binary op a b))

/-- The shift to the left. -/
def shl (a b : Expr) : Expr := boundedShift .shl a b

/-- The shift to the right. -/
def shr (a b : Expr) : Expr := boundedShift .shr a b

/-- 1 if `a < b` as raw integers, else 0. -/
def lt (a b : Expr) : Expr := .binary .lt a b

/-- 1 if `a = b`, else 0. -/
def eq (a b : Expr) : Expr := .binary .eq a b

/-- The choice by a condition; only the chosen part is evaluated. -/
def ternary (condition whenTrue whenFalse : Expr) : Expr :=
  .select (.binary .ne condition (.ofNat 0)) whenTrue whenFalse

/-- The value after counting up. -/
def increment (a : Expr) : Expr := add a (.ofNat 1)

/-- The value before counting up, given the value after. -/
def previousValue (a : Expr) : Expr := sub a (.ofNat 1)

/-- The arithmetic of an operator on two values, if it is one. -/
def binary? : Operator → Option (Expr → Expr → Expr)
  | .add => some add
  | .sub => some sub
  | .mul => some mul
  | .pow => some pow
  | .bitAnd => some bitAnd
  | .shl => some shl
  | .shr => some shr
  | .lt => some lt
  | .eq => some eq
  | _ => none

end ArithCircuit.Arithmetic
