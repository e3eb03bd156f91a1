import ArithCircuit.Program.Circuit
import ArithCircuit.Text.Quoted

set_option autoImplicit false
set_option relaxedAutoImplicit false

/-!
# Expressions on one line

Listings write arithmetic as calls of the operations by name and everything else as calls of the
runtime, with names between quotes and indices in brackets.
-/

namespace ArithCircuit

open Text (quoted)

/-- Texts with a comma and a blank between them. -/
def commaList (l : List String) : String := ", ".intercalate l

mutual

/-- An expression on one line. -/
def Expr.render : Expr → String
  | .number text => text
  | .prime => "P"
  | .mask => "MASK"
  | .binary op lhs rhs => op.name ++ "(" ++ lhs.render ++ ", " ++ rhs.render ++ ")"
  | .modPow base exponent modulus =>
    "modpow(" ++ base.render ++ ", " ++ exponent.render ++ ", " ++ modulus.render ++ ")"
  | .select condition whenTrue whenFalse =>
    "(" ++ condition.render ++ " ? " ++ whenTrue.render ++ " : " ++ whenFalse.render ++ ")"
  | .get cell => cell.getterName ++ "(" ++ cell.render ++ ")"
  | .set cell value => cell.setterName ++ "(" ++ cell.render ++ ", " ++ value.render ++ ")"
  | .assertEqual lhs rhs => "assertEqual(" ++ lhs.render ++ ", " ++ rhs.render ++ ")"
  | .call name args =>
    "callFunction(" ++ quoted name ++ ", [" ++ commaList (Expr.renderAll args) ++ "])"
  | .array items => "[" ++ commaList (Expr.renderAll items) ++ "]"

/-- The arguments that say which cell is meant. -/
def Cell.render : Cell → String
  | .var name indices => quoted name ++ ", [" ++ commaList (Expr.renderAll indices) ++ "]"
  | .signal name indices => quoted name ++ ", [" ++ commaList (Expr.renderAll indices) ++ "]"
  | .pin component componentIndices pin pinIndices =>
    quoted component ++ ", [" ++ commaList (Expr.renderAll componentIndices) ++ "], " ++
      quoted pin ++ ", [" ++ commaList (Expr.renderAll pinIndices) ++ "]"

/-- Expressions on one line each. -/
def Expr.renderAll : List Expr → List String
  | [] => []
  | e :: es => e.render :: Expr.renderAll es

end

end ArithCircuit
