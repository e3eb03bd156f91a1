import ArithCircuit.Program.Circuit
import ArithCircuit.Text.Quoted

set_option autoImplicit false
set_option relaxedAutoImplicit false

/-!
# The structure of code, spelled out

A diagnostic that is about a statement as such shows its structure: the name of each part with what
it holds, in round brackets or, if the parts have names, in braces.
-/

namespace ArithCircuit

open Text (quoted)

/-- A part that holds values without names. -/
def dumpParts (name : String) (parts : List String) : String :=
  name ++ "(" ++ ", ".intercalate parts ++ ")"

/-- A part that holds values under names. -/
def dumpFields (name : String) (fields : List (String × String)) : String :=
  name ++ " \x7b " ++ ", ".intercalate (fields.map fun f => f.1 ++ ": " ++ f.2) ++ " \x7d"

/-- Values in brackets. -/
def dumpList (items : List String) : String := "[" ++ ", ".intercalate items ++ "]"

/-- The name of an operation in a dump. -/
def BigIntOp.dump : BigIntOp → String
  | add => "Add"
  | sub => "Sub"
  | mul => "Mul"
  | mod => "Mod"
  | bitAnd => "BitAnd"
  | shl => "Shl"
  | shr => "Shr"
  | lt => "Lt"
  | gt => "Gt"
  | eq => "Eq"
  | ne => "Ne"

/-- The name of the reading of a cell in a dump. -/
def Cell.getterDump : Cell → String
  | .var _ _ => "GetVariable"
  | .signal _ _ => "GetSignal"
  | .pin _ _ _ _ => "GetPin"

/-- The name of the writing of a cell in a dump. -/
def Cell.setterDump : Cell → String
  | .var _ _ => "SetVariable"
  | .signal _ _ => "SetSignal"
  | .pin _ _ _ _ => "SetPin"

mutual

/-- The structure of an expression. -/
def Expr.dump : Expr → String
  | .number text => dumpParts "Number" [quoted text]
  | .prime => "Prime"
  | .mask => "Mask"
  | .binary op lhs rhs =>
    dumpFields "Binary" [("op", op.dump), ("lhs", lhs.dump), ("rhs", rhs.dump)]
  | .modPow base exponent modulus =>
    dumpFields "ModPow"
      [("base", base.dump), ("exponent", exponent.dump), ("modulus", modulus.dump)]
  | .select condition whenTrue whenFalse =>
    dumpFields "Select"
      [("condition", condition.dump), ("then", whenTrue.dump), ("otherwise", whenFalse.dump)]
  | .get cell => dumpFields cell.getterDump cell.dumpedFields
  | .set cell value =>
    dumpFields cell.setterDump (cell.dumpedFields ++ [("value", value.dump)])
  | .assertEqual lhs rhs => dumpFields "AssertEqual" [("lhs", lhs.dump), ("rhs", rhs.dump)]
  | .call name args =>
    dumpFields "CallFunction" [("name", quoted name), ("args", dumpList (Expr.dumpAll args))]
  | .array items => dumpParts "Array" [dumpList (Expr.dumpAll items)]

/-- The fields that say which cell is meant. -/
def Cell.dumpedFields : Cell → List (String × String)
  | .var name indices =>
    [("name", quoted name), ("indices", dumpList (Expr.dumpAll indices))]
  | .signal name indices =>
    [("name", quoted name), ("indices", dumpList (Expr.dumpAll indices))]
  | .pin component componentIndices pin pinIndices =>
    [("component", quoted component),
      ("component_indices", dumpList (Expr.dumpAll componentIndices)),
      ("pin", quoted pin), ("pin_indices", dumpList (Expr.dumpAll pinIndices))]

/-- The structures of expressions. -/
def Expr.dumpAll : List Expr → List String
  | [] => []
  | e :: es => e.dump :: Expr.dumpAll es

end

mutual

/-- The structure of a statement. -/
def Stmt.dump : Stmt → String
  | .expr e => dumpParts "Expr" [e.dump]
  | .block body => dumpParts "Block" [dumpList (Stmt.dumpAll body)]
  | .forLoop init condition step body =>
    dumpFields "For"
      [("init", Stmt.dumpOption init), ("condition", condition.dump),
        ("step", Stmt.dumpOption step), ("body", body.dump)]
  | .whileLoop condition body =>
    dumpFields "While" [("condition", condition.dump), ("body", body.dump)]
  | .ret e => dumpParts "Return" [e.dump]

/-- The structure of a statement that may be absent. -/
def Stmt.dumpOption : Option Stmt → String
  | none => "None"
  | some s => dumpParts "Some" [s.dump]

/-- The structures of statements. -/
def Stmt.dumpAll : List Stmt → List String
  | [] => []
  | s :: ss => s.dump :: Stmt.dumpAll ss

end

end ArithCircuit
