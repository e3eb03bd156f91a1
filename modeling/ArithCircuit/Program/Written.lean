import ArithCircuit.Program.Circuit
import ArithCircuit.Span.Written

set_option autoImplicit false
set_option relaxedAutoImplicit false

/-!
# Circuits as JSON

The stored form of a circuit. Numbers are decimal text, and operations and variants are words. An
expression or statement is an object with one member, whose key is the word for its kind, unless the
word says it all.
-/

namespace ArithCircuit

open Json (Value)

/-- The word for an operation in the stored form. -/
def BigIntOp.tag : BigIntOp → String
  | .bitAnd => "bit_and"
  | op => op.name

/-- The word for the reading of a cell. -/
def Cell.getterTag : Cell → String
  | .var _ _ => "get_variable"
  | .signal _ _ => "get_signal"
  | .pin _ _ _ _ => "get_pin"

/-- The word for the writing of a cell. -/
def Cell.setterTag : Cell → String
  | .var _ _ => "set_variable"
  | .signal _ _ => "set_signal"
  | .pin _ _ _ _ => "set_pin"

/-- An object with one member, whose key says which variant the value is of. -/
def tagged (tag : String) (v : Value) : Value := .object [(tag, v)]

mutual

/-- The stored form of an expression. -/
def Expr.toJson : Expr → Value
  | .number text => tagged "number" (.string text)
  | .prime => .string "prime"
  | .mask => .string "mask"
  | .binary op lhs rhs =>
    tagged "binary" (.object [("op", .string op.tag), ("lhs", lhs.toJson), ("rhs", rhs.toJson)])
  | .modPow base exponent modulus =>
    tagged "mod_pow" (.object [("base", base.toJson), ("exponent", exponent.toJson),
      ("modulus", modulus.toJson)])
  | .select condition whenTrue whenFalse =>
    tagged "select" (.object [("condition", condition.toJson), ("then", whenTrue.toJson),
      ("otherwise", whenFalse.toJson)])
  | .get cell => tagged cell.getterTag (.object cell.members)
  | .set cell value => tagged cell.setterTag (.object (cell.members ++ [("value", value.toJson)]))
  | .assertEqual lhs rhs =>
    tagged "assert_equal" (.object [("lhs", lhs.toJson), ("rhs", rhs.toJson)])
  | .call name args =>
    tagged "call_function"
      (.object [("name", .string name), ("args", .array (Expr.listToJson args))])
  | .array items => tagged "array" (.array (Expr.listToJson items))

/-- The members that say which cell is meant. -/
def Cell.members : Cell → List (String × Value)
  | .var name indices => [("name", .string name), ("indices", .array (Expr.listToJson indices))]
  | .signal name indices => [("name", .string name), ("indices", .array (Expr.listToJson indices))]
  | .pin component componentIndices pin pinIndices =>
    [("component", .string component),
      ("component_indices", .array (Expr.listToJson componentIndices)),
      ("pin", .string pin), ("pin_indices", .array (Expr.listToJson pinIndices))]

/-- The stored forms of expressions. -/
def Expr.listToJson : List Expr → List Value
  | [] => []
  | e :: es => e.toJson :: Expr.listToJson es

end

mutual

/-- The stored form of a statement. -/
def Stmt.toJson : Stmt → Value
  | .expr e => tagged "expr" e.toJson
  | .block body => tagged "block" (.array (Stmt.listToJson body))
  | .forLoop init condition step body =>
    tagged "for" (.object [("init", Stmt.optionToJson init), ("condition", condition.toJson),
      ("step", Stmt.optionToJson step), ("body", body.toJson)])
  | .whileLoop condition body =>
    tagged "while" (.object [("condition", condition.toJson), ("body", body.toJson)])
  | .ret e => tagged "return" e.toJson

/-- The stored form of a loop clause, which may be absent. -/
def Stmt.optionToJson : Option Stmt → Value
  | none => .null
  | some s => s.toJson

/-- The stored forms of statements. -/
def Stmt.listToJson : List Stmt → List Value
  | [] => []
  | s :: ss => s.toJson :: Stmt.listToJson ss

end

/-- The stored form of a definition. -/
def Definition.toJson (d : Definition) : Value :=
  .object [("params", .texts d.params), ("body", .array (Stmt.listToJson d.body)),
    ("span", d.span.toJson)]

/-- The stored form of a map. -/
def OrderedMap.toJson {α : Type} (f : α → Value) (m : OrderedMap α) : Value :=
  .object (m.entries.map fun e => (e.1, f e.2))

/-- The members for field constants. -/
def Field.members (field : Field) : List (String × Value) :=
  [("prime", .string (Decimal.text field.prime)), ("mask", .string (Decimal.text field.mask))]

/-- The stored form of field constants. -/
def Field.toJson (field : Field) : Value := .object field.members

/-- The stored form of a circuit. -/
def Circuit.toJson (c : Circuit) : Value :=
  .object (c.field.members ++
    [("templates", c.registry.templates.toJson Definition.toJson),
      ("functions", c.registry.functions.toJson Definition.toJson),
      ("function_params", c.registry.functionParams.toJson .texts)])

/-- A circuit as stored text. -/
def Circuit.toText (c : Circuit) : String := c.toJson.text .pretty

end ArithCircuit
