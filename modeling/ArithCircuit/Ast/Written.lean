import ArithCircuit.Ast.Node
import ArithCircuit.Decimal
import ArithCircuit.Span.Written

set_option autoImplicit false
set_option relaxedAutoImplicit false

/-!
# Source trees as JSON

A node is stored as one object: its kind under `type`, the members of that kind, and the four
numbers of its span.
-/

namespace ArithCircuit

open Json (Value)

namespace Node

/-- The object of a node of some kind at some span. -/
def objectOf (kind : NodeKind) (span : Span) (members : List (String × Value)) : Value :=
  .object (("type", .string kind.tag) :: members ++ span.members)

/-- The stored form of a name with selectors. -/
def referenceToJson (name : String) (selectors : List Value) : Value :=
  .object [("name", .string name), ("selectors", .array selectors)]

mutual

/-- The stored form of a node. -/
def toJson : Node → Value
  | number span value => objectOf .number span [("value", .string (Decimal.text value))]
  | var span name selectors =>
    objectOf .var span [("name", .string name), ("selectors", .array (listToJson selectors))]
  | pin span component componentSelectors name selectors =>
    objectOf .pin span
      [("component", referenceToJson component (listToJson componentSelectors)),
        ("pin", referenceToJson name (listToJson selectors))]
  | op span symbol operands =>
    objectOf .op span [("op", .string symbol), ("values", .array (listToJson operands))]
  | declare span tag name =>
    objectOf .declare span [("declareType", .string tag), ("name", name.toJson)]
  | call span name args =>
    objectOf .call span [("name", .string name), ("params", .array (listToJson args))]
  | block span statements => objectOf .block span [("statements", .array (listToJson statements))]
  | forLoop span init condition step body =>
    objectOf .forLoop span [("init", init.toJson), ("condition", condition.toJson),
      ("step", step.toJson), ("body", body.toJson)]
  | whileLoop span condition body =>
    objectOf .whileLoop span [("condition", condition.toJson), ("body", body.toJson)]
  | ret span value => objectOf .ret span [("value", value.toJson)]
  | template span name params body =>
    objectOf .template span
      [("name", .string name), ("params", .texts params), ("block", body.toJson)]
  | function span name params body =>
    objectOf .function span
      [("name", .string name), ("params", .texts params), ("block", body.toJson)]
  | inclusion span file body =>
    objectOf .inclusion span [("file", .ofOption .string file), ("block", optionToJson body)]
  | array span items => objectOf .array span [("values", .array (listToJson items))]

/-- The stored forms of nodes. -/
def listToJson : List Node → List Value
  | [] => []
  | n :: ns => n.toJson :: listToJson ns

/-- The stored form of a node that may be absent. -/
def optionToJson : Option Node → Value
  | none => .null
  | some n => n.toJson

end

/-- A source tree as stored text. -/
def toText (n : Node) : String := n.toJson.text .compact

end Node

end ArithCircuit
