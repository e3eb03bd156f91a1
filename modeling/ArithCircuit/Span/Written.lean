import ArithCircuit.Json.Value
import ArithCircuit.Span

set_option autoImplicit false
set_option relaxedAutoImplicit false

/-!
# Source positions as JSON

A position is stored as four numbers, as an object of its own or among the members of another one.
-/

namespace ArithCircuit

open Json (Value)

/-- The members for a position. -/
def Span.members (span : Span) : List (String × Value) :=
  [("first_line", .number span.firstLine.toNat), ("first_column", .number span.firstColumn.toNat),
    ("last_line", .number span.lastLine.toNat), ("last_column", .number span.lastColumn.toNat)]

/-- The stored form of a position. -/
def Span.toJson (span : Span) : Value := .object span.members

end ArithCircuit
