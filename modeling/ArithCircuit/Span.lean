set_option autoImplicit false
set_option relaxedAutoImplicit false

/-!
# Source positions

A span is the range of lines and columns that a node was read from. The span of zeros stands for a
node without a known position.
-/

namespace ArithCircuit

/-- A range of lines and columns in the source. -/
structure Span where
  firstLine : UInt32 := 0
  firstColumn : UInt32 := 0
  lastLine : UInt32 := 0
  lastColumn : UInt32 := 0
  deriving DecidableEq, Inhabited, Repr

namespace Span

/-- The span of a node without a known position. -/
def unknown : Span := {}

/-- A span within one line. -/
def line (number firstColumn lastColumn : UInt32) : Span :=
  ⟨number, firstColumn, number, lastColumn⟩

/-- Whether the position is not known. -/
def isUnknown (span : Span) : Bool := span = unknown

/-- The span as diagnostics write it: both ends, line before column. -/
def text (span : Span) : String :=
  if span.isUnknown then "<unknown>"
  else
    let first := s!"{span.firstLine.toNat}:{span.firstColumn.toNat}"
    let last := s!"{span.lastLine.toNat}:{span.lastColumn.toNat}"
    first ++ "-" ++ last

instance : ToString Span := ⟨text⟩

end Span

end ArithCircuit
