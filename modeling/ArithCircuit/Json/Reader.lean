import ArithCircuit.Json.Tree
import ArithCircuit.OrderedMap

set_option autoImplicit false
set_option relaxedAutoImplicit false

/-!
# Reading one layer

A `Reader` stands for a part of a text and can read it as whatever its place calls for. Given
readers for the parts below, one layer of a tree is read as a scalar, a list or a map. The parts are
read in the order of the text, so the first error of the text is the one that is reported: a wrong
shape counts when its value is met, a fault when the reading reaches it.
-/

namespace ArithCircuit.Json

/-- What stands at a place of a text, ready to be read as whatever the place calls for. -/
structure Reader {Slot : Type} (Carrier : Slot → Type) where
  /-- The value, read for a place. -/
  read : (s : Slot) → Result (Carrier s)
  /-- The first fault that a reader meets which passes over the value. -/
  skip : Except Fault Unit
  /-- The first fault that a reader meets which takes in the whole value. -/
  sound : Except Fault Unit

namespace Layer

variable {Slot : Type} {Carrier : Slot → Type} {ρ : Type} {α : Type}

/-! ### Faults below a layer -/

/-- The first fault of an ending. -/
def endingFault : Ending → Except Fault Unit
  | .closed => .ok ()
  | .lacking f => .error f
  | .dangling f => .error f

/-- Pass over a value. -/
def skip : Layer (Reader Carrier) → Except Fault Unit
  | .array items ending => do
    items.forM (·.skip)
    endingFault ending
  | .object members ending => do
    members.forM fun (label, r) => do
      match label with
      | .text _ => .ok ()
      | .unreadable => .ok ()
      | .broken cut => .error cut.onSkipName
      r.skip
    endingFault ending
  | .broken cut => .error cut.onSkip
  | _ => .ok ()

/-- Take in a whole value. -/
def sound : Layer (Reader Carrier) → Except Fault Unit
  | .array items ending => do
    items.forM (·.sound)
    endingFault ending
  | .object members ending => do
    members.forM fun (label, r) => do
      match label with
      | .text _ => .ok ()
      | .unreadable => .error .malformed
      | .broken cut => .error cut.onName
      r.sound
    endingFault ending
  | .unreadable => .error .malformed
  | .broken cut => .error cut.onRead
  | _ => .ok ()

/-! ### Scalars -/

/-- What a layer is called in a mismatch, if it is legible. -/
def found : Layer ρ → Result Found
  | .null => .ok .null
  | .bool b => .ok (.bool b)
  | .number n => .ok (.number n)
  | .string s => .ok (.string s)
  | .array _ _ => .ok .sequence
  | .object _ _ => .ok .map
  | .unreadable => Fault.malformed.raise
  | .broken cut => cut.onRead.raise

/-- Refuse a layer because something else is expected in its place. -/
def mismatch (expected : String) (layer : Layer ρ) : Result α := do
  let found ← layer.found
  (ShapeError.wrongType found expected).raise

/-- A string. -/
def asText : Layer ρ → Result String
  | .string s => .ok s
  | layer => layer.mismatch "a string"

/-- A truth value. -/
def asBool : Layer ρ → Result Bool
  | .bool b => .ok b
  | layer => layer.mismatch "a boolean"

/-- The value `null`. -/
def asNull : Layer ρ → Result Unit
  | .null => .ok ()
  | layer => layer.mismatch "unit"

/-- A natural number below a bound. -/
def asNatural (bound : Nat) (expected : String) : Layer ρ → Result Nat
  | .number (.natural n) =>
    if n < bound then .ok n else (ShapeError.outOfRange n expected).raise
  | .number (.negative n) => (ShapeError.outOfRange (-n) expected).raise
  | layer => layer.mismatch expected

/-- A natural number of 32 bits. -/
def asWord32 (layer : Layer ρ) : Result UInt32 :=
  UInt32.ofNat <$> layer.asNatural (Nat.pow 2 32) "u32"

/-- A natural number of 64 bits. -/
def asWord64 (layer : Layer ρ) : Result Nat := layer.asNatural (Nat.pow 2 64) "usize"

/-- A natural number of any size, as decimal text or, below `2 ^ 64`, as a number. -/
def asDecimal : Layer ρ → Result Nat
  | .number (.natural n) => .ok n
  | .number (.negative n) => (ShapeError.negativeDecimal n).raise
  | .string s =>
    match Decimal.value? s with
    | some n => .ok n
    | none => (ShapeError.badDecimal s).raise
  | layer => layer.mismatch "a non-negative integer or its decimal string"

/-! ### Lists and maps -/

/-- An array whose items are all read for one place. -/
def asList (item : Slot) : Layer (Reader Carrier) → Result (List (Carrier item))
  | .array items ending => do
    let values ← items.mapM (·.read item)
    ending.check
    return values
  | layer => layer.mismatch "a sequence"

/-- The key in front of a member. -/
def key : Label → Result String
  | .text s => .ok s
  | .unreadable => Fault.malformed.raise
  | .broken cut => cut.onName.raise

/-- An object whose values are all read for one place. A repeated key keeps its first position and
takes the last value. -/
def asMap (item : Slot) : Layer (Reader Carrier) → Result (OrderedMap (Carrier item))
  | .object members ending => do
    let entries ← members.mapM fun (label, r) => do
      let name ← key label
      let value ← r.read item
      return (name, value)
    ending.check
    return .ofList entries
  | layer => layer.mismatch "a map"

/-- Either `null` or a value; a text that begins like `null` has to go on like it. -/
def asNullable (read : Layer ρ → Result α) : Layer ρ → Result (Option α)
  | .null => .ok none
  | .broken (.null f) => f.raise
  | layer => some <$> read layer

end Layer

end ArithCircuit.Json
