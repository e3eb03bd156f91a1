import ArithCircuit.Json.Reader

set_option autoImplicit false
set_option relaxedAutoImplicit false

/-!
# Choices

A choice is between named variants, of which some carry data. A variant without data is read from
its name, any variant from an object whose only key is the name.
-/

namespace ArithCircuit.Json

/-- A variant of a choice: what it makes of the data that stand beside its name. -/
inductive Variant {Slot : Type} (Carrier : Slot → Type) (α : Type) where
  /-- The variant is its name alone. -/
  | bare (a : α)
  /-- The variant carries one value. -/
  | carrying (s : Slot) (make : Carrier s → α)
  /-- The variant carries a record. -/
  | fields (s : Slot) (make : Carrier s → α)

namespace Variant

variable {Slot : Type} {Carrier : Slot → Type} {α : Type}

/-- The variant for which only the name is given. -/
def ofName : Variant Carrier α → Result α
  | .bare a => .ok a
  | .carrying _ _ => (ShapeError.wrongType .bareVariant "newtype variant").raise
  | .fields _ _ => (ShapeError.wrongType .bareVariant "struct variant").raise

/-- The variant with the data given beside its name. A bare variant takes `null`, which it has to
read at some place: `unit`. -/
def ofData (unit : Reader Carrier → Result Unit) (r : Reader Carrier) : Variant Carrier α → Result α
  | .bare a => do
    unit r
    return a
  | .carrying s make => make <$> r.read s
  | .fields s make => make <$> r.read s

/-- The variant of a name. -/
def find (variants : List (String × Variant Carrier α)) (name : String) :
    Result (Variant Carrier α) :=
  match variants.lookup name with
  | some v => .ok v
  | none => (ShapeError.unknownVariant name (variants.map Prod.fst)).raise

end Variant

namespace Layer

variable {Slot : Type} {Carrier : Slot → Type} {α : Type}

/-- A choice between variants: the name of one in a string, or an object whose only key is the name.
-/
def asChoice (unit : Reader Carrier → Result Unit) (variants : List (String × Variant Carrier α)) :
    Layer (Reader Carrier) → Result α
  | .string name => do
    let v ← Variant.find variants name
    v.ofName
  | .object [] .closed => Fault.malformed.raise
  | .object [] ending => do
    ending.check
    Fault.malformed.raise
  | .object ((label, r) :: more) ending => do
    let name ← key label
    let v ← Variant.find variants name
    let value ← v.ofData unit r
    match more, ending with
    | [], .closed => .ok value
    | [], .lacking f => f.raise
    | _, _ => Fault.malformed.raise
  | .broken cut => cut.onName.raise
  | _ => Fault.malformed.raise

end Layer

end ArithCircuit.Json
