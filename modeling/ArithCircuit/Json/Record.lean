import ArithCircuit.Json.Reader

set_option autoImplicit false
set_option relaxedAutoImplicit false

/-!
# Records

A record has named fields. It is read from an object, whose members come in any order, or from an
array that gives the fields in theirs. A record is described by the list of its fields and a
function of all their values.
-/

namespace ArithCircuit.Json

/-- What holds for a field that a record does not give. -/
inductive Absence (α : Type) where
  | required
  /-- The field may be left out. -/
  | default (a : α)
  /-- The field may be left out of an object, but not of an array. -/
  | optional (a : α)

/-- A field of a record. -/
structure Field {Slot : Type} (Carrier : Slot → Type) where
  name : String
  slot : Slot
  absence : Absence (Carrier slot) := .required

namespace Record

variable {Slot : Type} {Carrier : Slot → Type} {α : Type}

/-- Functions of the values of all fields. -/
def Builder (α : Type) : List (Field Carrier) → Type
  | [] => α
  | f :: fs => Carrier f.slot → Builder α fs

/-- The values of the fields that have been read so far. -/
def Filling : List (Field Carrier) → Type
  | [] => Unit
  | f :: fs => Option (Carrier f.slot) × Filling fs

/-- The filling before anything is read. -/
def Filling.none : (fs : List (Field Carrier)) → Filling fs
  | [] => ()
  | _ :: fs => (Option.none, Filling.none fs)

/-- Read one member of an object: into its field, or over it if no field has its name. -/
def fill : (fs : List (Field Carrier)) → String → Reader Carrier → Filling fs → Result (Filling fs)
  | [], _, r, filling =>
    match r.skip with
    | .ok () => .ok filling
    | .error f => f.raise
  | f :: fs, name, r, (value, rest) =>
    if f.name = name then
      match value with
      | some _ => (ShapeError.duplicate name).raise
      | Option.none => do
        let value ← r.read f.slot
        return (some value, rest)
    else do
      let rest ← fill fs name r rest
      return (value, rest)

/-- Read the members of an object in their order. -/
def fillAll (fs : List (Field Carrier)) :
    List (Label × Reader Carrier) → Filling fs → Result (Filling fs)
  | [], filling => .ok filling
  | (label, r) :: members, filling => do
    let name ← Layer.key label
    let filling ← fill fs name r filling
    fillAll fs members filling

/-- Build the record from its filling; the first required field without a value is missed. -/
def finish : (fs : List (Field Carrier)) → Builder α fs → Filling fs → Result α
  | [], build, _ => .ok build
  | f :: fs, build, (value, rest) =>
    match value, f.absence with
    | some value, _ => finish fs (build value) rest
    | Option.none, .default value => finish fs (build value) rest
    | Option.none, .optional value => finish fs (build value) rest
    | Option.none, .required => (ShapeError.missing f.name).raise

/-- A record in an object. -/
def ofMembers (fs : List (Field Carrier)) (build : Builder α fs)
    (members : List (Label × Reader Carrier)) (ending : Ending) : Result α := do
  let filling ← fillAll fs members (Filling.none fs)
  ending.check
  finish fs build filling

/-- The words for a record of so many elements. -/
def sizeText (title : String) (count : Nat) : String :=
  s!"{title} with {count} element" ++ (if count = 1 then "" else "s")

/-- A record in an array, which gives the fields in their order. The reading is at the field with
the given position; `surplus` answers to the items behind the last field. -/
def ofItems (whole : String) (surplus : List (Reader Carrier) → Ending → Result Unit) :
    (fs : List (Field Carrier)) → Nat → Builder α fs → List (Reader Carrier) → Ending → Result α
  | [], _, build, items, ending => do
    surplus items ending
    return build
  | f :: fs, position, build, r :: items, ending => do
    let value ← r.read f.slot
    ofItems whole surplus fs (position + 1) (build value) items ending
  | f :: fs, position, build, [], ending => do
    ending.check
    match f.absence with
    | .default value => ofItems whole surplus fs (position + 1) (build value) [] ending
    | _ => (ShapeError.wrongLength position whole).raise

/-- In a text that is read straight on, the array has to end behind the last field. -/
def noSurplus : List (Reader Carrier) → Ending → Result Unit
  | [], ending => ending.check
  | _ :: _, _ => Fault.malformed.raise

end Record

namespace Layer

variable {Slot : Type} {Carrier : Slot → Type} {α : Type}

/-- A record: an object with named fields, or an array that gives them in order. -/
def asRecord (title : String) (fs : List (Field Carrier)) (build : Record.Builder α fs) :
    Layer (Reader Carrier) → Result α
  | .object members ending => Record.ofMembers fs build members ending
  | .array items ending =>
    Record.ofItems (Record.sizeText title fs.length) Record.noSurplus fs 0 build items ending
  | layer => layer.mismatch title

end Layer

end ArithCircuit.Json
