import ArithCircuit.Decimal
import ArithCircuit.Json.Binary64
import ArithCircuit.Text.Quoted

set_option autoImplicit false
set_option relaxedAutoImplicit false

/-!
# Why a text could not be read

A reading fails because the text is no JSON (`Fault`) or because it is JSON of the wrong shape
(`ShapeError`). A shape error says what was met and what was wanted.
-/

namespace ArithCircuit.Json

/-- A number as a JSON text gives it. Integers of 64 bits are exact, all others binary64. -/
inductive Number where
  /-- An integer from 0 to `2 ^ 64 - 1`. -/
  | natural (n : Nat)
  /-- The integer `-n`, where `n` is from 1 to `2 ^ 63`. -/
  | negative (n : Nat)
  /-- Any other number. -/
  | real (isNegative : Bool) (magnitude : Binary64)
  deriving DecidableEq, Repr

/-- How a text fails to be JSON. -/
inductive Fault where
  /-- A character stands where the grammar does not allow it, or a number has no finite value. -/
  | malformed
  /-- The text ends inside a value. -/
  | truncated
  deriving DecidableEq, Repr

/-- What was met where something else was wanted. -/
inductive Found where
  | null
  | bool (b : Bool)
  | number (n : Number)
  | string (s : String)
  | sequence
  | map
  /-- The bare name of a variant that carries data. -/
  | bareVariant
  deriving DecidableEq, Repr

/-- A mismatch between a JSON text and the form that is read. -/
inductive ShapeError where
  | wrongType (found : Found) (expected : String)
  | outOfRange (value : Int) (expected : String)
  | wrongLength (length : Nat) (expected : String)
  | missing (field : String)
  | duplicate (field : String)
  | unknownVariant (name : String) (choices : List String)
  | negativeDecimal (magnitude : Nat)
  | badDecimal (text : String)
  deriving DecidableEq, Repr

/-- Why a reading failed. -/
inductive ReadError where
  | fault (f : Fault)
  | shape (e : ShapeError)
  deriving DecidableEq, Repr

/-- The outcome of a reading. -/
abbrev Result (α : Type) := Except ReadError α

/-- A reading that meets a faulty text. -/
def Fault.raise {α : Type} (f : Fault) : Result α := .error (.fault f)

/-- A reading that meets a wrong shape. -/
def ShapeError.raise {α : Type} (e : ShapeError) : Result α := .error (.shape e)

/-- A word between backticks. -/
def ticked (s : String) : String := "`" ++ s ++ "`"

/-- An integer in decimal, with a minus sign if it is negative. -/
def intText (i : Int) : String :=
  (if i < 0 then "-" else "") ++ Decimal.text i.natAbs

/-- The words for what was met. -/
def Found.text : Found → String
  | .null => "null"
  | .bool b => "boolean " ++ ticked (if b then "true" else "false")
  | .number (.natural n) => "integer " ++ ticked (Decimal.text n)
  | .number (.negative n) => "integer " ++ ticked ("-" ++ Decimal.text n)
  | .number (.real isNegative x) =>
    "floating point " ++
      ticked ((if isNegative then "-" else "") ++ x.text Binary64.diagnosticFormat)
  | .string s => "string " ++ Text.quoted s
  | .sequence => "sequence"
  | .map => "map"
  | .bareVariant => "unit variant"

/-- The words for a choice: two alternatives are joined, more are listed. -/
def choiceText : List String → String
  | [a] => ticked a
  | [a, b] => ticked a ++ " or " ++ ticked b
  | l => "one of " ++ ", ".intercalate (l.map ticked)

/-- The message for a shape error. -/
def ShapeError.message : ShapeError → String
  | .wrongType found expected => s!"invalid type: {found.text}, expected {expected}"
  | .outOfRange value expected =>
    "invalid value: integer " ++ ticked (intText value) ++ ", expected " ++ expected
  | .wrongLength length expected => s!"invalid length {length}, expected {expected}"
  | .missing field => "missing field " ++ ticked field
  | .duplicate field => "duplicate field " ++ ticked field
  | .unknownVariant name choices =>
    "unknown variant " ++ ticked name ++ ", expected " ++ choiceText choices
  | .negativeDecimal magnitude => "negative integer: -" ++ Decimal.text magnitude
  | .badDecimal text => "invalid decimal integer: " ++ Text.quoted text

end ArithCircuit.Json
