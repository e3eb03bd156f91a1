import ArithCircuit.Json.Schema
import ArithCircuit.Json.Value

set_option autoImplicit false
set_option relaxedAutoImplicit false

/-!
# How a circuit is written out

The settings of a listing, with their stored form, and the two formats a circuit can be written in.
-/

namespace ArithCircuit.Listing

open Json (Value Layer Reader Result Variant)

/-- What one level of indentation is made of. -/
inductive Indent where
  | spaces (count : Nat)
  | tabs
  deriving DecidableEq, Repr

/-- The text of one level. -/
def Indent.unit : Indent → String
  | spaces count => String.ofList (List.replicate count ' ')
  | tabs => "\t"

/-- How much is said about each definition. -/
inductive Verbosity where
  | quiet
  | normal
  | verbose
  deriving DecidableEq, Repr

namespace Verbosity

/-- Whether the place of each definition is given. -/
def showsSpans : Verbosity → Bool
  | quiet => false
  | _ => true

/-- Whether the registry is described. -/
def showsRegistry : Verbosity → Bool
  | verbose => true
  | _ => false

/-- The word for a verbosity in the stored form. -/
def tag : Verbosity → String
  | quiet => "Quiet"
  | normal => "Normal"
  | verbose => "Verbose"

end Verbosity

/-- The settings of a listing. -/
structure Config where
  colours : Bool := true
  indent : Indent := .spaces 4
  /-- Whether the field constants stand before the definitions. -/
  header : Bool := true
  verbosity : Verbosity := .normal
  deriving DecidableEq, Repr

namespace Config

/-- The settings for files: no colours. -/
def plain : Config := { colours := false }

/-- The stored form of the settings. -/
def toJson (c : Config) : Value :=
  .object [("use_colors", .bool c.colours),
    ("indent_style",
      match c.indent with
      | .spaces count => .object [("Spaces", .number count)]
      | .tabs => .string "Tabs"),
    ("include_header", .bool c.header), ("verbosity", .string c.verbosity.tag)]

end Config

/-- A format that a circuit can be written in. -/
inductive Format where
  /-- An indented listing. -/
  | text
  /-- The stored form. -/
  | json
  deriving DecidableEq, Repr

namespace Format

/-- The word for a format. -/
def name : Format → String
  | text => "text"
  | json => "json"

/-- The usual ending of the names of files in a format. -/
def extension : Format → String
  | text => "txt"
  | json => "json"

/-- Why a word names no format. -/
inductive NameError where
  /-- No format has the name, which is given in lower case. -/
  | unknown (word : String)
  deriving DecidableEq, Repr

/-- The reason as reported. -/
def NameError.message : NameError → String
  | .unknown word => "unknown output format: " ++ word

/-- The format of a word in any case of ASCII letters. -/
def ofName (word : String) : Except NameError Format :=
  match String.ofList (word.toList.map Char.toLower) with
  | "text" => .ok text
  | "txt" => .ok text
  | "json" => .ok json
  | other => .error (.unknown other)

end Format

/-! ### Reading -/

/-- The places of the stored form. -/
inductive Slot where
  | unit
  | bool
  | count
  | indent
  | verbosity
  | format
  | config
  deriving DecidableEq

/-- What is read at each place. -/
def Carrier : Slot → Type
  | .unit => Unit
  | .bool => Bool
  | .count => Nat
  | .indent => Indent
  | .verbosity => Verbosity
  | .format => Format
  | .config => Config

/-- A choice among variants. -/
def asChoice {α : Type} (variants : List (String × Variant Carrier α))
    (l : Layer (Reader Carrier)) : Result α :=
  l.asChoice (fun r => r.read .unit) variants

/-- A field that has to be given. -/
def required (name : String) (slot : Slot) : Json.Field Carrier := ⟨name, slot, .required⟩

/-- How each place is read. -/
def readLayer : (s : Slot) → Layer (Reader Carrier) → Result (Carrier s)
  | .unit, l => l.asNull
  | .bool, l => l.asBool
  | .count, l => l.asWord64
  | .indent, l => asChoice [("Spaces", .carrying .count Indent.spaces), ("Tabs", .bare .tabs)] l
  | .verbosity, l =>
    asChoice ([Verbosity.quiet, .normal, .verbose].map fun v => (v.tag, .bare v)) l
  | .format, l => asChoice ([Format.text, .json].map fun f => (f.name, .bare f)) l
  | .config, l =>
    l.asRecord "struct EmitterConfig"
      [required "use_colors" .bool, required "indent_style" .indent,
        required "include_header" .bool, required "verbosity" .verbosity]
      Config.mk

/-- The stored form. -/
def schema : Json.Schema := ⟨Slot, Carrier, readLayer⟩

/-- Read stored settings. -/
def Config.ofText (text : String) : Result Config := schema.read .config text

/-- Read a stored format. -/
def Format.ofText (text : String) : Result Format := schema.read .format text

end ArithCircuit.Listing
