import ArithCircuit.Json.Schema
import ArithCircuit.Program.Written

set_option autoImplicit false
set_option relaxedAutoImplicit false

/-!
# Reading stored circuits

The schema of the stored form, with one place for each part of it, so that `readText .circuit` reads
a whole circuit and any other place reads that part alone.
-/

namespace ArithCircuit

open Json (Layer Reader Result Variant)

namespace Artifact

/-- The places of the stored form. -/
inductive Slot where
  | unit
  | text
  | texts
  | decimal
  | word32
  | op
  | expr
  | exprs
  | binary
  | modPow
  | select
  | getVar
  | setVar
  | getSignal
  | setSignal
  | getPin
  | setPin
  | assertEqual
  | call
  | stmt
  | stmts
  | clause
  | forLoop
  | whileLoop
  | span
  | definition
  | definitions
  | paramLists
  | field
  | circuit
  deriving DecidableEq

/-- What is read at each place. -/
def Carrier : Slot → Type
  | .unit => Unit
  | .text => String
  | .texts => List String
  | .decimal => Nat
  | .word32 => UInt32
  | .op => BigIntOp
  | .exprs => List Expr
  | .stmt | .forLoop | .whileLoop => Stmt
  | .stmts => List Stmt
  | .clause => Option Stmt
  | .span => Span
  | .definition => Definition
  | .definitions => OrderedMap Definition
  | .paramLists => OrderedMap (List String)
  | .field => Field
  | .circuit => Circuit
  | _ => Expr

/-- One layer of a stored text. -/
abbrev Place := Layer (Reader Carrier)

/-- A field that has to be given. -/
def required (name : String) (slot : Slot) : Json.Field Carrier := ⟨name, slot, .required⟩

/-- A field that may be left out. -/
def defaulted (name : String) (slot : Slot) (a : Carrier slot) : Json.Field Carrier :=
  ⟨name, slot, .default a⟩

/-- A field that may be left out of an object, but not of an array. -/
def optional (name : String) (slot : Slot) (a : Carrier slot) : Json.Field Carrier :=
  ⟨name, slot, .optional a⟩

/-- The data beside the name of a bare variant. -/
def unitData (r : Reader Carrier) : Result Unit := r.read .unit

/-- The operations by their words. -/
def opVariants : List (String × Variant Carrier BigIntOp) :=
  BigIntOp.all.map fun op => (op.tag, .bare op)

/-- The expressions by their words. -/
def exprVariants : List (String × Variant Carrier Expr) :=
  [("number", .carrying .text Expr.number),
    ("prime", .bare .prime),
    ("mask", .bare .mask),
    ("binary", .fields .binary id),
    ("mod_pow", .fields .modPow id),
    ("select", .fields .select id),
    ("get_variable", .fields .getVar id),
    ("set_variable", .fields .setVar id),
    ("get_signal", .fields .getSignal id),
    ("set_signal", .fields .setSignal id),
    ("get_pin", .fields .getPin id),
    ("set_pin", .fields .setPin id),
    ("assert_equal", .fields .assertEqual id),
    ("call_function", .fields .call id),
    ("array", .carrying .exprs Expr.array)]

/-- The statements by their words. -/
def stmtVariants : List (String × Variant Carrier Stmt) :=
  [("expr", .carrying .expr Stmt.expr),
    ("block", .carrying .stmts Stmt.block),
    ("for", .fields .forLoop id),
    ("while", .fields .whileLoop id),
    ("return", .carrying .expr Stmt.ret)]

/-- A choice among variants. -/
def asChoice {α : Type} (variants : List (String × Variant Carrier α)) (l : Place) : Result α :=
  l.asChoice unitData variants

/-- A position, whose fields are all zero unless they are given. -/
def asSpan (l : Place) : Result Span :=
  l.asRecord "struct Span"
    [defaulted "first_line" .word32 (0 : UInt32), defaulted "first_column" .word32 (0 : UInt32),
      defaulted "last_line" .word32 (0 : UInt32), defaulted "last_column" .word32 (0 : UInt32)]
    Span.mk

/-- A circuit. -/
def asCircuit (l : Place) : Result Circuit :=
  l.asRecord "struct Circuit"
    [required "prime" .decimal, required "mask" .decimal, required "templates" .definitions,
      required "functions" .definitions, required "function_params" .paramLists]
    (fun prime mask templates functions functionParams =>
      Circuit.mk ⟨prime, mask⟩ ⟨templates, functions, functionParams⟩)

/-- How each place is read. -/
def readLayer : (s : Slot) → Place → Result (Carrier s)
  | .unit, l => l.asNull
  | .text, l => l.asText
  | .texts, l => l.asList Slot.text
  | .decimal, l => l.asDecimal
  | .word32, l => l.asWord32
  | .op, l => asChoice opVariants l
  | .expr, l => asChoice exprVariants l
  | .exprs, l => l.asList Slot.expr
  | .binary, l =>
    l.asRecord "struct variant Expr::Binary"
      [required "op" .op, required "lhs" .expr, required "rhs" .expr] Expr.binary
  | .modPow, l =>
    l.asRecord "struct variant Expr::ModPow"
      [required "base" .expr, required "exponent" .expr, required "modulus" .expr] Expr.modPow
  | .select, l =>
    l.asRecord "struct variant Expr::Select"
      [required "condition" .expr, required "then" .expr, required "otherwise" .expr] Expr.select
  | .getVar, l =>
    l.asRecord "struct variant Expr::GetVariable"
      [required "name" .text, required "indices" .exprs]
      (fun name indices => Expr.get (.var name indices))
  | .setVar, l =>
    l.asRecord "struct variant Expr::SetVariable"
      [required "name" .text, required "indices" .exprs, required "value" .expr]
      (fun name indices => Expr.set (.var name indices))
  | .getSignal, l =>
    l.asRecord "struct variant Expr::GetSignal"
      [required "name" .text, required "indices" .exprs]
      (fun name indices => Expr.get (.signal name indices))
  | .setSignal, l =>
    l.asRecord "struct variant Expr::SetSignal"
      [required "name" .text, required "indices" .exprs, required "value" .expr]
      (fun name indices => Expr.set (.signal name indices))
  | .getPin, l =>
    l.asRecord "struct variant Expr::GetPin"
      [required "component" .text, required "component_indices" .exprs, required "pin" .text,
        required "pin_indices" .exprs]
      (fun component componentIndices pin pinIndices =>
        Expr.get (.pin component componentIndices pin pinIndices))
  | .setPin, l =>
    l.asRecord "struct variant Expr::SetPin"
      [required "component" .text, required "component_indices" .exprs, required "pin" .text,
        required "pin_indices" .exprs, required "value" .expr]
      (fun component componentIndices pin pinIndices =>
        Expr.set (.pin component componentIndices pin pinIndices))
  | .assertEqual, l =>
    l.asRecord "struct variant Expr::AssertEqual"
      [required "lhs" .expr, required "rhs" .expr] Expr.assertEqual
  | .call, l =>
    l.asRecord "struct variant Expr::CallFunction"
      [required "name" .text, required "args" .exprs] Expr.call
  | .stmt, l => asChoice stmtVariants l
  | .stmts, l => l.asList Slot.stmt
  | .clause, l => l.asNullable (asChoice stmtVariants)
  | .forLoop, l =>
    l.asRecord "struct variant Stmt::For"
      [optional "init" .clause (none : Option Stmt), required "condition" .expr,
        optional "step" .clause (none : Option Stmt), required "body" .stmt]
      Stmt.forLoop
  | .whileLoop, l =>
    l.asRecord "struct variant Stmt::While"
      [required "condition" .expr, required "body" .stmt] Stmt.whileLoop
  | .span, l => asSpan l
  | .definition, l =>
    l.asRecord "struct Definition"
      [required "params" .texts, required "body" .stmts, defaulted "span" .span Span.unknown]
      Definition.mk
  | .definitions, l => l.asMap Slot.definition
  | .paramLists, l => l.asMap Slot.texts
  | .field, l =>
    l.asRecord "struct FieldConfig" [required "prime" .decimal, required "mask" .decimal] Field.mk
  | .circuit, l => asCircuit l

/-- The stored form. -/
def schema : Json.Schema := ⟨Slot, Carrier, readLayer⟩

/-- Read a text for a place of the stored form. -/
def readText (s : Slot) (text : String) : Result (Carrier s) := schema.read s text

end Artifact

/-- Read a stored circuit. -/
def Circuit.ofText (text : String) : Result Circuit := Artifact.readText .circuit text

/-- Read stored field constants, which are taken as they are. -/
def Field.ofText (text : String) : Result Field := Artifact.readText .field text

end ArithCircuit
