import ArithCircuit.Ast.Written
import ArithCircuit.Json.Schema

set_option autoImplicit false
set_option relaxedAutoImplicit false

/-!
# Reading stored source trees

The members of a node may come in any order, so the whole object is taken in before it is read: a
fault anywhere in it comes before any wrong shape. Then the kind is looked for, then the members of
that kind are read in their order, then those of the span.
-/

namespace ArithCircuit

open Json (Layer Reader Label Result ShapeError)

namespace Node

namespace Stored

/-- The places of the stored form. -/
inductive Slot where
  | kind
  | text
  | texts
  | file
  | decimal
  | word32
  | node
  | nodes
  | splice
  | reference
  deriving DecidableEq

/-- What is read at each place. -/
def Carrier : Slot → Type
  | .kind => NodeKind
  | .text => String
  | .texts => List String
  | .file => Option String
  | .decimal => Nat
  | .word32 => UInt32
  | .node => Node
  | .nodes => List Node
  | .splice => Option Node
  | .reference => Reference

/-- One layer of a stored text. -/
abbrev Place := Layer (Reader Carrier)

/-- The members of one object. -/
abbrev Members := List (Label × Reader Carrier)

/-- A field that has to be given. -/
def required (name : String) (slot : Slot) : Json.Field Carrier := ⟨name, slot, .required⟩

/-- A field that may be left out. -/
def defaulted (name : String) (slot : Slot) (a : Carrier slot) : Json.Field Carrier :=
  ⟨name, slot, .default a⟩

/-- The kind of a node, by its word or by its number. -/
def asKind : Place → Result NodeKind
  | .string word =>
    match NodeKind.ofTag? word with
    | some kind => .ok kind
    | none => (ShapeError.unknownVariant word (NodeKind.all.map NodeKind.tag)).raise
  | .number (.natural n) =>
    match NodeKind.all[n]? with
    | some kind => .ok kind
    | none =>
      (ShapeError.outOfRange n s!"variant index 0 <= i < {NodeKind.all.length}").raise
  | l => l.mismatch "variant identifier"

/-- A record in an object that has been taken in as a whole. -/
def ofMembers {α : Type} (fs : List (Json.Field Carrier)) (build : Json.Record.Builder α fs)
    (members : Members) : Result α :=
  Json.Record.ofMembers fs build members .closed

/-- The node of a kind, up to its span. -/
def ofKind (members : Members) : NodeKind → Result (Span → Node)
  | .number => ofMembers [required "value" .decimal] (fun value span => number span value) members
  | .var =>
    ofMembers [required "name" .text, defaulted "selectors" .nodes ([] : List Node)]
      (fun name selectors span => var span name selectors) members
  | .pin =>
    ofMembers [required "component" .reference, required "pin" .reference]
      (fun component pinned span => pinOf span component pinned) members
  | .op =>
    ofMembers [required "op" .text, required "values" .nodes]
      (fun symbol operands span => op span symbol operands) members
  | .declare =>
    ofMembers [required "declareType" .text, required "name" .node]
      (fun tag name span => declare span tag name) members
  | .call =>
    ofMembers [required "name" .text, defaulted "params" .nodes ([] : List Node)]
      (fun name args span => call span name args) members
  | .block =>
    ofMembers [required "statements" .nodes] (fun statements span => block span statements) members
  | .forLoop =>
    ofMembers
      [required "init" .node, required "condition" .node, required "step" .node,
        required "body" .node]
      (fun init condition step body span => forLoop span init condition step body) members
  | .whileLoop =>
    ofMembers [required "condition" .node, required "body" .node]
      (fun condition body span => whileLoop span condition body) members
  | .ret => ofMembers [required "value" .node] (fun value span => ret span value) members
  | .template =>
    ofMembers
      [required "name" .text, defaulted "params" .texts ([] : List String), required "block" .node]
      (fun name params body span => template span name params body) members
  | .function =>
    ofMembers
      [required "name" .text, defaulted "params" .texts ([] : List String), required "block" .node]
      (fun name params body span => function span name params body) members
  | .inclusion =>
    ofMembers
      [defaulted "file" .file (none : Option String),
        defaulted "block" .splice (none : Option Node)]
      (fun file body span => inclusion span file body) members
  | .array => ofMembers [required "values" .nodes] (fun items span => array span items) members

/-- The span among the members of a node. -/
def ofSpan (members : Members) : Result Span :=
  ofMembers
    [defaulted "first_line" .word32 (0 : UInt32), defaulted "first_column" .word32 (0 : UInt32),
      defaulted "last_line" .word32 (0 : UInt32), defaulted "last_column" .word32 (0 : UInt32)]
    Span.mk members

/-- A node. -/
def asNode : Place → Result Node
  | .object members ending => do
    match Layer.sound (.object members ending) with
    | .ok () => pure ()
    | .error f => f.raise
    let kind ← ofMembers [required "type" .kind] (fun kind => kind) members
    let make ← ofKind members kind
    let span ← ofSpan members
    return make span
  | l => l.mismatch "struct Node"

/-- The fields of a name with selectors. -/
def referenceFields : List (Json.Field Carrier) :=
  [required "name" .text, defaulted "selectors" .nodes ([] : List Node)]

/-- A name with selectors, as an object or as an array that holds no more than the two. -/
def asReference : Place → Result Reference
  | .object members _ => ofMembers referenceFields Reference.mk members
  | .array items ending =>
    Json.Record.ofItems (Json.Record.sizeText "struct Reference" 2)
      (fun surplus _ =>
        if surplus.isEmpty then .ok ()
        else (ShapeError.wrongLength (2 + surplus.length) "2 elements in sequence").raise)
      referenceFields 0 Reference.mk items ending
  | l => l.mismatch "struct Reference"

/-- How each place is read. -/
def readLayer : (s : Slot) → Place → Result (Carrier s)
  | .kind, l => asKind l
  | .text, l => l.asText
  | .texts, l => l.asList Slot.text
  | .file, l => l.asNullable Layer.asText
  | .decimal, l => l.asDecimal
  | .word32, l => l.asWord32
  | .node, l => asNode l
  | .nodes, l => l.asList Slot.node
  | .splice, l => l.asNullable asNode
  | .reference, l => asReference l

/-- The stored form. -/
def schema : Json.Schema := ⟨Slot, Carrier, readLayer⟩

end Stored

/-- Read a stored source tree. -/
def ofText (text : String) : Result Node := Stored.schema.read .node text

end Node

end ArithCircuit
