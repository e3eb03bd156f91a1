import ArithCircuit.Ast.Operator
import ArithCircuit.Span

set_option autoImplicit false
set_option relaxedAutoImplicit false

/-!
# Source trees

A source file arrives as a tree of nodes, each with the range of the text it was read from. Operator
symbols and declaration tags stay the words they arrived as.
-/

namespace ArithCircuit

/-- The kinds of nodes. -/
inductive NodeKind where
  | number
  | var
  | pin
  | op
  | declare
  | call
  | block
  | forLoop
  | whileLoop
  | ret
  | template
  | function
  | inclusion
  | array
  deriving DecidableEq, Repr

namespace NodeKind

/-- All kinds, in the order in which they are numbered. -/
def all : List NodeKind :=
  [number, var, pin, op, declare, call, block, forLoop, whileLoop, ret, template, function,
    inclusion, array]

/-- The word for a kind. -/
def tag : NodeKind → String
  | number => "NUMBER"
  | var => "VARIABLE"
  | pin => "PIN"
  | op => "OP"
  | declare => "DECLARE"
  | call => "FUNCTIONCALL"
  | block => "BLOCK"
  | forLoop => "FOR"
  | whileLoop => "WHILE"
  | ret => "RETURN"
  | template => "TEMPLATEDEF"
  | function => "FUNCTIONDEF"
  | inclusion => "INCLUDE"
  | array => "ARRAY"

/-- The kind of a word, if the word is known. -/
def ofTag? (word : String) : Option NodeKind := all.find? (·.tag = word)

@[simp] theorem ofTag?_tag (kind : NodeKind) : ofTag? kind.tag = some kind := by
  cases kind <;> rfl

end NodeKind

/-- A node of a source tree. -/
inductive Node where
  | number (span : Span) (value : Nat)
  /-- A name with selectors, `x[i][j]`. -/
  | var (span : Span) (name : String) (selectors : List Node)
  /-- A pin of a component, `c[i].p[j]`. -/
  | pin (span : Span) (component : String) (componentSelectors : List Node) (pin : String)
    (pinSelectors : List Node)
  | op (span : Span) (symbol : String) (operands : List Node)
  | declare (span : Span) (tag : String) (name : Node)
  | call (span : Span) (name : String) (args : List Node)
  | block (span : Span) (statements : List Node)
  | forLoop (span : Span) (init condition step body : Node)
  | whileLoop (span : Span) (condition body : Node)
  | ret (span : Span) (value : Node)
  | template (span : Span) (name : String) (params : List String) (block : Node)
  | function (span : Span) (name : String) (params : List String) (block : Node)
  /-- The contents of another file, put in place of the directive that names it. -/
  | inclusion (span : Span) (file : Option String) (block : Option Node)
  | array (span : Span) (items : List Node)

/-- One half of the access to a pin: a name with selectors. -/
structure Reference where
  name : String
  selectors : List Node

namespace Node

instance : Inhabited Node := ⟨block .unknown []⟩

/-- The kind of a node. -/
def kind : Node → NodeKind
  | number _ _ => .number
  | var _ _ _ => .var
  | pin _ _ _ _ _ => .pin
  | op _ _ _ => .op
  | declare _ _ _ => .declare
  | call _ _ _ => .call
  | block _ _ => .block
  | forLoop _ _ _ _ _ => .forLoop
  | whileLoop _ _ _ => .whileLoop
  | ret _ _ => .ret
  | template _ _ _ _ => .template
  | function _ _ _ _ => .function
  | inclusion _ _ _ => .inclusion
  | array _ _ => .array

/-- The range of the text that a node was read from. -/
def span : Node → Span
  | number s _ => s
  | var s _ _ => s
  | pin s _ _ _ _ => s
  | op s _ _ => s
  | declare s _ _ => s
  | call s _ _ => s
  | block s _ => s
  | forLoop s _ _ _ _ => s
  | whileLoop s _ _ => s
  | ret s _ => s
  | template s _ _ _ => s
  | function s _ _ _ => s
  | inclusion s _ _ => s
  | array s _ => s

/-- The access to a pin, from its two halves. -/
def pinOf (span : Span) (component pin : Reference) : Node :=
  .pin span component.name component.selectors pin.name pin.selectors

end Node

end ArithCircuit
