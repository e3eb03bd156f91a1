set_option autoImplicit false
set_option relaxedAutoImplicit false

/-!
# Operators and declarations of the source

Operator symbols and declaration tags arrive as words. These are the words that are known; a word
that is not known is reported where it is used.
-/

namespace ArithCircuit

/-- An operator of the source language. -/
inductive Operator where
  /-- `=` -/
  | assign
  /-- `<--` -/
  | signalAssign
  /-- `<==` -/
  | constrainedAssign
  /-- `===` -/
  | constrain
  | addAssign
  | mulAssign
  | add
  | sub
  | neg
  | mul
  | pow
  | bitAnd
  | shl
  | shr
  | lt
  | eq
  /-- `c ? a : b` -/
  | ternary
  /-- `x++` -/
  | postIncrement
  /-- `++x` -/
  | preIncrement
  deriving DecidableEq, Repr

namespace Operator

/-- All operators. -/
def all : List Operator :=
  [assign, signalAssign, constrainedAssign, constrain, addAssign, mulAssign, add, sub, neg, mul,
    pow, bitAnd, shl, shr, lt, eq, ternary, postIncrement, preIncrement]

/-- The word for an operator. -/
def symbol : Operator → String
  | assign => "="
  | signalAssign => "<--"
  | constrainedAssign => "<=="
  | constrain => "==="
  | addAssign => "+="
  | mulAssign => "*="
  | add => "+"
  | sub => "-"
  | neg => "UMINUS"
  | mul => "*"
  | pow => "**"
  | bitAnd => "&"
  | shl => "<<"
  | shr => ">>"
  | lt => "<"
  | eq => "=="
  | ternary => "?"
  | postIncrement => "PLUSPLUSRIGHT"
  | preIncrement => "PLUSPLUSLEFT"

instance : ToString Operator := ⟨symbol⟩

/-- The operator of a word, if the word is known. -/
def ofSymbol? (word : String) : Option Operator := all.find? (·.symbol = word)

/-- The number of operands. -/
def arity : Operator → Nat
  | neg | postIncrement | preIncrement => 1
  | ternary => 3
  | _ => 2

@[simp] theorem ofSymbol?_symbol (op : Operator) : ofSymbol? op.symbol = some op := by
  cases op <;> rfl

theorem ofSymbol?_eq_some_iff {word : String} {op : Operator} :
    ofSymbol? word = some op ↔ word = op.symbol := by
  constructor
  · intro h
    simpa [eq_comm] using List.find?_some h
  · rintro rfl
    exact ofSymbol?_symbol op

end Operator

/-- What a declaration introduces. -/
inductive DeclarationKind where
  | signalInput
  | signalOutput
  | signal
  | var
  | component
  deriving DecidableEq, Repr

namespace DeclarationKind

/-- All kinds of declarations. -/
def all : List DeclarationKind := [signalInput, signalOutput, signal, var, component]

/-- The word for a kind of declaration. -/
def tag : DeclarationKind → String
  | signalInput => "SIGNALIN"
  | signalOutput => "SIGNALOUT"
  | signal => "SIGNAL"
  | var => "VARIABLE"
  | component => "COMPONENT"

/-- The kind of declaration of a word, if the word is known. -/
def ofTag? (word : String) : Option DeclarationKind := all.find? (·.tag = word)

@[simp] theorem ofTag?_tag (kind : DeclarationKind) : ofTag? kind.tag = some kind := by
  cases kind <;> rfl

theorem ofTag?_eq_some_iff {word : String} {kind : DeclarationKind} :
    ofTag? word = some kind ↔ word = kind.tag := by
  constructor
  · intro h
    simpa [eq_comm] using List.find?_some h
  · rintro rfl
    exact ofTag?_tag kind

end DeclarationKind

end ArithCircuit
