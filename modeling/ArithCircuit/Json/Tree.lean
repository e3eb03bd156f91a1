import ArithCircuit.Json.Error

set_option autoImplicit false
set_option relaxedAutoImplicit false

/-!
# The legible part of a JSON text

A text is read from left to right, and what was legible before the first fault decides which error
is reported. So the tree of a text need not be whole: at its right edge it may be cut, and the cut
remembers what the fault means to a reader that wants a value, to one that only passes over it, and
to one that wants the name of a variant. `Layer` is one level of a tree, with anything in place of
the subtrees, and `Tree.fold` works a tree up from its leaves, one layer at a time.
-/

namespace ArithCircuit.Json

/-- Where a text stops being legible in place of a value. -/
inductive Cut where
  /-- The text has ended. -/
  | ended
  /-- A character stands there that begins no value. -/
  | stray
  /-- The word `null` is spoiled. -/
  | null (f : Fault)
  /-- The word `true` or `false` is spoiled. -/
  | bool (f : Fault)
  /-- A number is spoiled. -/
  | number (f : Fault)
  /-- A string is spoiled, for a reader of the string and for one that passes over it. -/
  | string (read skip : Fault)
  deriving DecidableEq, Repr

namespace Cut

/-- The fault for a reader that wants a value. -/
def onRead : Cut → Fault
  | .ended => .truncated
  | .stray => .malformed
  | .null f => f
  | .bool f => f
  | .number f => f
  | .string read _ => read

/-- The fault for a reader that passes over the value. -/
def onSkip : Cut → Fault
  | .ended => .truncated
  | .stray => .malformed
  | .null f => f
  | .bool f => f
  | .number _ => .malformed
  | .string _ skip => skip

/-- The fault for a reader that wants a key or a variant, which no word and no number can name. -/
def onName : Cut → Fault
  | .ended => .truncated
  | .string read _ => read
  | _ => .malformed

/-- The fault for a reader that passes over a key. -/
def onSkipName : Cut → Fault
  | .ended => .truncated
  | .string _ skip => skip
  | _ => .malformed

end Cut

/-- How a list of items or members ends. -/
inductive Ending where
  /-- With its closing bracket. -/
  | closed
  /-- Without it, where neither a comma nor the bracket stands. -/
  | lacking (f : Fault)
  /-- After a comma that no key follows. -/
  | dangling (f : Fault)
  deriving DecidableEq, Repr

/-- The end of a list as its reader meets it. -/
def Ending.check : Ending → Result Unit
  | .closed => .ok ()
  | .lacking f => f.raise
  | .dangling f => f.raise

/-- What stands in the place of a key. What begins with no quote is no more than a stray character.
-/
inductive Label where
  | text (s : String)
  /-- A string that can be passed over but not read. -/
  | unreadable
  | broken (cut : Cut)

/-- The legible part of a JSON value. -/
inductive Tree where
  | null
  | bool (b : Bool)
  | number (n : Number)
  | string (s : String)
  | array (items : List Tree) (ending : Ending)
  | object (members : List (Label × Tree)) (ending : Ending)
  /-- A string or number that can be passed over but not read. -/
  | unreadable
  | broken (cut : Cut)

/-- One level of a tree. -/
inductive Layer (ρ : Type) where
  | null
  | bool (b : Bool)
  | number (n : Number)
  | string (s : String)
  | array (items : List ρ) (ending : Ending)
  | object (members : List (Label × ρ)) (ending : Ending)
  | unreadable
  | broken (cut : Cut)

namespace Tree

variable {ρ : Type}

mutual

/-- Work up a tree from its leaves. -/
def fold (step : Layer ρ → ρ) : Tree → ρ
  | .null => step .null
  | .bool b => step (.bool b)
  | .number n => step (.number n)
  | .string s => step (.string s)
  | .array items ending => step (.array (foldItems step items) ending)
  | .object members ending => step (.object (foldMembers step members) ending)
  | .unreadable => step .unreadable
  | .broken cut => step (.broken cut)

/-- Work up the items of an array. -/
def foldItems (step : Layer ρ → ρ) : List Tree → List ρ
  | [] => []
  | t :: ts => fold step t :: foldItems step ts

/-- Work up the members of an object. -/
def foldMembers (step : Layer ρ → ρ) : List (Label × Tree) → List (Label × ρ)
  | [] => []
  | (label, t) :: ms => (label, fold step t) :: foldMembers step ms

end

end Tree

end ArithCircuit.Json
