import ArithCircuit.Json.Choice
import ArithCircuit.Json.Document
import ArithCircuit.Json.Record

set_option autoImplicit false
set_option relaxedAutoImplicit false

/-!
# Formats

A schema names the places that a format has and says for each place what is read from one layer of a
tree. `Schema.read` reads a whole text: the tree of the text is worked up from its leaves to a
reader, which is asked for the value at the place wanted.
-/

namespace ArithCircuit.Json

/-- The places of a format and how each is read. -/
structure Schema where
  Slot : Type
  Carrier : Slot → Type
  readLayer : (s : Slot) → Layer (Reader Carrier) → Result (Carrier s)

/-- A reader for a tree, built from its leaves up. -/
def Schema.reader (S : Schema) : Tree → Reader S.Carrier :=
  Tree.fold fun layer =>
    { read := fun s => S.readLayer s layer, skip := layer.skip, sound := layer.sound }

/-- Read a whole text for a place. What follows the value is looked at last. -/
def Schema.read (S : Schema) (s : S.Slot) (text : String) : Result (S.Carrier s) := do
  let document := Document.ofText text
  let value ← (S.reader document.root).read s
  if document.isAlone then .ok value else Fault.malformed.raise

end ArithCircuit.Json
