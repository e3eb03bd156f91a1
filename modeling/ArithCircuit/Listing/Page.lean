import ArithCircuit.Listing.Config

set_option autoImplicit false
set_option relaxedAutoImplicit false

/-!
# Pages

A page is what has been written so far, together with the level of indentation and whether colours
are used. Writing may fail; what was written before stays on the page, and a block gives back the
level it was opened at in any case.
-/

namespace ArithCircuit.Listing

/-- The state of writing. -/
structure Page where
  level : Nat
  /-- The text of one level of indentation. -/
  unit : String
  colours : Bool
  text : String
  deriving DecidableEq, Repr

namespace Page

/-- An empty page with colours and four blanks a level. -/
def empty : Page := ⟨0, "    ", true, ""⟩

/-- An empty page for a listing with given settings. -/
def ofConfig (c : Config) : Page := ⟨0, c.indent.unit, c.colours, ""⟩

/-- One level deeper. -/
def indent (p : Page) : Page := { p with level := p.level + 1 }

/-- One level up, unless at the outermost already. -/
def dedent (p : Page) : Page := { p with level := p.level - 1 }

/-- What stands before the text of a line. -/
def indentation (p : Page) : String := String.join (List.replicate p.level p.unit)

/-- Add text as it is. -/
def write (p : Page) (text : String) : Page := { p with text := p.text ++ text }

end Page

/-- A colour of a terminal. -/
inductive Colour where
  | red
  | green
  | yellow
  | blue
  deriving DecidableEq, Repr

namespace Colour

/-- The sequence that begins a colour. -/
def start : Colour → String
  | red => "\x1b[31m"
  | green => "\x1b[32m"
  | yellow => "\x1b[33m"
  | blue => "\x1b[34m"

/-- The sequence that ends any colour. -/
def reset : String := "\x1b[0m"

/-- A text in which every reset is followed by the beginning of a colour. -/
def resume (begin : List Char) : List Char → List Char
  | '\x1b' :: '[' :: '0' :: 'm' :: rest => reset.toList ++ begin ++ resume begin rest
  | c :: rest => c :: resume begin rest
  | [] => []

/-- A text in a colour. A reset inside the text does not end the colour. -/
def wrap (c : Colour) (text : String) : String :=
  c.start ++ String.ofList (resume c.start.toList text.toList) ++ reset

end Colour

/-- A text in a colour, on a page that has colours. -/
def Page.paint (p : Page) (text : String) (c : Colour) : String :=
  if p.colours then c.wrap text else text

/-- A step of writing: it may fail, and keeps what it has written even then. -/
abbrev Writing (ε : Type) := ExceptT ε (StateM Page)

namespace Writing

variable {ε α : Type}

/-- The outcome of a step from a page, and the page after it. -/
def runOn (p : Page) (step : Writing ε α) : Except ε α × Page :=
  StateT.run (ExceptT.run step) p

@[simp] theorem runOn_pure (p : Page) (a : α) :
    runOn p (pure a : Writing ε α) = (.ok a, p) := rfl

@[simp] theorem runOn_throw (p : Page) (e : ε) :
    runOn p (throw e : Writing ε α) = (.error e, p) := rfl

@[simp] theorem runOn_modify (p : Page) (change : Page → Page) :
    runOn p (modify change : Writing ε Unit) = (.ok (), change p) := rfl

/-- Of two steps the second one is taken only if the first one succeeds, on the page that the first
one leaves. -/
theorem runOn_bind {β : Type} (p : Page) (step : Writing ε α) (next : α → Writing ε β) :
    runOn p (step >>= next) =
      match runOn p step with
      | (.ok a, p') => runOn p' (next a)
      | (.error e, p') => (.error e, p') := by
  simp only [runOn, ExceptT.run_bind, StateT.run_bind]
  rcases StateT.run (ExceptT.run step) p with ⟨_ | _, _⟩ <;> rfl

/-- A line of text. -/
def line (text : String) : Writing ε Unit :=
  modify fun p => p.write (p.indentation ++ text ++ "\n")

/-- An empty line. -/
def blank : Writing ε Unit := modify fun p => p.write "\n"

/-- A line of text in a colour, which the indentation does not share. -/
def colouredLine (text : String) (c : Colour) : Writing ε Unit := do
  let p ← get
  line (p.paint text c)

/-- A comment on a line of its own. -/
def comment (text : String) : Writing ε Unit := colouredLine ("// " ++ text) .green

/-- A header and a body between braces, the body one level deeper. Without a header the block is
bare. -/
def block (header : String) (body : Writing ε Unit) : Writing ε Unit := do
  line (if header.isEmpty then "\x7b" else header ++ " \x7b")
  ExceptT.mk do
    modify Page.indent
    let outcome ← ExceptT.run body
    modify Page.dedent
    return outcome
  line "\x7d"

end Writing

end ArithCircuit.Listing
