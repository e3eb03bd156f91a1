import ArithCircuit.Listing.Page
import ArithCircuit.Listing.Render
import ArithCircuit.Program.Artifact
import ArithCircuit.Program.Dump

set_option autoImplicit false
set_option relaxedAutoImplicit false

/-!
# Listings of circuits

A listing shows the field constants, then each template and each function as a header and an
indented body. A loop header has room for expressions only, so a loop whose clauses hold other
statements has no listing.
-/

namespace ArithCircuit

open Listing (Config Page Writing Format)

/-- Why a circuit has no listing. -/
inductive ListingError where
  /-- A statement stands in a clause of a loop header that is no expression. -/
  | loopClause (s : Stmt)
  /-- The field constants to be described are not valid. -/
  | field (e : FieldError)

/-- The reason as reported. -/
def ListingError.message : ListingError → String
  | .loopClause s => "statement cannot appear in a loop header: " ++ s.dump
  | .field e => e.message

mutual

/-- A clause of a loop header: expressions, also from nested blocks, with commas between them. -/
def Stmt.clause : Stmt → Except ListingError String
  | .expr e => .ok e.render
  | .block body => do
    let parts ← Stmt.clauses body
    return commaList parts
  | other => .error (.loopClause other)

/-- The clauses that statements make. -/
def Stmt.clauses : List Stmt → Except ListingError (List String)
  | [] => .ok []
  | s :: ss => do
    let part ← s.clause
    let parts ← Stmt.clauses ss
    return part :: parts

end

/-- A clause of a loop header that may be absent. -/
def Stmt.optionClause : Option Stmt → Except ListingError String
  | none => .ok ""
  | some s => s.clause

/-- The header of a `for` loop. -/
def forHeader (init : Option Stmt) (condition : Expr) (step : Option Stmt) :
    Except ListingError String := do
  let init ← Stmt.optionClause init
  let step ← Stmt.optionClause step
  return "for (" ++ init ++ "; " ++ condition.render ++ "; " ++ step ++ ")"

mutual

/-- Write a statement. The body of a loop already stands in the braces of the loop, so it is written
as `inBraces`: a block then adds no braces of its own. -/
def Stmt.list (inBraces : Bool) : Stmt → Writing ListingError Unit
  | .expr e => Writing.line (e.render ++ ";")
  | .block body => if inBraces then Stmt.listAll body else Writing.block "" (Stmt.listAll body)
  | .forLoop init condition step body => do
    let header ← ExceptT.mk (pure (forHeader init condition step))
    Writing.block header (Stmt.list true body)
  | .whileLoop condition body =>
    Writing.block ("while (" ++ condition.render ++ ")") (Stmt.list true body)
  | .ret e => Writing.line ("return " ++ e.render ++ ";")

/-- Write statements one after the other. -/
def Stmt.listAll : List Stmt → Writing ListingError Unit
  | [] => return ()
  | s :: ss => do
    Stmt.list false s
    Stmt.listAll ss

end

namespace Circuit

/-- Write the field constants and, if asked for, what the registry holds. -/
def listHeader (config : Config) (c : Circuit) : Writing ListingError Unit := do
  Writing.line ("P = " ++ Decimal.text c.field.prime)
  Writing.line ("MASK = " ++ Decimal.text c.field.mask)
  if config.verbosity.showsRegistry then
    Writing.comment (Decimal.text c.registry.templates.size ++ " templates, " ++
      Decimal.text c.registry.functions.size ++ " functions")
    match c.field.validated with
    | .ok field => Writing.comment ("MASK width: " ++ Decimal.text field.maskBits ++ " bits")
    | .error e => throw (.field e)

/-- Write a definition. The parameters that calls are bound by are given if they are registered. -/
def listDefinition (config : Config) (keyword name : String) (d : Definition)
    (registered : Option (List String)) : Writing ListingError Unit := do
  if config.verbosity.showsSpans && !d.span.isUnknown then
    Writing.comment ("defined at " ++ d.span.text)
  match registered with
  | some params =>
    if config.verbosity.showsRegistry then
      Writing.comment ("registered params: [" ++ commaList params ++ "]")
  | none => pure ()
  let p ← get
  Writing.block (p.paint keyword .blue ++ " " ++ p.paint name .yellow ++ "(" ++
    commaList d.params ++ ")") (Stmt.listAll d.body)

/-- The sections of a listing: the header, if it is wanted, and each definition. -/
def sections (config : Config) (c : Circuit) : List (Writing ListingError Unit) :=
  (if config.header then [c.listHeader config] else []) ++
    (c.registry.templates.entries.map fun e => listDefinition config "template" e.1 e.2 none) ++
    (c.registry.functions.entries.map fun e =>
      listDefinition config "function" e.1 e.2 (c.registry.functionParams.get? e.1))

/-- Write sections with an empty line between them. -/
def listSections : List (Writing ListingError Unit) → Writing ListingError Unit
  | [] => return ()
  | [s] => s
  | s :: more => do
    s
    Writing.blank
    listSections more

/-- Write the listing of a circuit: the outcome, and what was written in any case. -/
def listing (config : Config) (c : Circuit) : Except ListingError Unit × String :=
  let (outcome, page) := (listSections (c.sections config)).runOn (Page.ofConfig config)
  (outcome, page.text)

/-- The listing of a circuit, if it has one. -/
def listingText (config : Config) (c : Circuit) : Except ListingError String :=
  let (outcome, text) := c.listing config
  outcome.map fun _ => text

/-- Write a circuit in a format. -/
def emit (config : Config) (c : Circuit) : Format → Except ListingError Unit × String
  | .text => c.listing config
  | .json => (.ok (), c.toText ++ "\n")

end Circuit

end ArithCircuit
