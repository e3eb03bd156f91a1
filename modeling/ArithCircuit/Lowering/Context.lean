import ArithCircuit.Lowering.Scope
import ArithCircuit.Program.Circuit

set_option autoImplicit false
set_option relaxedAutoImplicit false

/-!
# The state of a lowering

Lowering one compilation unit threads a context: the scope, the definitions registered so far, and
the first error that was recorded. A step that fails keeps what it has changed, so steps are
functions from a context to an outcome and a context, whatever the outcome.
-/

namespace ArithCircuit

/-- The state of the lowering of one compilation unit. -/
structure Context where
  scope : Scope
  registry : Registry
  /-- The first error that was recorded. -/
  failure : Option LoweringError

namespace Context

/-- The state before anything is lowered. -/
def empty : Context := ⟨.empty, .empty, none⟩

instance : Inhabited Context := ⟨empty⟩

/-- The circuit of all registered definitions; a recorded error stands in its way. -/
def circuit (ctx : Context) (field : Field) : Except LoweringError Circuit :=
  match ctx.failure with
  | some e => .error e
  | none => .ok ⟨field, ctx.registry⟩

end Context

/-- A step of lowering: it may fail, and keeps its changes to the context even then. -/
abbrev Lowering := ExceptT LoweringError (StateM Context)

namespace Lowering

variable {α : Type}

/-- The outcome of a step from a context, and the context after it. -/
def runFrom (ctx : Context) (step : Lowering α) : Except LoweringError α × Context :=
  StateT.run (ExceptT.run step) ctx

@[simp] theorem runFrom_pure (ctx : Context) (a : α) :
    runFrom ctx (pure a) = (.ok a, ctx) := rfl

@[simp] theorem runFrom_throw (ctx : Context) (e : LoweringError) :
    runFrom ctx (throw e : Lowering α) = (.error e, ctx) := rfl

@[simp] theorem runFrom_get (ctx : Context) : runFrom ctx get = (.ok ctx, ctx) := rfl

@[simp] theorem runFrom_set (ctx ctx' : Context) : runFrom ctx (set ctx') = (.ok (), ctx') := rfl

@[simp] theorem runFrom_modify (ctx : Context) (change : Context → Context) :
    runFrom ctx (modify change) = (.ok (), change ctx) := rfl

/-- Of two steps the second one is taken only if the first one succeeds, in the context that the
first one leaves. -/
theorem runFrom_bind (ctx : Context) {β : Type} (step : Lowering α) (next : α → Lowering β) :
    runFrom ctx (step >>= next) =
      match runFrom ctx step with
      | (.ok a, ctx') => runFrom ctx' (next a)
      | (.error e, ctx') => (.error e, ctx') := by
  simp only [runFrom, ExceptT.run_bind, StateT.run_bind]
  rcases StateT.run (ExceptT.run step) ctx with ⟨_ | _, _⟩ <;> rfl

/-- Change the scope, unless the change fails. -/
def changeScope (change : Scope → Except LoweringError Scope) : Lowering Unit := do
  let ctx ← get
  match change ctx.scope with
  | .ok scope => set { ctx with scope }
  | .error e => throw e

/-- Declare a name in the innermost table. -/
def declare (name : String) (kind : SymbolKind) (span : Span) : Lowering Unit :=
  changeScope (·.declare name ⟨kind, span⟩)

/-- Declare a name in the global table. -/
def declareGlobal (name : String) (kind : SymbolKind) (span : Span) : Lowering Unit :=
  changeScope (·.declareGlobal name ⟨kind, span⟩)

/-- What a name stands for. -/
def resolve (name : String) (span : Span) : Lowering Symbol := do
  let ctx ← get
  match ctx.scope.resolve name span with
  | .ok symbol => return symbol
  | .error e => throw e

/-- Take a step inside a level of its own, which is closed again even if the step fails. -/
def inLevel (step : Lowering α) : Lowering α :=
  ExceptT.mk do
    modify fun ctx => { ctx with scope := ctx.scope.push }
    let outcome ← ExceptT.run step
    modify fun ctx => { ctx with scope := ctx.scope.pop }
    return outcome

/-- A level of its own changes nothing else: the step is taken from the scope with a fresh level, and
the level is closed whatever the outcome. -/
theorem runFrom_inLevel (ctx : Context) (step : Lowering α) :
    runFrom ctx (inLevel step) =
      let (outcome, ctx') := runFrom { ctx with scope := ctx.scope.push } step
      (outcome, { ctx' with scope := ctx'.scope.pop }) := rfl

/-- Register a template, whose name is global. -/
def registerTemplate (name : String) (d : Definition) : Lowering Unit := do
  declareGlobal name .template d.span
  modify fun ctx =>
    { ctx with registry.templates := ctx.registry.templates.insert name d }

/-- Register a function. Its name belongs to the innermost level, but calls find the body by name
alone, so no two functions of a unit share a name. -/
def registerFunction (name : String) (d : Definition) : Lowering Unit := do
  let ctx ← get
  match ctx.registry.functions.get? name with
  | some previous => throw (.collision name d.span previous.span)
  | none =>
    declare name .function d.span
    modify fun ctx =>
      { ctx with
        registry.functions := ctx.registry.functions.insert name d
        registry.functionParams := ctx.registry.functionParams.insert name d.params }

end Lowering

end ArithCircuit
