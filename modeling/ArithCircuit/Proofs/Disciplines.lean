import ArithCircuit.Proofs.Laws

set_option autoImplicit false
set_option relaxedAutoImplicit false

/-!
# What every lowering keeps to, even one that fails

A lowering changes its context by declarations, by registrations, and by levels that it opens and
closes again. A relation between contexts that these changes keep to therefore holds between the
contexts before and after the lowering of any node, whatever the outcome. Main statement:
`Node.follows_lower`.
-/

namespace ArithCircuit

open Lowering

/-- A frame that every other change of a context keeps to as well. A definition is registered only
after its body was lowered, so its parameters are distinct. -/
structure Context.Discipline (R : Context → Context → Prop) : Prop extends Context.Frame R where
  level : ∀ {ctx ctx₁ : Context}, R { ctx with scope := ctx.scope.push } ctx₁ → R ctx ctx₁.leave
  registerTemplate : ∀ {ctx ctx' : Context} {name : String} {d : Definition}, d.params.Nodup →
    runFrom ctx (Lowering.registerTemplate name d) = (.ok (), ctx') → R ctx ctx'
  registerFunction : ∀ {ctx ctx' : Context} {name : String} {d : Definition}, d.params.Nodup →
    runFrom ctx (Lowering.registerFunction name d) = (.ok (), ctx') → R ctx ctx'

/-- All runs of a step keep to a relation, successful or not. -/
def Lowering.Follows {α : Type} (R : Context → Context → Prop) (step : Lowering α) : Prop :=
  ∀ ctx, R ctx (runFrom ctx step).2

/-! ### Registrations that fail -/

namespace Lowering

variable {ctx ctx' : Context} {name : String} {d : Definition} {e : LoweringError}

/-- A template that cannot be registered leaves the context as it is. -/
theorem eq_of_registerTemplate_eq_error
    (ran : runFrom ctx (registerTemplate name d) = (.error e, ctx')) : ctx' = ctx := by
  rw [registerTemplate, runFrom_bind, declareGlobal, runFrom_changeScope] at ran
  cases declared : ctx.scope.declareGlobal name ⟨.template, d.span⟩ with
  | ok scope => simp [declared] at ran
  | error collision =>
    simp only [declared, Prod.mk.injEq] at ran
    exact ran.2.symm

/-- So does a function, whether its name is taken in the unit or in the scope. -/
theorem eq_of_registerFunction_eq_error
    (ran : runFrom ctx (registerFunction name d) = (.error e, ctx')) : ctx' = ctx := by
  rw [registerFunction, runFrom_bind, runFrom_get] at ran
  cases found : ctx.registry.functions.get? name with
  | some previous =>
    simp only [found, runFrom_throw, Prod.mk.injEq] at ran
    exact ran.2.symm
  | none =>
    simp only [found, runFrom_bind, Lowering.declare, runFrom_changeScope] at ran
    cases declared : ctx.scope.declare name ⟨.function, d.span⟩ with
    | ok scope => simp [declared] at ran
    | error collision =>
      simp only [declared, Prod.mk.injEq] at ran
      exact ran.2.symm

end Lowering

/-! ### The law of a discipline -/

namespace Context.Discipline

variable {R : Context → Context → Prop} {α β : Type} {step : Lowering α}

/-- A step that leaves the context as it is follows every discipline. -/
theorem of_unchanged (discipline : Discipline R) (same : ∀ ctx, (runFrom ctx step).2 = ctx) :
    Lowering.Follows R step := by
  intro ctx
  rw [same]
  exact discipline.refl ctx

/-- The second of two steps has to follow a discipline only where the first one succeeds. -/
theorem bind_of_ok (discipline : Discipline R) {next : α → Lowering β}
    (first : Lowering.Follows R step)
    (second : ∀ ctx a ctx', runFrom ctx step = (.ok a, ctx') → Lowering.Follows R (next a)) :
    Lowering.Follows R (step >>= next) := by
  intro ctx
  have before := first ctx
  rw [runFrom_bind]
  rcases ran : runFrom ctx step with ⟨_ | a, ctx'⟩
  · rw [ran] at before
    exact before
  · rw [ran] at before
    exact discipline.trans before (second ctx a ctx' ran ctx')

theorem resolve (discipline : Discipline R) (name : String) (span : Span) :
    Lowering.Follows R (Lowering.resolve name span) := by
  apply discipline.of_unchanged
  intro ctx
  rw [runFrom_resolve]
  split <;> rfl

theorem declareName (discipline : Discipline R) (name : String) {kind : SymbolKind} (span : Span)
    (declared : kind.isDeclared = true) :
    Lowering.Follows R (Lowering.declare name kind span) := by
  intro ctx
  rw [Lowering.declare, runFrom_changeScope]
  split
  · next scope added => exact discipline.declare declared added
  · exact discipline.refl ctx

theorem inLevel (discipline : Discipline R) (inside : Lowering.Follows R step) :
    Lowering.Follows R (Lowering.inLevel step) := by
  intro ctx
  rw [runFrom_inLevel]
  exact discipline.level (inside _)

theorem addTemplate (discipline : Discipline R) {name : String} {d : Definition}
    (distinct : d.params.Nodup) : Lowering.Follows R (Lowering.registerTemplate name d) := by
  intro ctx
  rcases ran : runFrom ctx (Lowering.registerTemplate name d) with ⟨e | u, ctx'⟩
  · cases eq_of_registerTemplate_eq_error ran
    exact discipline.refl ctx
  · exact discipline.registerTemplate distinct ran

theorem addFunction (discipline : Discipline R) {name : String} {d : Definition}
    (distinct : d.params.Nodup) : Lowering.Follows R (Lowering.registerFunction name d) := by
  intro ctx
  rcases ran : runFrom ctx (Lowering.registerFunction name d) with ⟨e | u, ctx'⟩
  · cases eq_of_registerFunction_eq_error ran
    exact discipline.refl ctx
  · exact discipline.registerFunction distinct ran

/-- Following a discipline carries over from the parts of a step to the step. -/
theorem law (discipline : Discipline R) : Lowering.Law fun _ step => Lowering.Follows R step where
  pure _ := discipline.of_unchanged fun _ => rfl
  throw _ := discipline.of_unchanged fun _ => rfl
  bind_of_ok := discipline.bind_of_ok
  resolve := discipline.resolve
  declare name _ span declared := discipline.declareName name span declared
  inLevel := discipline.inLevel
  registerTemplate := discipline.addTemplate
  registerFunction := discipline.addFunction

theorem params (discipline : Discipline R) (params : List String) (span : Span) :
    Lowering.Follows R (params.forM fun param => Lowering.declare param .var span) :=
  discipline.law.params params span

end Context.Discipline

/-- The lowering of a node follows every discipline, whatever its outcome. -/
theorem Node.follows_lower {R : Context → Context → Prop} (discipline : Context.Discipline R)
    (n : Node) : Lowering.Follows R n.lower :=
  Node.obeys_lower discipline.law n

end ArithCircuit
