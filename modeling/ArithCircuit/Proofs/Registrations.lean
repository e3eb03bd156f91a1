import ArithCircuit.Proofs.Frames
import ArithCircuit.Proofs.Visits

set_option autoImplicit false
set_option relaxedAutoImplicit false

/-!
# Which definitions a lowering registers

Lowering registers one definition for each definition that it comes to, and no other. What is
registered stays: a function is registered only under a fresh name, and a template's name is in the
global table, which keeps it and takes no name twice. Main statement: `Node.definition?_of_compile`.
-/

namespace ArithCircuit

open Lowering

/-- The definition under a name, by what the name stands for. -/
def Registry.definition? (r : Registry) (name : String) : SymbolKind → Option Definition
  | .template => r.templates.get? name
  | .function => r.functions.get? name
  | _ => none

/-- The definition that is made of a site, with its name and what the name stands for. -/
inductive Site.Defines : Site → SymbolKind → String → Definition → Prop where
  | template {ctx ctx' : Context} {span : Span} {name : String} {params : List String} {body : Node}
      {ss : List Stmt} :
      runFrom ctx (Node.lowerBody params span body) = (.ok ss, ctx') →
      Defines ⟨ctx, .template span name params body⟩ .template name ⟨params, ss, span⟩
  | function {ctx ctx' : Context} {span : Span} {name : String} {params : List String} {body : Node}
      {ss : List Stmt} :
      runFrom ctx (Node.lowerBody params span body) = (.ok ss, ctx') →
      Defines ⟨ctx, .function span name params body⟩ .function name ⟨params, ss, span⟩

/-- The definitions that are made of a list of sites. -/
def Site.Defined (sites : List Site) (kind : SymbolKind) (name : String) (d : Definition) : Prop :=
  ∃ site ∈ sites, site.Defines kind name d

theorem Site.Defines.isDefinition {site : Site} {kind : SymbolKind} {name : String}
    {d : Definition} (defines : site.Defines kind name d) : site.node.isDefinition = true := by
  cases defines <;> rfl

/-- Nothing is made of a site that is no definition. -/
theorem Site.defined_cons {site : Site} {sites : List Site}
    (other : site.node.isDefinition = false) {kind : SymbolKind} {name : String} {d : Definition} :
    Site.Defined (site :: sites) kind name d ↔ Site.Defined sites kind name d := by
  have nothing : ¬ site.Defines kind name d := by
    intro defines
    rw [defines.isDefinition] at other
    cases other
  simp only [Site.Defined, List.mem_cons, exists_eq_or_imp, nothing, false_or]

namespace Context

/-- The names of all templates are in the global table. -/
def TemplatesGlobal (ctx : Context) : Prop :=
  ∀ name, (ctx.registry.templates.get? name).isSome → (ctx.scope.global.get? name).isSome

/-- From one context to another the global table loses no name, and the registry gets some
definitions and keeps all others. -/
structure Registers (ctx : Context) (new : SymbolKind → String → Definition → Prop)
    (ctx' : Context) : Prop where
  global : ∀ name, (ctx.scope.global.get? name).isSome → (ctx'.scope.global.get? name).isSome
  templatesGlobal : ctx.TemplatesGlobal → ctx'.TemplatesGlobal
  definition?_eq_some : ctx.TemplatesGlobal → ∀ kind name d,
    ctx'.registry.definition? name kind = some d ↔
      ctx.registry.definition? name kind = some d ∨ new kind name d

namespace Registers

variable {ctx ctx₁ ctx₂ : Context} {new new' : SymbolKind → String → Definition → Prop}

theorem trans (first : ctx.Registers new ctx₁) (second : ctx₁.Registers new' ctx₂) :
    ctx.Registers (fun kind name d => new kind name d ∨ new' kind name d) ctx₂ where
  global name present := second.global name (first.global name present)
  templatesGlobal valid := second.templatesGlobal (first.templatesGlobal valid)
  definition?_eq_some valid kind name d := by
    rw [second.definition?_eq_some (first.templatesGlobal valid),
      first.definition?_eq_some valid, or_assoc]

theorem congr (registers : ctx.Registers new ctx₁)
    (same : ∀ kind name d, new kind name d ↔ new' kind name d) : ctx.Registers new' ctx₁ where
  global := registers.global
  templatesGlobal := registers.templatesGlobal
  definition?_eq_some valid kind name d := by
    rw [registers.definition?_eq_some valid, same]

/-- A change of the scope that loses no global name registers nothing. -/
theorem of_scope {scope : Scope}
    (global : ∀ name, (ctx.scope.global.get? name).isSome → (scope.global.get? name).isSome) :
    ctx.Registers (Site.Defined []) { ctx with scope } where
  global := global
  templatesGlobal valid name present := global name (valid name present)
  definition?_eq_some _ kind name d := by simp [Site.Defined]

theorem append {sites sites' : List Site} (first : ctx.Registers (Site.Defined sites) ctx₁)
    (second : ctx₁.Registers (Site.Defined sites') ctx₂) :
    ctx.Registers (Site.Defined (sites ++ sites')) ctx₂ := by
  apply (first.trans second).congr
  intro kind name d
  simp only [Site.Defined, List.mem_append, or_and_right, exists_or]

theorem cons {site : Site} {sites : List Site} (other : site.node.isDefinition = false)
    (registers : ctx.Registers (Site.Defined sites) ctx₁) :
    ctx.Registers (Site.Defined (site :: sites)) ctx₁ :=
  registers.congr fun _ _ _ => (Site.defined_cons other).symm

theorem tail {site : Site} {sites : List Site}
    (registers : ctx.Registers (Site.Defined (site :: sites)) ctx₁)
    (other : site.node.isDefinition = false) : ctx.Registers (Site.Defined sites) ctx₁ :=
  registers.congr fun _ _ _ => Site.defined_cons other

end Registers

theorem isSome_get?_insert {t : Table} {name other : String} {symbol : Symbol}
    (present : (t.get? other).isSome) : ((t.insert name symbol).get? other).isSome := by
  rw [OrderedMap.get?_insert]
  split
  · rfl
  · exact present

/-- Declarations register nothing. -/
theorem registers_of_declare {ctx : Context} {name : String} {symbol : Symbol} {scope : Scope}
    (declared : ctx.scope.declare name symbol = .ok scope) :
    ctx.Registers (Site.Defined []) { ctx with scope } := by
  apply Registers.of_scope
  intro other present
  obtain ⟨-, rfl⟩ := Scope.declare_eq_ok_iff.1 declared
  split
  · exact isSome_get?_insert present
  · exact present

theorem frame_registers : Frame fun ctx ctx' => ctx.Registers (Site.Defined []) ctx' where
  refl _ := Registers.of_scope fun _ present => present
  trans := Registers.append
  declare _ declared := registers_of_declare declared

/-- A template is registered under a name that no template has had. -/
theorem registers_of_registerTemplate {ctx ctx' : Context} {name : String} {d : Definition}
    (registered : runFrom ctx (registerTemplate name d) = (.ok (), ctx')) :
    ctx.Registers (fun kind other d' => kind = .template ∧ other = name ∧ d' = d) ctx' := by
  obtain ⟨scope, declared, rfl⟩ := runFrom_registerTemplate_eq_ok.1 registered
  obtain ⟨fresh, rfl⟩ := Scope.declareGlobal_eq_ok_iff.1 declared
  constructor
  · intro other present
    exact isSome_get?_insert present
  · intro valid other present
    rw [OrderedMap.get?_insert] at present ⊢
    split at present
    · next same => rw [if_pos same]; rfl
    · next different => rw [if_neg different]; exact valid other present
  · intro valid kind other d'
    have unregistered : ctx.registry.templates.get? name = none := by
      rw [← Option.not_isSome_iff_eq_none]
      intro present
      have inGlobal := valid name present
      rw [fresh] at inGlobal
      cases inGlobal
    cases kind <;> simp only [Registry.definition?, reduceCtorEq, false_and, or_false, true_and]
    rw [OrderedMap.get?_insert]
    split
    · next same => simp [same, unregistered, eq_comm]
    · next different => simp [different]

/-- A function is registered under a name that no function has had. -/
theorem registers_of_registerFunction {ctx ctx' : Context} {name : String} {d : Definition}
    (registered : runFrom ctx (registerFunction name d) = (.ok (), ctx')) :
    ctx.Registers (fun kind other d' => kind = .function ∧ other = name ∧ d' = d) ctx' := by
  obtain ⟨unregistered, scope, declared, rfl⟩ := runFrom_registerFunction_eq_ok.1 registered
  have kept := registers_of_declare declared
  constructor
  · exact kept.global
  · exact kept.templatesGlobal
  · intro valid kind other d'
    cases kind <;> simp only [Registry.definition?, reduceCtorEq, false_and, or_false, true_and]
    rw [OrderedMap.get?_insert]
    split
    · next same => simp [same, unregistered, eq_comm]
    · next different => simp [different]

end Context

open Context

/-- A definition registers what its body registers and then itself. -/
private theorem registers_definition {params : List String} {span : Span} {body : Node}
    {ss : List Stmt} {kind : SymbolKind} {name : String} {site : Site} {ctx ctx₁ ctx' : Context}
    (declared : runFrom { ctx with scope := ctx.scope.push }
      (params.forM fun param => Lowering.declare param .var span) =
        (.ok (), ctx.enter params span))
    (inner : (ctx.enter params span).Registers
      (Site.Defined (body.visits true (ctx.enter params span))) ctx₁)
    (registered : ctx₁.leave.Registers
      (fun kind' other d => kind' = kind ∧ other = name ∧ d = ⟨params, ss, span⟩) ctx')
    (defines : ∀ kind' other d, site.Defines kind' other d ↔
      kind' = kind ∧ other = name ∧ d = ⟨params, ss, span⟩) :
    ctx.Registers (Site.Defined (body.visits true (ctx.enter params span) ++ [site])) ctx' := by
  have pushed : Context.Registers ctx (Site.Defined []) { ctx with scope := ctx.scope.push } :=
    Registers.of_scope fun _ present => present
  have entered := pushed.append (keeps_params frame_registers span params _ _ _ declared)
  have left : ctx₁.Registers (Site.Defined []) ctx₁.leave :=
    Registers.of_scope fun _ present => present
  have inside := (entered.append inner).append left
  rw [List.nil_append, List.nil_append, List.append_nil] at inside
  apply inside.append
  apply registered.congr
  intro kind' other d
  simp [Site.Defined, defines]

/-- Lowering a node registers the definitions among its statements. -/
theorem Node.Lowers.registers {n : Node} {ctx ctx' : Context} {fragment : Fragment}
    (lowers : n.Lowers ctx fragment ctx') :
    ctx.Registers (Site.Defined (n.visits true ctx)) ctx' := by
  induction lowers with
  | @simple ctx ctx' n fragment simple ran =>
    rw [Node.visits_of_isSimple simple]
    exact (Node.frame_of_isSimple frame_registers simple ran).cons
      (Node.isDefinition_of_isSimple simple)
  | blockNil =>
    rw [Node.visits, Node.visitsAll]
    exact (frame_registers.refl _).cons rfl
  | blockCons first _ ihFirst ihRest =>
    rw [Node.visits] at ihRest
    rw [Node.visits, Node.visitsAll, first.after_eq]
    exact (ihFirst.append (ihRest.tail rfl)).cons rfl
  | forLoop first tested second _ ihInit ihStep ihBody =>
    rw [Node.visits, first.after_eq, Node.after_of_expr tested, second.after_eq]
    have tests := Node.frame_of_expr frame_registers _ tested
    have stepped := (ihInit.append tests).append ihStep
    rw [List.append_nil] at stepped
    exact (stepped.append ihBody).cons rfl
  | whileLoop tested _ ihBody =>
    rw [Node.visits, Node.after_of_expr tested]
    have tests := Node.frame_of_expr frame_registers _ tested
    exact (tests.append ihBody).cons rfl
  | template declared _ lowered registered ihBody =>
    rw [Node.visits, if_pos rfl]
    apply registers_definition declared ihBody (registers_of_registerTemplate registered)
    intro kind other d
    constructor
    · rintro ⟨again⟩
      simp_all
    · rintro ⟨rfl, rfl, rfl⟩
      exact .template lowered
  | function declared _ lowered registered ihBody =>
    rw [Node.visits, if_pos rfl]
    apply registers_definition declared ihBody (registers_of_registerFunction registered)
    intro kind other d
    constructor
    · rintro ⟨again⟩
      simp_all
    · rintro ⟨rfl, rfl, rfl⟩
      exact .function lowered
  | inclusionNone =>
    rw [Node.visits, Node.visitsOption]
    exact (frame_registers.refl _).cons rfl
  | inclusionSome _ ih =>
    rw [Node.visits, Node.visitsOption]
    exact ih.cons rfl

/-! ### Compilation units -/

theorem Lowering.runFrom_tryCatch {α : Type} (ctx : Context) (step : Lowering α)
    (handler : LoweringError → Lowering α) :
    runFrom ctx (tryCatch step handler) =
      match runFrom ctx step with
      | (.ok a, ctx') => (.ok a, ctx')
      | (.error e, ctx') => runFrom ctx' (handler e) := by
  have caught : runFrom ctx (tryCatch step handler) =
      StateT.run (ExceptT.run (ExceptT.tryCatch step handler)) ctx := rfl
  rw [caught, ExceptT.tryCatch, ExceptT.run_mk, StateT.run_bind]
  unfold runFrom
  rcases ran : StateT.run (ExceptT.run step) ctx with ⟨_ | _, _⟩
  all_goals
    have same : StateT.run step ctx = _ := ran
    rw [same]
    rfl

/-- A unit compiles only if it is lowered from the empty context, and the circuit holds what is
registered then. -/
theorem Node.runFrom_of_compile {root : Node} {field : Field} {circuit : Circuit}
    (compiled : root.compile field = .ok circuit) :
    ∃ fragment ctx, runFrom .empty root.lower = (.ok fragment, ctx) ∧
      circuit = ⟨field, ctx.registry⟩ := by
  have generated : runFrom .empty root.generate =
      runFrom .empty (tryCatch root.lower fun e => do
        modify fun ctx => { ctx with failure := some e }
        throw e) := rfl
  rw [runFrom_tryCatch] at generated
  rw [Node.compile, generated] at compiled
  rcases lowered : runFrom .empty root.lower with ⟨e | fragment, ctx⟩
  · simp [lowered, runFrom_bind] at compiled
  · simp only [lowered, Context.circuit] at compiled
    split at compiled
    · cases compiled
    · cases compiled
      exact ⟨fragment, ctx, rfl, rfl⟩

/-- The circuit of a unit holds exactly the definitions that are made of the unit's sites. -/
theorem Node.definition?_of_compile {root : Node} {field : Field} {circuit : Circuit}
    (compiled : root.compile field = .ok circuit) (kind : SymbolKind) (name : String)
    (d : Definition) :
    circuit.registry.definition? name kind = some d ↔
      Site.Defined (root.definitionSites .empty) kind name d := by
  obtain ⟨fragment, ctx, lowered, rfl⟩ := Node.runFrom_of_compile compiled
  have valid : Context.empty.TemplatesGlobal := fun name present => nomatch present
  have nothing : Context.empty.registry.definition? name kind = none := by cases kind <;> rfl
  rw [(Node.lowers_of_runFrom root lowered).registers.definition?_eq_some valid, nothing]
  simp only [reduceCtorEq, false_or, Site.Defined, Node.definitionSites, List.mem_filter]
  constructor
  · rintro ⟨site, visited, defines⟩
    exact ⟨site, ⟨visited, defines.isDefinition⟩, defines⟩
  · rintro ⟨site, ⟨visited, -⟩, defines⟩
    exact ⟨site, visited, defines⟩

/-- A definition that is lowered defines something. -/
theorem Node.Lowers.exists_defines {n : Node} {ctx ctx' : Context} {fragment : Fragment}
    (lowers : n.Lowers ctx fragment ctx') (definition : n.isDefinition = true) :
    ∃ kind name d, Site.Defines ⟨ctx, n⟩ kind name d := by
  cases lowers with
  | template _ _ lowered _ => exact ⟨_, _, _, .template lowered⟩
  | function _ _ lowered _ => exact ⟨_, _, _, .function lowered⟩
  | simple simple =>
    rw [Node.isDefinition_of_isSimple simple] at definition
    cases definition
  | blockNil | blockCons | forLoop | whileLoop | inclusionNone | inclusionSome => cases definition

/-- Every definition of a unit is in its circuit. -/
theorem Node.exists_definition_of_compile {root n : Node} {field : Field} {circuit : Circuit}
    (compiled : root.compile field = .ok circuit) (member : n ∈ root.definitions) :
    ∃ ctx kind name d, Site.Defines ⟨ctx, n⟩ kind name d ∧
      circuit.registry.definition? name kind = some d := by
  rw [← Node.map_node_definitionSites root .empty] at member
  obtain ⟨⟨ctx, n⟩, listed, rfl⟩ := List.mem_map.1 member
  obtain ⟨visited, definition⟩ := List.mem_filter.1 listed
  obtain ⟨_, _, lowered, -⟩ := Node.runFrom_of_compile compiled
  obtain ⟨_, _, lowers⟩ := (Node.lowers_of_runFrom root lowered).lowers_of_visits _ visited
  obtain ⟨kind, name, d, defines⟩ := lowers.exists_defines definition
  exact ⟨ctx, kind, name, d, defines,
    (Node.definition?_of_compile compiled kind name d).2 ⟨_, listed, defines⟩⟩

end ArithCircuit
