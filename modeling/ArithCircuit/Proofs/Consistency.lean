import ArithCircuit.Proofs.Disciplines
import ArithCircuit.Proofs.Registrations

set_option autoImplicit false
set_option relaxedAutoImplicit false

/-!
# Registries and scope agree

Templates are registered exactly under the names that stand for templates in the global table, the two
registries of functions agree with each other, and every name that stands for a function is registered
as one. All of this holds in each context that a sequence of parts of a unit can lead to, also behind
parts that fail, and no part changes what was registered before it. Main statement:
`Context.Reachable.consistent`.
-/

namespace ArithCircuit

open Lowering

/-! ### The names of a kind in a table -/

/-- The names in a table that stand for a kind, oldest first, with the places that introduced them. -/
def Table.ofKind (kind : SymbolKind) (t : Table) : List (String × Span) :=
  (t.entries.filter fun e => e.2.kind = kind).map fun e => (e.1, e.2.span)

@[simp] theorem Table.ofKind_empty (kind : SymbolKind) : Table.ofKind kind ∅ = [] := rfl

theorem Table.ofKind_insert_self {t : Table} {name : String} {kind : SymbolKind} {span : Span}
    (fresh : t.get? name = none) :
    Table.ofKind kind (t.insert name ⟨kind, span⟩) = t.ofKind kind ++ [(name, span)] := by
  simp [Table.ofKind, OrderedMap.entries_insert_of_fresh fresh, List.filter_append,
    -OrderedMap.entries_insert]

theorem Table.ofKind_insert_of_ne {t : Table} {name : String} {symbol : Symbol} {kind : SymbolKind}
    (fresh : t.get? name = none) (other : symbol.kind ≠ kind) :
    Table.ofKind kind (t.insert name symbol) = t.ofKind kind := by
  simp [Table.ofKind, OrderedMap.entries_insert_of_fresh fresh, List.filter_append, other,
    -OrderedMap.entries_insert]

theorem Table.mem_ofKind_iff {t : Table} {name : String} {kind : SymbolKind} {span : Span} :
    (name, span) ∈ t.ofKind kind ↔ t.get? name = some ⟨kind, span⟩ := by
  rw [OrderedMap.get?_eq_some_iff]
  constructor
  · intro member
    obtain ⟨⟨name', kind', span'⟩, filtered, same⟩ := List.mem_map.1 member
    cases same
    obtain ⟨entry, stands⟩ := List.mem_filter.1 filtered
    cases of_decide_eq_true stands
    exact entry
  · intro entry
    exact List.mem_map.2 ⟨_, List.mem_filter.2 ⟨entry, decide_eq_true rfl⟩, rfl⟩

/-- Every name in a table that stands for a function is registered with a function from its place. -/
def Table.NamesFunctions (functions : OrderedMap Definition) (t : Table) : Prop :=
  ∀ name span, (name, span) ∈ t.ofKind .function →
    ∃ d, functions.get? name = some d ∧ d.span = span

namespace Table.NamesFunctions

variable {functions : OrderedMap Definition} {t : Table} {name : String}

/-- A further function is registered under a free name, so the others keep theirs. -/
theorem register (named : t.NamesFunctions functions) (free : functions.get? name = none)
    (d : Definition) : t.NamesFunctions (functions.insert name d) := by
  intro other span entry
  obtain ⟨d', found, same⟩ := named other span entry
  refine ⟨d', ?_, same⟩
  rw [OrderedMap.get?_insert_of_ne]
  · exact found
  · rintro rfl
    rw [free] at found
    cases found

theorem declare (named : t.NamesFunctions functions) (fresh : t.get? name = none) {d : Definition}
    (found : functions.get? name = some d) :
    Table.NamesFunctions functions (t.insert name ⟨.function, d.span⟩) := by
  intro other span entry
  rw [Table.ofKind_insert_self fresh, List.mem_append, List.mem_singleton] at entry
  rcases entry with entry | entry
  · exact named other span entry
  · cases entry
    exact ⟨d, found, rfl⟩

end Table.NamesFunctions

/-! ### Consistent contexts -/

/-- One registry continues another: its entries are still there, unchanged and in their places. -/
structure Registry.Continues (r r' : Registry) : Prop where
  templates : r.templates.entries <+: r'.templates.entries
  functions : r.functions.entries <+: r'.functions.entries
  functionParams : r.functionParams.entries <+: r'.functionParams.entries

namespace Registry.Continues

theorem refl (r : Registry) : r.Continues r :=
  ⟨List.prefix_rfl, List.prefix_rfl, List.prefix_rfl⟩

theorem trans {r r₁ r₂ : Registry} (first : r.Continues r₁) (second : r₁.Continues r₂) :
    r.Continues r₂ where
  templates := first.templates.trans second.templates
  functions := first.functions.trans second.functions
  functionParams := first.functionParams.trans second.functionParams

end Registry.Continues

/-- The registries and the scope of a context agree. -/
structure Context.Consistent (ctx : Context) : Prop where
  /-- Templates are registered under the names that stand for templates globally, in their order. -/
  templates : ctx.registry.templates.entries.map (fun e => (e.1, e.2.span)) =
    ctx.scope.global.ofKind .template
  /-- No other table has the name of a template. -/
  templatesGlobal : ∀ t ∈ ctx.scope.inner, t.ofKind .template = []
  /-- The parameters of functions are kept a second time, in the order of the functions. -/
  functionParams : ctx.registry.functionParams.entries =
    ctx.registry.functions.entries.map fun e => (e.1, e.2.params)
  /-- A name that stands for a function is the name of a function defined at that place. -/
  functions : ∀ t ∈ ctx.scope.tables, ∀ name span, (name, span) ∈ t.ofKind .function →
    ∃ d, ctx.registry.functions.get? name = some d ∧ d.span = span
  distinctParams : ∀ e ∈ ctx.registry.templates.entries ++ ctx.registry.functions.entries,
    e.2.params.Nodup

namespace Context.Consistent

variable {ctx ctx' : Context}

theorem empty : Context.empty.Consistent where
  templates := rfl
  templatesGlobal := fun t member => nomatch member
  functionParams := rfl
  functions t member name span entry := by
    cases List.mem_singleton.1 member
    cases entry
  distinctParams := fun e member => nomatch member

/-- A recorded error plays no part. -/
theorem of_failure (consistent : ctx.Consistent) (failure : Option LoweringError) :
    { ctx with failure }.Consistent where
  templates := consistent.templates
  templatesGlobal := consistent.templatesGlobal
  functionParams := consistent.functionParams
  functions := consistent.functions
  distinctParams := consistent.distinctParams

/-- Variables, signals and components are not registered. -/
theorem of_declare (consistent : ctx.Consistent) {name : String} {symbol : Symbol} {scope : Scope}
    (plain : symbol.kind.isDeclared = true) (declared : ctx.scope.declare name symbol = .ok scope) :
    { ctx with scope }.Consistent := by
  obtain ⟨noTemplate, noFunction⟩ := SymbolKind.ne_of_isDeclared plain
  obtain ⟨outer, registry, failure⟩ := ctx
  obtain ⟨global, rfl, fresh, rfl⟩ | ⟨first, rest, global, rfl, fresh, rfl⟩ :=
    Scope.declare_eq_ok_cases declared
  · refine ⟨?_, consistent.templatesGlobal, consistent.functionParams, ?_,
      consistent.distinctParams⟩
    · exact consistent.templates.trans (Table.ofKind_insert_of_ne fresh noTemplate).symm
    · intro t member
      cases List.mem_singleton.1 member
      rw [Table.ofKind_insert_of_ne fresh noFunction]
      exact consistent.functions global (.head _)
  · refine ⟨consistent.templates, ?_, consistent.functionParams, ?_, consistent.distinctParams⟩
    · intro t member
      rcases List.mem_cons.1 member with rfl | member
      · rw [Table.ofKind_insert_of_ne fresh noTemplate]
        exact consistent.templatesGlobal first (.head _)
      · exact consistent.templatesGlobal t (.tail _ member)
    · intro t member
      rcases List.mem_cons.1 member with rfl | member
      · rw [Table.ofKind_insert_of_ne fresh noFunction]
        exact consistent.functions first (.head _)
      · exact consistent.functions t (.tail _ member)

/-- A fresh level holds no names. -/
theorem push (consistent : ctx.Consistent) :
    { ctx with scope := ctx.scope.push }.Consistent where
  templates := consistent.templates
  templatesGlobal t member := by
    rcases List.mem_cons.1 member with rfl | member
    · rfl
    · exact consistent.templatesGlobal t member
  functionParams := consistent.functionParams
  functions t member := by
    rcases List.mem_cons.1 member with rfl | member
    · intro name span entry
      cases entry
    · exact consistent.functions t member
  distinctParams := consistent.distinctParams

/-- Functions stay registered when the level that has their names is closed. -/
theorem pop (consistent : ctx.Consistent) : { ctx with scope := ctx.scope.pop }.Consistent where
  templates := consistent.templates
  templatesGlobal t member := consistent.templatesGlobal t (List.mem_of_mem_tail member)
  functionParams := consistent.functionParams
  functions t member := by
    rcases List.mem_append.1 member with member | member
    · exact consistent.functions t (List.mem_append_left _ (List.mem_of_mem_tail member))
    · exact consistent.functions t (List.mem_append_right _ member)
  distinctParams := consistent.distinctParams

/-- A name that is free in the global table is free among the templates. -/
theorem templates_get?_eq_none (consistent : ctx.Consistent) {name : String}
    (fresh : ctx.scope.global.get? name = none) : ctx.registry.templates.get? name = none := by
  rw [OrderedMap.get?_eq_none_iff]
  rintro ⟨other, d⟩ entry rfl
  have listed : (other, d.span) ∈ ctx.scope.global.ofKind .template := by
    rw [← consistent.templates]
    exact List.mem_map_of_mem entry
  rw [Table.mem_ofKind_iff.1 listed] at fresh
  cases fresh

theorem functionParams_get?_eq_none (consistent : ctx.Consistent) {name : String}
    (fresh : ctx.registry.functions.get? name = none) :
    ctx.registry.functionParams.get? name = none := by
  rw [OrderedMap.get?_eq_none_iff] at fresh ⊢
  rw [consistent.functionParams]
  intro e member
  obtain ⟨entry, entryMember, rfl⟩ := List.mem_map.1 member
  exact fresh entry entryMember

/-- A template is added to its registry and to the global table at once. -/
theorem registerTemplate (consistent : ctx.Consistent) {name : String} {d : Definition}
    (distinct : d.params.Nodup)
    (registered : runFrom ctx (Lowering.registerTemplate name d) = (.ok (), ctx')) :
    ctx'.Consistent ∧ ctx.registry.Continues ctx'.registry := by
  obtain ⟨scope, declared, rfl⟩ := runFrom_registerTemplate_eq_ok.1 registered
  obtain ⟨fresh, rfl⟩ := Scope.declareGlobal_eq_ok_iff.1 declared
  have entries := OrderedMap.entries_insert_of_fresh (consistent.templates_get?_eq_none fresh) d
  have noFunction : (⟨.template, d.span⟩ : Symbol).kind ≠ .function := nofun
  refine ⟨⟨?_, consistent.templatesGlobal, consistent.functionParams, ?_, ?_⟩, ?_⟩
  · rw [Table.ofKind_insert_self fresh, entries, List.map_append, consistent.templates]
    rfl
  · intro t member
    rcases List.mem_append.1 member with member | member
    · exact consistent.functions t (List.mem_append_left _ member)
    · cases List.mem_singleton.1 member
      rw [Table.ofKind_insert_of_ne fresh noFunction]
      exact consistent.functions ctx.scope.global
        (List.mem_append_right _ (List.mem_singleton_self _))
  · intro e member
    rw [entries, List.mem_append, List.mem_append, List.mem_singleton] at member
    rcases member with (member | rfl) | member
    · exact consistent.distinctParams e (List.mem_append_left _ member)
    · exact distinct
    · exact consistent.distinctParams e (List.mem_append_right _ member)
  · refine ⟨?_, List.prefix_rfl, List.prefix_rfl⟩
    rw [entries]
    exact List.prefix_append _ _

/-- A function is added to both of its registries and to the innermost table at once. -/
theorem registerFunction (consistent : ctx.Consistent) {name : String} {d : Definition}
    (distinct : d.params.Nodup)
    (registered : runFrom ctx (Lowering.registerFunction name d) = (.ok (), ctx')) :
    ctx'.Consistent ∧ ctx.registry.Continues ctx'.registry := by
  obtain ⟨unregistered, scope, declared, rfl⟩ := runFrom_registerFunction_eq_ok.1 registered
  have entries := OrderedMap.entries_insert_of_fresh unregistered d
  have paramEntries := OrderedMap.entries_insert_of_fresh
    (consistent.functionParams_get?_eq_none unregistered) d.params
  have noTemplate : (⟨.function, d.span⟩ : Symbol).kind ≠ .template := nofun
  have continues : ctx.registry.Continues { ctx.registry with
      functions := ctx.registry.functions.insert name d
      functionParams := ctx.registry.functionParams.insert name d.params } := by
    refine ⟨List.prefix_rfl, ?_, ?_⟩
    · rw [entries]
      exact List.prefix_append _ _
    · rw [paramEntries]
      exact List.prefix_append _ _
  have params : (ctx.registry.functionParams.insert name d.params).entries =
      (ctx.registry.functions.insert name d).entries.map fun e => (e.1, e.2.params) := by
    rw [entries, paramEntries, List.map_append, consistent.functionParams]
    rfl
  have allDistinct : ∀ e ∈ ctx.registry.templates.entries ++
      (ctx.registry.functions.insert name d).entries, e.2.params.Nodup := by
    intro e member
    rw [entries, ← List.append_assoc, List.mem_append, List.mem_singleton] at member
    rcases member with member | rfl
    · exact consistent.distinctParams e member
    · exact distinct
  have named : ∀ t ∈ ctx.scope.tables,
      t.NamesFunctions (ctx.registry.functions.insert name d) :=
    fun t member => Table.NamesFunctions.register (consistent.functions t member) unregistered d
  have found : (ctx.registry.functions.insert name d).get? name = some d :=
    OrderedMap.get?_insert_self ..
  refine ⟨?_, continues⟩
  obtain ⟨outer, registry, failure⟩ := ctx
  obtain ⟨global, rfl, fresh, rfl⟩ | ⟨first, rest, global, rfl, fresh, rfl⟩ :=
    Scope.declare_eq_ok_cases declared
  · refine ⟨?_, consistent.templatesGlobal, params, ?_, allDistinct⟩
    · exact consistent.templates.trans (Table.ofKind_insert_of_ne fresh noTemplate).symm
    · intro t member
      cases List.mem_singleton.1 member
      exact (named global (.head _)).declare fresh found
  · refine ⟨consistent.templates, ?_, params, ?_, allDistinct⟩
    · intro t member
      rcases List.mem_cons.1 member with rfl | member
      · rw [Table.ofKind_insert_of_ne fresh noTemplate]
        exact consistent.templatesGlobal first (.head _)
      · exact consistent.templatesGlobal t (.tail _ member)
    · intro t member
      rcases List.mem_cons.1 member with rfl | member
      · exact (named first (.head _)).declare fresh found
      · exact named t (.tail _ member)

end Context.Consistent

/-- Every change of a context keeps it consistent and only adds to the registries. -/
theorem Context.discipline_consistent : Context.Discipline fun ctx ctx' =>
    ctx.Consistent → ctx'.Consistent ∧ ctx.registry.Continues ctx'.registry where
  refl _ consistent := ⟨consistent, .refl _⟩
  trans first second consistent :=
    let ⟨consistent₁, continues₁⟩ := first consistent
    let ⟨consistent₂, continues₂⟩ := second consistent₁
    ⟨consistent₂, continues₁.trans continues₂⟩
  declare plain declared consistent := ⟨consistent.of_declare plain declared, .refl _⟩
  level inside consistent :=
    let ⟨consistent₁, continues⟩ := inside consistent.push
    ⟨consistent₁.pop, continues⟩
  registerTemplate distinct registered consistent :=
    consistent.registerTemplate distinct registered
  registerFunction distinct registered consistent :=
    consistent.registerFunction distinct registered

/-! ### Sequences of parts -/

/-- What generating code for a part of a unit does: nothing behind an error, and otherwise what
lowering does, with its error recorded. -/
theorem Node.runFrom_generate (n : Node) (ctx : Context) :
    runFrom ctx n.generate =
      match ctx.failure with
      | some e => (.error e, ctx)
      | none =>
        match runFrom ctx n.lower with
        | (.ok fragment, ctx') => (.ok fragment, ctx')
        | (.error e, ctx') => (.error e, { ctx' with failure := some e }) := by
  rw [Node.generate, runFrom_bind, runFrom_get]
  cases failed : ctx.failure with
  | some e => simp only [failed, runFrom_throw]
  | none =>
    simp only [failed, runFrom_tryCatch]
    rcases runFrom ctx n.lower with ⟨e | fragment, ctx'⟩
    · simp only [runFrom_bind, runFrom_modify, runFrom_throw]
    · rfl

theorem Node.consistent_of_generate (n : Node) {ctx : Context} (consistent : ctx.Consistent) :
    (runFrom ctx n.generate).2.Consistent ∧
      ctx.registry.Continues (runFrom ctx n.generate).2.registry := by
  have lowered := Node.follows_lower Context.discipline_consistent n ctx consistent
  rw [Node.runFrom_generate]
  cases ctx.failure with
  | some e => exact ⟨consistent, .refl _⟩
  | none =>
    rcases ran : runFrom ctx n.lower with ⟨e | fragment, ctx'⟩
    · rw [ran] at lowered
      exact ⟨lowered.1.of_failure (some e), lowered.2⟩
    · rw [ran] at lowered
      exact lowered

/-- The contexts that sequences of parts of a unit lead to, whether the parts fail or not. -/
inductive Context.Reachable : Context → Prop where
  | empty : Reachable .empty
  | generate {ctx : Context} (n : Node) : ctx.Reachable → Reachable (runFrom ctx n.generate).2

/-- Registries and scope stay consistent over every run. In each context that any sequence of parts
leads to, succeeding or failing, templates are registered exactly under the names that stand for
templates in the global table, in the same order and from the same places, and no other table has such
a name; the functions and their parameters are registered under the same names in the same order; every
name that stands for a function is registered with a function from the same place; and the parameters
of every definition are distinct. Every further part only adds to the registries, at their ends. -/
theorem Context.Reachable.consistent {ctx : Context} (reachable : ctx.Reachable) :
    ctx.Consistent ∧ ∀ n : Node, ctx.registry.Continues (runFrom ctx n.generate).2.registry := by
  have consistent : ctx.Consistent := by
    induction reachable with
    | empty => exact .empty
    | generate n _ ih => exact (n.consistent_of_generate ih).1
  exact ⟨consistent, fun n => (n.consistent_of_generate consistent).2⟩

/-- The context after `template T(n) { function f(x) {} }` and `template T() { function g(y, z) {} }`.
The second part fails, but only when the function inside it is registered already. -/
def Context.afterCollision : Context :=
  let empty : Node := .block .unknown []
  let first : Node :=
    .template .unknown "T" ["n"] (.block .unknown [.function .unknown "f" ["x"] empty])
  let second : Node :=
    .template .unknown "T" [] (.block .unknown [.function .unknown "g" ["y", "z"] empty])
  (runFrom (runFrom .empty first.generate).2 second.generate).2

theorem Context.Reachable.consistent_afterCollision :
    Context.afterCollision.Reachable ∧
      Context.afterCollision.failure = some (.collision "T" .unknown .unknown) ∧
      Context.afterCollision.registry.templates.keys = ["T"] ∧
      Context.afterCollision.registry.functions.keys = ["f", "g"] ∧
      Context.afterCollision.Consistent := by
  have reachable : Context.afterCollision.Reachable := .generate _ (.generate _ .empty)
  exact ⟨reachable, rfl, rfl, rfl, reachable.consistent.1⟩

end ArithCircuit
