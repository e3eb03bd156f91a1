import ArithCircuit.Proofs.Headings
import ArithCircuit.Proofs.Parts
import Mathlib.Data.List.Perm.Basic

set_option autoImplicit false
set_option relaxedAutoImplicit false

/-!
# Definitions compiled apart and together

A definition that compiles on its own compiles behind other definitions as well, as long as none of
them has a name in common with it: it is lowered to the same code, and the registries hold what they
held before, followed by what compiling it alone registers. What carries this over from one step to
the next is `Context.Joins`: a name that is found without the earlier definitions is found with them,
and stands for the same. Main statement: `Node.compile_block_of_definitions`.
-/

namespace ArithCircuit

open Lowering

/-! ### Maps behind other maps -/

namespace OrderedMap

variable {α : Type} {m n whole : OrderedMap α} {name : String} {value : α}

/-- A map holds the entries of one map, followed by those of another. -/
def Joins (m n whole : OrderedMap α) : Prop := whole.entries = m.entries ++ n.entries

namespace Joins

theorem empty (m : OrderedMap α) : m.Joins ∅ m := (List.append_nil m.entries).symm

theorem keys_eq (joins : m.Joins n whole) : whole.keys = m.keys ++ n.keys := by
  rw [keys, joins, List.map_append]
  rfl

theorem get?_eq_some (joins : m.Joins n whole) (found : n.get? name = some value) :
    whole.get? name = some value := by
  rw [get?_eq_some_iff] at found ⊢
  rw [joins]
  exact List.mem_append_right _ found

theorem get?_eq_none (joins : m.Joins n whole) (fresh : n.get? name = none)
    (other : name ∉ m.keys) : whole.get? name = none := by
  rw [get?_eq_none_iff_not_mem_keys] at fresh ⊢
  rw [joins.keys_eq, List.mem_append]
  rintro (member | member)
  · exact other member
  · exact fresh member

theorem insert (joins : m.Joins n whole) (other : name ∉ m.keys) (value : α) :
    m.Joins (n.insert name value) (whole.insert name value) := by
  rw [Joins, entries_insert, entries_insert, joins, assign_append other]

end Joins

end OrderedMap

/-! ### Contexts behind other contexts -/

namespace Context

/-- The global names of a context and the names of its registries. -/
def names (ctx : Context) : List String :=
  ctx.scope.global.keys ++ ctx.registry.templates.keys ++ ctx.registry.functions.keys ++
    ctx.registry.functionParams.keys

theorem mem_names_iff {ctx : Context} {name : String} :
    name ∈ ctx.names ↔ name ∈ ctx.scope.global.keys ∨ name ∈ ctx.registry.templates.keys ∨
      name ∈ ctx.registry.functions.keys ∨ name ∈ ctx.registry.functionParams.keys := by
  simp only [names, List.mem_append, or_assoc]

/-- No step takes a name back. -/
theorem discipline_names : Context.Discipline fun ctx ctx' => ctx.names ⊆ ctx'.names where
  refl _ := List.Subset.refl _
  trans := List.Subset.trans
  declare {ctx name symbol scope} _ declared := by
    obtain ⟨outer, registry, failure⟩ := ctx
    intro other member
    rw [mem_names_iff] at member ⊢
    obtain ⟨global, rfl, -, rfl⟩ | ⟨t, rest, global, rfl, -, rfl⟩ :=
      Scope.declare_eq_ok_cases declared
    · exact member.imp_left fun old => OrderedMap.keys_subset_insert global name symbol old
    · exact member
  level inside := inside
  registerTemplate {ctx ctx' name d} _ registered := by
    obtain ⟨scope, declared, rfl⟩ := runFrom_registerTemplate_eq_ok.1 registered
    obtain ⟨-, rfl⟩ := Scope.declareGlobal_eq_ok_iff.1 declared
    intro other member
    rw [mem_names_iff] at member ⊢
    obtain member | member | member := member
    · exact .inl (OrderedMap.keys_subset_insert _ _ _ member)
    · exact .inr (.inl (OrderedMap.keys_subset_insert _ _ _ member))
    · exact .inr (.inr member)
  registerFunction {ctx ctx' name d} _ registered := by
    obtain ⟨-, scope, declared, rfl⟩ := runFrom_registerFunction_eq_ok.1 registered
    obtain ⟨outer, registry, failure⟩ := ctx
    intro other member
    have kept : other ∈ outer.global.keys → other ∈ scope.global.keys := by
      intro old
      obtain ⟨global, rfl, -, rfl⟩ | ⟨t, rest, global, rfl, -, rfl⟩ :=
        Scope.declare_eq_ok_cases declared
      · exact OrderedMap.keys_subset_insert global name _ old
      · exact old
    rw [mem_names_iff] at member ⊢
    obtain member | member | member | member := member
    · exact .inl (kept member)
    · exact .inr (.inl member)
    · exact .inr (.inr (.inl (OrderedMap.keys_subset_insert _ _ _ member)))
    · exact .inr (.inr (.inr (OrderedMap.keys_subset_insert _ _ _ member)))

/-- A context holds what one context holds globally and in its registries, followed by what another
one holds there; its levels above the global one are those of the other one. -/
structure Joins (before ctx whole : Context) : Prop where
  inner : whole.scope.inner = ctx.scope.inner
  global : before.scope.global.Joins ctx.scope.global whole.scope.global
  templates : before.registry.templates.Joins ctx.registry.templates whole.registry.templates
  functions : before.registry.functions.Joins ctx.registry.functions whole.registry.functions
  functionParams : before.registry.functionParams.Joins ctx.registry.functionParams
    whole.registry.functionParams

namespace Joins

variable {before ctx whole : Context} {name : String} {symbol : Symbol} {scope : Scope}

theorem empty (alone : before.scope.inner = []) : before.Joins .empty before where
  inner := alone
  global := .empty _
  templates := .empty _
  functions := .empty _
  functionParams := .empty _

theorem mem_names_iff (joins : before.Joins ctx whole) :
    name ∈ whole.names ↔ name ∈ before.names ∨ name ∈ ctx.names := by
  simp only [Context.mem_names_iff, joins.global.keys_eq, joins.templates.keys_eq,
    joins.functions.keys_eq, joins.functionParams.keys_eq, List.mem_append]
  grind

/-- A name that is found stands for the same behind other definitions. -/
theorem lookup?_eq_some (joins : before.Joins ctx whole)
    (found : ctx.scope.lookup? name = some symbol) : whole.scope.lookup? name = some symbol := by
  rw [Scope.lookup?, Scope.tables, List.findSome?_append, Option.or_eq_some_iff] at found ⊢
  rw [joins.inner]
  obtain found | ⟨missing, found⟩ := found
  · exact .inl found
  · rw [List.findSome?_singleton] at found ⊢
    exact .inr ⟨missing, joins.global.get?_eq_some found⟩

/-- A name that can be declared can be declared behind other definitions, unless they have it. -/
theorem declare (joins : before.Joins ctx whole)
    (declared : ctx.scope.declare name symbol = .ok scope)
    (other : name ∈ scope.global.keys → name ∉ before.scope.global.keys) :
    ∃ scope', whole.scope.declare name symbol = .ok scope' ∧
      before.Joins { ctx with scope } { whole with scope := scope' } := by
  obtain ⟨outer, registry, failure⟩ := ctx
  obtain ⟨⟨levels, globals⟩, registry', failure'⟩ := whole
  obtain ⟨same, global, templates, functions, functionParams⟩ := joins
  obtain ⟨table, rfl, fresh, rfl⟩ | ⟨t, rest, table, rfl, fresh, rfl⟩ :=
    Scope.declare_eq_ok_cases declared
  · cases same
    have apart := other (OrderedMap.mem_keys_insert_self table name symbol)
    have absent := global.get?_eq_none fresh apart
    refine ⟨_, Scope.declare_eq_ok_iff.2 ⟨absent, rfl⟩, rfl, ?_, templates, functions,
      functionParams⟩
    exact global.insert apart symbol
  · cases same
    exact ⟨_, Scope.declare_eq_ok_iff.2 ⟨fresh, rfl⟩, rfl, global, templates, functions,
      functionParams⟩

end Joins

end Context

/-! ### Runs behind other definitions -/

/-- A step that succeeds without some definitions succeeds behind them, with the same result, if they
have none of the names that it leaves. -/
def Lowering.Carries {α : Type} (before : Context) (step : Lowering α) : Prop :=
  ∀ ctx a ctx' whole, runFrom ctx step = (.ok a, ctx') → ctx'.names.Disjoint before.names →
    before.Joins ctx whole →
      ∃ whole', runFrom whole step = (.ok a, whole') ∧ before.Joins ctx' whole'

namespace Lowering

variable {before : Context} {α β : Type} {step : Lowering α}

theorem carries_pure (a : α) : Carries before (pure a) := by
  intro ctx a' ctx' whole ran _ joins
  obtain ⟨rfl, rfl⟩ := runFrom_pure_eq_ok.1 ran
  exact ⟨whole, runFrom_pure .., joins⟩

theorem carries_throw (e : LoweringError) : Carries before (throw e : Lowering α) := by
  intro ctx a ctx' whole ran
  exact absurd ran runFrom_throw_ne_ok

/-- The names that the first of two steps leaves are left by both together. -/
theorem carries_bind {next : α → Lowering β} (first : Carries before step)
    (second : ∀ ctx a ctx', runFrom ctx step = (.ok a, ctx') →
      Lowering.Follows (fun ctx ctx' => ctx.names ⊆ ctx'.names) (next a) ∧ Carries before (next a)) :
    Carries before (step >>= next) := by
  intro ctx b ctx' whole ran apart joins
  obtain ⟨a, ctx₁, ranFirst, ranSecond⟩ := runFrom_bind_eq_ok.1 ran
  obtain ⟨grows, carries⟩ := second ctx a ctx₁ ranFirst
  have kept : ctx₁.names ⊆ ctx'.names := by
    have grown := grows ctx₁
    rw [ranSecond] at grown
    exact grown
  have apart₁ : ctx₁.names.Disjoint before.names := List.disjoint_of_subset_left kept apart
  obtain ⟨whole₁, ranFirst', joins₁⟩ := first ctx a ctx₁ whole ranFirst apart₁ joins
  obtain ⟨whole', ranSecond', joins'⟩ := carries ctx₁ b ctx' whole₁ ranSecond apart joins₁
  exact ⟨whole', runFrom_bind_eq_ok.2 ⟨a, whole₁, ranFirst', ranSecond'⟩, joins'⟩

theorem carries_resolve (name : String) (span : Span) : Carries before (resolve name span) := by
  intro ctx symbol ctx' whole ran _ joins
  obtain ⟨found, rfl⟩ := runFrom_resolve_eq_ok.1 ran
  exact ⟨whole, runFrom_resolve_eq_ok.2 ⟨joins.lookup?_eq_some found, rfl⟩, joins⟩

theorem carries_declare (name : String) (kind : SymbolKind) (span : Span) :
    Carries before (Lowering.declare name kind span) := by
  intro ctx u ctx' whole ran apart joins
  obtain ⟨scope, declared, rfl⟩ := runFrom_declare_eq_ok.1 ran
  have other : name ∈ scope.global.keys → name ∉ before.scope.global.keys := by
    intro global earlier
    exact apart (Context.mem_names_iff.2 (.inl global)) (Context.mem_names_iff.2 (.inl earlier))
  obtain ⟨scope', declared', joins'⟩ := joins.declare declared other
  exact ⟨_, runFrom_declare_eq_ok.2 ⟨scope', declared', rfl⟩, joins'⟩

theorem carries_inLevel (inside : Carries before step) : Carries before (inLevel step) := by
  intro ctx a ctx' whole ran apart joins
  obtain ⟨ctx₁, ranInside, rfl⟩ := runFrom_inLevel_eq_ok.1 ran
  have opened : before.Joins { ctx with scope := ctx.scope.push }
      { whole with scope := whole.scope.push } :=
    ⟨congrArg (∅ :: ·) joins.inner, joins.global, joins.templates, joins.functions,
      joins.functionParams⟩
  obtain ⟨whole₁, ranInside', joins₁⟩ := inside _ a ctx₁ _ ranInside apart opened
  refine ⟨_, runFrom_inLevel_eq_ok.2 ⟨whole₁, ranInside', rfl⟩, ?_⟩
  exact ⟨congrArg List.tail joins₁.inner, joins₁.global, joins₁.templates, joins₁.functions,
    joins₁.functionParams⟩

theorem carries_registerTemplate (name : String) (d : Definition) :
    Carries before (registerTemplate name d) := by
  intro ctx u ctx' whole ran apart joins
  obtain ⟨scope, declared, rfl⟩ := runFrom_registerTemplate_eq_ok.1 ran
  obtain ⟨fresh, rfl⟩ := Scope.declareGlobal_eq_ok_iff.1 declared
  have other : name ∉ before.names := by
    apply apart
    exact Context.mem_names_iff.2 (.inl (OrderedMap.mem_keys_insert_self ..))
  simp only [Context.mem_names_iff, not_or] at other
  obtain ⟨global, template, -, -⟩ := other
  have absent := joins.global.get?_eq_none fresh global
  refine ⟨_, runFrom_registerTemplate_eq_ok.2
    ⟨_, Scope.declareGlobal_eq_ok_iff.2 ⟨absent, rfl⟩, rfl⟩, ?_⟩
  exact ⟨joins.inner, joins.global.insert global _, joins.templates.insert template d,
    joins.functions, joins.functionParams⟩

theorem carries_registerFunction (name : String) (d : Definition) :
    Carries before (registerFunction name d) := by
  intro ctx u ctx' whole ran apart joins
  obtain ⟨unregistered, scope, declared, rfl⟩ := runFrom_registerFunction_eq_ok.1 ran
  have other : name ∉ before.names := by
    apply apart
    exact Context.mem_names_iff.2 (.inr (.inr (.inl (OrderedMap.mem_keys_insert_self ..))))
  simp only [Context.mem_names_iff, not_or] at other
  obtain ⟨global, -, function, functionParam⟩ := other
  have free := joins.functions.get?_eq_none unregistered function
  obtain ⟨scope', declared', joins'⟩ := joins.declare declared fun _ => global
  refine ⟨_, runFrom_registerFunction_eq_ok.2 ⟨free, scope', declared', rfl⟩, ?_⟩
  exact ⟨joins'.inner, joins'.global, joins'.templates, joins'.functions.insert function d,
    joins'.functionParams.insert functionParam d.params⟩

/-- No step takes a name back, and each is carried behind other definitions. -/
theorem carries_law (before : Context) : Law fun _ step =>
    Follows (fun ctx ctx' => ctx.names ⊆ ctx'.names) step ∧ Carries before step where
  pure a := ⟨Context.discipline_names.law.pure a, carries_pure a⟩
  throw e := ⟨Context.discipline_names.law.throw e, carries_throw e⟩
  bind_of_ok first second :=
    ⟨Context.discipline_names.law.bind_of_ok first.1 fun ctx a ctx' ran => (second ctx a ctx' ran).1,
      carries_bind first.2 second⟩
  resolve name span := ⟨Context.discipline_names.law.resolve name span, carries_resolve name span⟩
  declare name kind span declared :=
    ⟨Context.discipline_names.law.declare name span declared, carries_declare name kind span⟩
  inLevel inside := ⟨Context.discipline_names.law.inLevel inside.1, carries_inLevel inside.2⟩
  registerTemplate distinct :=
    ⟨Context.discipline_names.law.registerTemplate distinct, carries_registerTemplate _ _⟩
  registerFunction distinct :=
    ⟨Context.discipline_names.law.registerFunction distinct, carries_registerFunction _ _⟩

end Lowering

theorem Node.carries_lower (before : Context) (n : Node) : Carries before n.lower :=
  (Node.obeys_lower (carries_law before) n).2

/-! ### The names of a definition -/

/-- The name of a definition. -/
def Node.definedName? : Node → Option String
  | .template _ name _ _ => some name
  | .function _ name _ _ => some name
  | _ => none

/-- The names of the definitions of a node, at any depth. -/
def Node.definedNames (n : Node) : List String := n.definitions.filterMap Node.definedName?

/-- All symbols of a table stand for definitions. -/
def Table.OnlyDefinitions (t : Table) : Prop := ∀ e ∈ t.entries, e.2.kind.isDeclared = false

theorem Table.Gains.onlyDefinitions {P : Symbol → Prop} {t t' : Table} (gains : t.Gains P t')
    (only : t.OnlyDefinitions) (defines : ∀ symbol, P symbol → symbol.kind.isDeclared = false) :
    t'.OnlyDefinitions := by
  obtain ⟨gained, entries, fresh⟩ := gains
  intro e member
  rw [entries, List.mem_append] at member
  obtain member | member := member
  · exact only e member
  · exact defines e.2 (fresh e member).2

/-- The body of a definition leaves only the names of templates behind. -/
theorem Node.current_of_lowerBody {params : List String} {span : Span} {body : Node}
    {ss : List Stmt} {ctx ctx' : Context}
    (ran : runFrom ctx (Node.lowerBody params span body) = (.ok ss, ctx')) :
    ctx.scope.current.Gains (fun symbol => symbol.kind = .template) ctx'.scope.current := by
  obtain ⟨ctx₁, declared, lowered, -, rfl⟩ := runFrom_lowerBody_enter.1 ran
  exact Scope.Grows.current_of_level ((lowers_of_runFrom body lowered).grows_of_body declared)

namespace Node

variable {n : Node} {ctx ctx' : Context} {fragment : Fragment}

theorem onlyDefinitions_of_lower (definition : n.isDefinition = true)
    (lowered : runFrom ctx n.lower = (.ok fragment, ctx'))
    (only : ctx.scope.current.OnlyDefinitions) : ctx'.scope.current.OnlyDefinitions := by
  cases n
  case template span name params body =>
    obtain ⟨ss, ctx₁, ran, registered, -⟩ := runFrom_lower_template_eq_ok.1 lowered
    obtain ⟨scope, declared, rfl⟩ := runFrom_registerTemplate_eq_ok.1 registered
    have inner := (current_of_lowerBody ran).onlyDefinitions only
      fun symbol template => by rw [template]; rfl
    exact (Scope.Grows.current_of_declareGlobal declared).onlyDefinitions inner
      fun symbol template => by rw [template]; rfl
  case function span name params body =>
    obtain ⟨ss, ctx₁, ran, registered, -⟩ := runFrom_lower_function_eq_ok.1 lowered
    obtain ⟨-, scope, declared, rfl⟩ := runFrom_registerFunction_eq_ok.1 registered
    have inner := (current_of_lowerBody ran).onlyDefinitions only
      fun symbol template => by rw [template]; rfl
    have fresh := (Scope.declare_eq_ok_iff.1 declared).1
    have gains : ctx₁.scope.current.Gains (fun symbol => symbol.kind = .function) scope.current := by
      rw [Scope.current_of_declare declared]
      exact .insert fresh rfl
    exact gains.onlyDefinitions inner fun symbol function => by rw [function]; rfl
  all_goals cases definition

theorem inner_of_lower (lowered : runFrom .empty n.lower = (.ok fragment, ctx)) :
    ctx.scope.inner = [] := by
  have grows := Node.follows_lower Context.discipline_grows n .empty
  rw [lowered] at grows
  exact List.length_eq_zero_iff.1 (Nat.succ.inj grows.depth_eq)

theorem mem_definedNames_of_heading {heading? : Node → Option Heading}
    (names : ∀ m h, heading? m = some h → m.definedName? = some h.name) {name : String}
    (member : name ∈ ((n.statements true).filterMap heading?).map Heading.name) :
    name ∈ n.definedNames := by
  obtain ⟨h, listed, rfl⟩ := List.mem_map.1 member
  obtain ⟨m, statement, found⟩ := List.mem_filterMap.1 listed
  have named := names m h found
  have definition : m.isDefinition = true := by
    cases m
    case template | function => rfl
    all_goals cases named
  exact List.mem_filterMap.2 ⟨m, List.mem_filter.2 ⟨statement, definition⟩, named⟩

/-- A definition that is lowered alone leaves no names but those that it defines. -/
theorem names_subset_definedNames (definition : n.isDefinition = true)
    (lowered : runFrom .empty n.lower = (.ok fragment, ctx)) : ctx.names ⊆ n.definedNames := by
  have lowers := lowers_of_runFrom n lowered
  have adds := lowers.adds .empty
  have consistent := lowers.consistent_after .empty
  have alone := inner_of_lower lowered
  have only : ctx.scope.current.OnlyDefinitions :=
    onlyDefinitions_of_lower definition lowered nofun
  rw [Scope.current, alone] at only
  have templates : ctx.registry.templates.keys ⊆ n.definedNames := by
    intro name member
    rw [← OrderedMap.map_name_headings, adds.templates] at member
    exact mem_definedNames_of_heading
      (fun m h found => by cases m <;> cases found; rfl) member
  have functions : ctx.registry.functions.keys ⊆ n.definedNames := by
    intro name member
    rw [← OrderedMap.map_name_headings, adds.functions] at member
    exact mem_definedNames_of_heading
      (fun m h found => by cases m <;> cases found; rfl) member
  intro name member
  obtain global | template | function | param := Context.mem_names_iff.1 member
  · obtain ⟨⟨_, kind, span⟩, entry, rfl⟩ := List.mem_map.1 global
    have stands : ctx.scope.global.get? _ = some ⟨kind, span⟩ := OrderedMap.get?_eq_some_iff.2 entry
    have defines : kind.isDeclared = false := only _ entry
    cases kind
    case template =>
      have listed := Table.mem_ofKind_iff.2 stands
      rw [← consistent.templates] at listed
      obtain ⟨e, registered, same⟩ := List.mem_map.1 listed
      cases same
      exact templates (List.mem_map_of_mem registered)
    case function =>
      have last : ctx.scope.global ∈ ctx.scope.tables :=
        List.mem_append_right _ (List.mem_singleton_self _)
      obtain ⟨d, found, -⟩ :=
        consistent.functions _ last _ span (Table.mem_ofKind_iff.2 stands)
      exact functions (OrderedMap.mem_keys_of_get? found)
    all_goals cases defines
  · exact templates template
  · exact functions function
  · apply functions
    rw [OrderedMap.keys, consistent.functionParams, List.map_map] at param
    exact param

end Node

/-! ### Definitions one after the other -/

/-- A registry holds the entries of several registries, one after the other. -/
structure Registry.Concatenates (whole : Registry) (parts : List Registry) : Prop where
  templates : whole.templates.entries = parts.flatMap fun r => r.templates.entries
  functions : whole.functions.entries = parts.flatMap fun r => r.functions.entries
  functionParams : whole.functionParams.entries = parts.flatMap fun r => r.functionParams.entries

/-- Two registries hold the same definitions, perhaps in another order. -/
structure Registry.Permuted (r r' : Registry) : Prop where
  templates : r.templates.entries.Perm r'.templates.entries
  functions : r.functions.entries.Perm r'.functions.entries
  functionParams : r.functionParams.entries.Perm r'.functionParams.entries

theorem Registry.Concatenates.permuted {whole whole' : Registry} {parts parts' : List Registry}
    (first : whole.Concatenates parts) (second : whole'.Concatenates parts')
    (order : parts.Perm parts') : whole.Permuted whole' where
  templates := by
    rw [first.templates, second.templates]
    exact order.flatMap_right _
  functions := by
    rw [first.functions, second.functions]
    exact order.flatMap_right _
  functionParams := by
    rw [first.functionParams, second.functionParams]
    exact order.flatMap_right _

namespace Node

/-- A definition is lowered alone, with some context as a result. -/
def LowersAlone (n : Node) : Prop :=
  n.isDefinition = true ∧ ∃ fragment, runFrom .empty n.lower = (.ok fragment, n.after .empty)

/-- Definitions that are lowered alone are lowered one after the other behind others, if no name
occurs twice. -/
theorem lowerStatements_of_lowersAlone {ns : List Node} {before : Context}
    (alone : ∀ n ∈ ns, n.LowersAlone) (distinct : ns.Pairwise fun m n =>
      m.definedNames.Disjoint n.definedNames) (global : before.scope.inner = [])
    (apart : ∀ n ∈ ns, n.definedNames.Disjoint before.names) :
    ∃ ss whole, runFrom before (lowerStatements ns) = (.ok ss, whole) ∧
      whole.registry.Concatenates (before.registry :: ns.map fun n => (n.after .empty).registry) := by
  induction ns generalizing before with
  | nil =>
    refine ⟨[], before, by rw [lowerStatements]; exact runFrom_pure .., ?_⟩
    exact ⟨(List.append_nil _).symm, (List.append_nil _).symm, (List.append_nil _).symm⟩
  | cons n ns ih =>
    obtain ⟨definition, fragment, lowered⟩ := alone n (.head _)
    obtain ⟨others, distinct⟩ := List.pairwise_cons.1 distinct
    have names : (n.after .empty).names ⊆ n.definedNames :=
      names_subset_definedNames definition lowered
    have unused : (n.after .empty).names.Disjoint before.names :=
      List.disjoint_of_subset_left names (apart n (.head _))
    obtain ⟨whole, lowered', joins⟩ :=
      n.carries_lower before .empty fragment _ before lowered unused (.empty global)
    have global' : whole.scope.inner = [] := joins.inner.trans (inner_of_lower lowered)
    have apart' : ∀ m ∈ ns, m.definedNames.Disjoint whole.names := by
      intro m member name defined used
      obtain earlier | own := joins.mem_names_iff.1 used
      · exact apart m (.tail _ member) defined earlier
      · exact others m member (names own) defined
    obtain ⟨ss, whole', rest, concatenates⟩ :=
      ih (fun m member => alone m (.tail _ member)) distinct global' apart'
    refine ⟨fragment.statement?.toList ++ ss, whole', ?_, ?_⟩
    · simp only [lowerStatements, runFrom_bind_eq_ok, runFrom_pure_eq_ok]
      exact ⟨fragment, whole, lowered', ss, whole', rest, rfl, rfl⟩
    · obtain ⟨templates, functions, functionParams⟩ := concatenates
      constructor
      · rw [templates, List.map_cons, List.flatMap_cons, List.flatMap_cons, List.flatMap_cons,
          joins.templates, List.append_assoc]
      · rw [functions, List.map_cons, List.flatMap_cons, List.flatMap_cons, List.flatMap_cons,
          joins.functions, List.append_assoc]
      · rw [functionParams, List.map_cons, List.flatMap_cons, List.flatMap_cons, List.flatMap_cons,
          joins.functionParams, List.append_assoc]

theorem lowersAlone_of_compile {n : Node} {field : Field} {circuit : Circuit}
    (definition : n.isDefinition = true) (compiled : n.compile field = .ok circuit) :
    n.LowersAlone ∧ circuit.registry = (n.after .empty).registry := by
  obtain ⟨fragment, ctx, lowered, rfl⟩ := runFrom_of_compile compiled
  have same : n.after .empty = ctx := by rw [after, lowered]
  exact ⟨⟨definition, fragment, by rw [same]; exact lowered⟩, by rw [same]⟩

theorem lowersAlone_of_forall₂ {field : Field} {ns : List Node} {circuits : List Circuit}
    (definitions : ∀ n ∈ ns, n.isDefinition = true)
    (alone : List.Forall₂ (fun n circuit => n.compile field = .ok circuit) ns circuits) :
    (∀ n ∈ ns, n.LowersAlone) ∧
      circuits.map Circuit.registry = ns.map fun n => (n.after .empty).registry := by
  induction alone with
  | nil => exact ⟨List.forall_mem_nil _, rfl⟩
  | cons compiled _ ih =>
    obtain ⟨first, registry⟩ := lowersAlone_of_compile (definitions _ (.head _)) compiled
    obtain ⟨others, registries⟩ := ih fun m member => definitions m (.tail _ member)
    refine ⟨List.forall_mem_cons.2 ⟨first, others⟩, ?_⟩
    rw [List.map_cons, List.map_cons, registry, registries]

theorem compile_block_of_lowersAlone {ns : List Node} (alone : ∀ n ∈ ns, n.LowersAlone)
    (distinct : ns.Pairwise fun m n => m.definedNames.Disjoint n.definedNames) (field : Field)
    (span : Span) :
    ∃ circuit, (block span ns).compile field = .ok circuit ∧ circuit.field = field ∧
      circuit.registry.Concatenates (ns.map fun n => (n.after .empty).registry) := by
  have nothing : Context.empty.names = [] := rfl
  have apart : ∀ n ∈ ns, n.definedNames.Disjoint Context.empty.names := by
    intro n _
    rw [nothing]
    exact List.disjoint_nil_right _
  obtain ⟨ss, whole, lowered, concatenates⟩ :=
    lowerStatements_of_lowersAlone alone distinct rfl apart
  refine ⟨⟨field, whole.registry⟩, ?_, rfl, concatenates.templates, concatenates.functions,
    concatenates.functionParams⟩
  rw [compile_eq, runFrom_lower_block_eq_ok.2 ⟨ss, lowered, rfl⟩]

/-- Separate compilation. If each definition of a list compiles alone, and no name is defined inside
two of them, then the block of the list compiles, and its registries are those of the definitions
compiled alone, one after the other. In any other order the definitions compile to the same registries
up to order. -/
theorem compile_block_of_definitions {field : Field} {ns : List Node} {circuits : List Circuit}
    (definitions : ∀ n ∈ ns, n.isDefinition = true)
    (alone : List.Forall₂ (fun n circuit => n.compile field = .ok circuit) ns circuits)
    (distinct : ns.Pairwise fun m n => m.definedNames.Disjoint n.definedNames) (span : Span) :
    ∃ circuit, (block span ns).compile field = .ok circuit ∧ circuit.field = field ∧
      circuit.registry.Concatenates (circuits.map Circuit.registry) ∧
      ∀ ns', ns'.Perm ns → ∀ span',
        ∃ circuit', (block span' ns').compile field = .ok circuit' ∧ circuit'.field = field ∧
          circuit'.registry.Permuted circuit.registry := by
  obtain ⟨each, registries⟩ := lowersAlone_of_forall₂ definitions alone
  obtain ⟨circuit, compiled, inField, concatenates⟩ :=
    compile_block_of_lowersAlone each distinct field span
  refine ⟨circuit, compiled, inField, by rw [registries]; exact concatenates, ?_⟩
  intro ns' order span'
  have each' : ∀ n ∈ ns', n.LowersAlone := fun n member => each n (order.mem_iff.1 member)
  have distinct' : ns'.Pairwise fun m n => m.definedNames.Disjoint n.definedNames :=
    (order.pairwise_iff List.disjoint_symm).2 distinct
  obtain ⟨circuit', compiled', inField', concatenates'⟩ :=
    compile_block_of_lowersAlone each' distinct' field span'
  exact ⟨circuit', compiled', inField', concatenates'.permuted concatenates (order.map _)⟩

/-- The functions `even(n) { return odd(n); }` and `odd(n) { return even(n); }` and the template
`T(n) { function step(x) { x = x + n; } template U() { signal s; } }`. -/
def separateDefinitions : List Node :=
  let n : Node := .var .unknown "n" []
  let x : Node := .var .unknown "x" []
  let function (name callee : String) : Node :=
    .function .unknown name ["n"] (.block .unknown [.ret .unknown (.call .unknown callee [n])])
  let sum : Node := .op .unknown "=" [x, .op .unknown "+" [x, n]]
  let step : Node := .function .unknown "step" ["x"] (.block .unknown [sum])
  let u : Node := .template .unknown "U" []
    (.block .unknown [.declare .unknown "SIGNAL" (.var .unknown "s" [])])
  [function "even" "odd", function "odd" "even",
    .template .unknown "T" ["n"] (.block .unknown [step, u])]

theorem compile_block_of_separateDefinitions :
    separateDefinitions.map definedNames = [["even"], ["odd"], ["step", "U", "T"]] ∧
      ∃ circuits circuit,
        List.Forall₂ (fun n circuit => n.compile .bn254 = .ok circuit) separateDefinitions
          circuits ∧
        (block .unknown separateDefinitions).compile .bn254 = .ok circuit ∧
        circuit.registry.Concatenates (circuits.map Circuit.registry) ∧
        ∃ circuit', (block .unknown separateDefinitions.reverse).compile .bn254 = .ok circuit' ∧
          circuit'.registry.Permuted circuit.registry := by
  have names : separateDefinitions.map definedNames = [["even"], ["odd"], ["step", "U", "T"]] := rfl
  have definitions : ∀ n ∈ separateDefinitions, n.isDefinition = true := by
    simp [separateDefinitions, isDefinition]
  obtain ⟨circuits, alone⟩ : ∃ circuits, List.Forall₂
      (fun n circuit => n.compile .bn254 = .ok circuit) separateDefinitions circuits :=
    ⟨_, .cons rfl (.cons rfl (.cons rfl .nil))⟩
  have distinct : separateDefinitions.Pairwise fun m n =>
      m.definedNames.Disjoint n.definedNames := by
    have pairwise : (separateDefinitions.map definedNames).Pairwise List.Disjoint := by
      rw [names]
      simp [List.disjoint_left]
    exact List.pairwise_map.1 pairwise
  obtain ⟨circuit, compiled, -, concatenates, orders⟩ :=
    compile_block_of_definitions definitions alone distinct .unknown
  obtain ⟨circuit', reversed, -, permuted⟩ := orders _ (List.reverse_perm _) .unknown
  exact ⟨names, circuits, circuit, alone, compiled, concatenates, circuit', reversed, permuted⟩

end Node

end ArithCircuit
