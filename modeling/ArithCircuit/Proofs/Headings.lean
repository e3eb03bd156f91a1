import ArithCircuit.Proofs.Consistency
import ArithCircuit.Proofs.ScopeDiscipline

set_option autoImplicit false
set_option relaxedAutoImplicit false

/-!
# The circuit of a unit holds the definitions of the unit

A unit that compiles registers each definition among its statements once, in the order in which their
lowering ends, under its own name and with its own parameters. The names of all templates are global
afterwards; of the functions only those that are defined outside all definitions. Main statement:
`Node.headings_of_compile`.
-/

namespace ArithCircuit

open Lowering

/-- What a definition is known by: its name, its parameters and its place. -/
structure Heading where
  name : String
  params : List String
  span : Span

/-- The heading of a template. -/
def Node.template? : Node → Option Heading
  | .template span name params _ => some ⟨name, params, span⟩
  | _ => none

/-- The heading of a function. -/
def Node.function? : Node → Option Heading
  | .function span name params _ => some ⟨name, params, span⟩
  | _ => none

/-- The headings of registered definitions, oldest first. -/
def OrderedMap.headings (m : OrderedMap Definition) : List Heading :=
  m.entries.map fun e => ⟨e.1, e.2.params, e.2.span⟩

/-- The definitions among the statements of a node that lie inside no other definition. -/
def Node.outerDefinitions (n : Node) : List Node := (n.statements false).filter Node.isDefinition

theorem OrderedMap.headings_insert {m : OrderedMap Definition} {name : String}
    (fresh : m.get? name = none) (d : Definition) :
    OrderedMap.headings (m.insert name d) = m.headings ++ [⟨name, d.params, d.span⟩] := by
  rw [OrderedMap.headings, OrderedMap.entries_insert_of_fresh fresh, List.map_append]
  rfl

theorem OrderedMap.map_name_headings (m : OrderedMap Definition) :
    m.headings.map Heading.name = m.keys := by
  rw [OrderedMap.headings, List.map_map]
  rfl

theorem Node.filterMap_isDefinition {heading? : Node → Option Heading}
    (only : ∀ n, n.isDefinition = false → heading? n = none) (ns : List Node) :
    (ns.filter Node.isDefinition).filterMap heading? = ns.filterMap heading? := by
  induction ns with
  | nil => rfl
  | cons n ns ih =>
    cases found : n.isDefinition with
    | true => rw [List.filter_cons_of_pos found, List.filterMap_cons, List.filterMap_cons, ih]
    | false =>
      rw [List.filter_cons_of_neg (by simp [found]), ih, List.filterMap_cons_none (only n found)]

theorem Node.template?_eq_none {n : Node} (other : n.isDefinition = false) : n.template? = none := by
  cases n
  case template => cases other
  all_goals rfl

theorem Node.function?_eq_none {n : Node} (other : n.isDefinition = false) : n.function? = none := by
  cases n
  case function => cases other
  all_goals rfl

/-! ### What a table gains -/

/-- A table that gains only names of another kind has the same names of a kind. -/
theorem Table.Gains.ofKind_eq {P : Symbol → Prop} {t t' : Table} (gains : t.Gains P t')
    {kind : SymbolKind} (other : ∀ symbol, P symbol → symbol.kind ≠ kind) :
    t'.ofKind kind = t.ofKind kind := by
  obtain ⟨gained, entries, fresh⟩ := gains
  have none : gained.filter (fun e => e.2.kind = kind) = [] := by
    rw [List.filter_eq_nil_iff]
    intro e member
    simpa using other e.2 (fresh e member).2
  rw [Table.ofKind, entries, List.filter_append, none, List.append_nil]
  rfl

/-! ### What a lowering adds -/

/-- From one context to another the registries get the definitions among some statements, in their
order, and the innermost table the names of the functions among some others. -/
structure Context.Adds (ctx : Context) (all outer : List Node) (ctx' : Context) : Prop where
  templates : ctx'.registry.templates.headings =
    ctx.registry.templates.headings ++ all.filterMap Node.template?
  functions : ctx'.registry.functions.headings =
    ctx.registry.functions.headings ++ all.filterMap Node.function?
  named : ctx'.scope.current.ofKind .function = ctx.scope.current.ofKind .function ++
    (outer.filterMap Node.function?).map fun h => (h.name, h.span)

namespace Context.Adds

variable {ctx ctx₁ ctx₂ : Context} {all outer all' outer' : List Node} {n : Node}

theorem refl (ctx : Context) : ctx.Adds [] [] ctx :=
  ⟨(List.append_nil _).symm, (List.append_nil _).symm, (List.append_nil _).symm⟩

theorem append (first : ctx.Adds all outer ctx₁) (second : ctx₁.Adds all' outer' ctx₂) :
    ctx.Adds (all ++ all') (outer ++ outer') ctx₂ where
  templates := by
    rw [second.templates, first.templates, List.filterMap_append, List.append_assoc]
  functions := by
    rw [second.functions, first.functions, List.filterMap_append, List.append_assoc]
  named := by
    rw [second.named, first.named, List.filterMap_append, List.map_append, List.append_assoc]

theorem cons (adds : ctx.Adds all outer ctx₁) (other : n.isDefinition = false) :
    ctx.Adds (n :: all) (n :: outer) ctx₁ where
  templates := by rw [List.filterMap_cons_none (Node.template?_eq_none other), adds.templates]
  functions := by rw [List.filterMap_cons_none (Node.function?_eq_none other), adds.functions]
  named := by rw [List.filterMap_cons_none (Node.function?_eq_none other), adds.named]

theorem tail (adds : ctx.Adds (n :: all) (n :: outer) ctx₁) (other : n.isDefinition = false) :
    ctx.Adds all outer ctx₁ := by
  obtain ⟨templates, functions, named⟩ := adds
  rw [List.filterMap_cons_none (Node.template?_eq_none other)] at templates
  rw [List.filterMap_cons_none (Node.function?_eq_none other)] at functions named
  exact ⟨templates, functions, named⟩

end Context.Adds

/-- Declarations add no definition. -/
theorem Context.frame_adds : Context.Frame fun ctx ctx' => ctx.Adds [] [] ctx' where
  refl := .refl
  trans := .append
  declare {ctx name symbol scope} plain declared := by
    refine ⟨(List.append_nil _).symm, (List.append_nil _).symm, ?_⟩
    have fresh := (Scope.declare_eq_ok_iff.1 declared).1
    have noFunction := (SymbolKind.ne_of_isDeclared plain).2
    show scope.current.ofKind .function = _
    rw [Scope.current_of_declare declared, Table.ofKind_insert_of_ne fresh noFunction]
    exact (List.append_nil _).symm

open Context

theorem Node.Lowers.consistent_after {n : Node} {ctx ctx' : Context} {fragment : Fragment}
    (lowers : n.Lowers ctx fragment ctx') (consistent : ctx.Consistent) : ctx'.Consistent := by
  have kept := (Node.follows_lower discipline_consistent n ctx consistent).1
  rw [lowers.runFrom_eq_ok] at kept
  exact kept

theorem Node.consistent_of_expr {n : Node} {ctx ctx' : Context} {e : Expr}
    (lowered : runFrom ctx n.lower = (.ok (.expr e), ctx')) (consistent : ctx.Consistent) :
    ctx'.Consistent :=
  (Node.lowers_of_runFrom n lowered).consistent_after consistent

theorem Context.Consistent.enter {ctx : Context} (consistent : ctx.Consistent)
    (params : List String) (span : Span) : (ctx.enter params span).Consistent :=
  (discipline_consistent.params params span _ consistent.push).1

/-- What the body of a definition leaves behind: its level is closed, so no name of a function in it
remains, and the definitions inside it are registered. -/
private theorem adds_body {ctx ctx₁ : Context} {params : List String} {span : Span} {body : Node}
    {ss : List Stmt} {all outer : List Node}
    (declared : runFrom { ctx with scope := ctx.scope.push }
      (params.forM fun param => Lowering.declare param .var span) =
        (.ok (), ctx.enter params span))
    (inside : body.Lowers (ctx.enter params span) (.stmt (.block ss)) ctx₁)
    (adds : (ctx.enter params span).Adds all outer ctx₁) : ctx.Adds all [] ctx₁.leave := by
  have entered := keeps_params frame_adds span params _ _ _ declared
  have whole := entered.append adds
  have grows := inside.grows_of_body declared
  refine ⟨whole.templates, whole.functions, ?_⟩
  rw [List.filterMap_nil, List.map_nil, List.append_nil]
  apply (Scope.Grows.current_of_level grows).ofKind_eq
  intro symbol template same
  rw [template] at same
  cases same

private theorem adds_template {ctx ctx' : Context} {span : Span} {name : String}
    {params : List String} {body : Node} {ss : List Stmt} (consistent : ctx.Consistent)
    (registered : runFrom ctx (registerTemplate name ⟨params, ss, span⟩) = (.ok (), ctx')) :
    ctx.Adds [.template span name params body] [.template span name params body] ctx' := by
  obtain ⟨scope, declared, rfl⟩ := runFrom_registerTemplate_eq_ok.1 registered
  have fresh := (Scope.declareGlobal_eq_ok_iff.1 declared).1
  refine ⟨?_, (List.append_nil _).symm, ?_⟩
  · exact OrderedMap.headings_insert (consistent.templates_get?_eq_none fresh) _
  · have noFunction : ∀ symbol : Symbol, symbol.kind = .template → symbol.kind ≠ .function := by
      intro symbol template same
      rw [template] at same
      cases same
    have same := (Scope.Grows.current_of_declareGlobal declared).ofKind_eq noFunction
    exact same.trans (List.append_nil _).symm

private theorem adds_function {ctx ctx' : Context} {span : Span} {name : String}
    {params : List String} {body : Node} {ss : List Stmt}
    (registered : runFrom ctx (registerFunction name ⟨params, ss, span⟩) = (.ok (), ctx')) :
    ctx.Adds [.function span name params body] [.function span name params body] ctx' := by
  obtain ⟨unregistered, scope, declared, rfl⟩ := runFrom_registerFunction_eq_ok.1 registered
  have fresh := (Scope.declare_eq_ok_iff.1 declared).1
  refine ⟨(List.append_nil _).symm, OrderedMap.headings_insert unregistered _, ?_⟩
  show scope.current.ofKind .function = _
  rw [Scope.current_of_declare declared, Table.ofKind_insert_self fresh]
  rfl

/-- Lowering a node adds the definitions among its statements. -/
theorem Node.Lowers.adds {n : Node} {ctx ctx' : Context} {fragment : Fragment}
    (lowers : n.Lowers ctx fragment ctx') (consistent : ctx.Consistent) :
    ctx.Adds (n.statements true) (n.statements false) ctx' := by
  induction lowers with
  | @simple ctx ctx' n fragment simple ran =>
    rw [Node.statements_of_isSimple simple, Node.statements_of_isSimple simple]
    exact (Node.frame_of_isSimple frame_adds simple ran).cons
      (Node.isDefinition_of_isSimple simple)
  | blockNil =>
    rw [Node.statements, Node.statements, Node.statementsAll, Node.statementsAll]
    exact (Adds.refl _).cons rfl
  | blockCons first _ ihFirst ihRest =>
    have rest := ihRest (first.consistent_after consistent)
    rw [Node.statements, Node.statements] at rest ⊢
    rw [Node.statementsAll, Node.statementsAll]
    exact ((ihFirst consistent).append (rest.tail rfl)).cons rfl
  | forLoop first tested second _ ihInit ihStep ihBody =>
    have afterInit := first.consistent_after consistent
    have afterTest := Node.consistent_of_expr tested afterInit
    have tests := Node.frame_of_expr frame_adds _ tested
    have stepped := ((ihInit consistent).append tests).append (ihStep afterTest)
    rw [List.append_nil, List.append_nil] at stepped
    rw [Node.statements, Node.statements]
    exact (stepped.append (ihBody (second.consistent_after afterTest))).cons rfl
  | whileLoop tested _ ihBody =>
    have tests := Node.frame_of_expr frame_adds _ tested
    rw [Node.statements, Node.statements]
    exact (tests.append (ihBody (Node.consistent_of_expr tested consistent))).cons rfl
  | template declared inside _ registered ihBody =>
    have left := (inside.consistent_after (consistent.enter _ _)).pop
    rw [Node.statements, Node.statements, if_pos rfl, if_neg Bool.false_ne_true]
    exact (adds_body declared inside (ihBody (consistent.enter _ _))).append
      (adds_template left registered)
  | function declared inside _ registered ihBody =>
    rw [Node.statements, Node.statements, if_pos rfl, if_neg Bool.false_ne_true]
    exact (adds_body declared inside (ihBody (consistent.enter _ _))).append
      (adds_function registered)
  | inclusionNone =>
    rw [Node.statements, Node.statements, Node.statementsOption, Node.statementsOption]
    exact (Adds.refl _).cons rfl
  | inclusionSome _ ih =>
    rw [Node.statements, Node.statements, Node.statementsOption, Node.statementsOption]
    exact (ih consistent).cons rfl

/-! ### Compilation units -/

/-- The circuit of a unit holds exactly the definitions of the unit. If a unit compiles, its templates
are the templates among the statements of the unit, at any depth, in the order in which their lowering
ends, and its functions and their parameters are the functions among them; no two templates and no two
functions have the same name. In the context after the run every template can be looked up in the
global scope, and a name stands for a function there exactly if it is that of a function of the unit
outside all definitions. -/
theorem Node.headings_of_compile {root : Node} {field : Field} {circuit : Circuit}
    (compiled : root.compile field = .ok circuit) :
    let templates := root.definitions.filterMap Node.template?
    let functions := root.definitions.filterMap Node.function?
    circuit.registry.templates.headings = templates ∧
      circuit.registry.functions.headings = functions ∧
      circuit.registry.functionParams.entries = functions.map (fun h => (h.name, h.params)) ∧
      (templates.map Heading.name).Nodup ∧ (functions.map Heading.name).Nodup ∧
      ∃ fragment ctx, runFrom .empty root.generate = (.ok fragment, ctx) ∧
        ctx.registry = circuit.registry ∧ ctx.scope.depth = 1 ∧
        (∀ h ∈ templates, ∀ span, ctx.scope.resolve h.name span = .ok ⟨.template, h.span⟩) ∧
        ∀ name span, ctx.scope.global.get? name = some ⟨.function, span⟩ ↔
          ∃ h ∈ root.outerDefinitions.filterMap Node.function?, h.name = name ∧ h.span = span := by
  obtain ⟨fragment, ctx, lowered, rfl⟩ := Node.runFrom_of_compile compiled
  have lowers := Node.lowers_of_runFrom root lowered
  have consistent := lowers.consistent_after Context.Consistent.empty
  have adds := lowers.adds Context.Consistent.empty
  have templates : ctx.registry.templates.headings = root.definitions.filterMap Node.template? := by
    rw [Node.definitions, Node.filterMap_isDefinition fun _ => Node.template?_eq_none]
    exact adds.templates
  have functions : ctx.registry.functions.headings = root.definitions.filterMap Node.function? := by
    rw [Node.definitions, Node.filterMap_isDefinition fun _ => Node.function?_eq_none]
    exact adds.functions
  have named : ctx.scope.current.ofKind .function =
      (root.outerDefinitions.filterMap Node.function?).map fun h => (h.name, h.span) := by
    rw [Node.outerDefinitions, Node.filterMap_isDefinition fun _ => Node.function?_eq_none]
    exact adds.named
  have generated : runFrom .empty root.generate = (.ok fragment, ctx) := by
    rw [Node.runFrom_generate, lowered]
    rfl
  have depth : ctx.scope.depth = 1 := by
    have grows := Node.follows_lower discipline_grows root .empty
    rw [lowered] at grows
    exact grows.depth_eq
  have alone : ctx.scope.inner = [] := List.length_eq_zero_iff.1 (Nat.succ.inj depth)
  have innermost : ctx.scope.current = ctx.scope.global := by rw [Scope.current, alone]
  have found : ∀ name, ctx.scope.lookup? name = ctx.scope.global.get? name := by
    intro name
    rw [Scope.lookup?, Scope.tables, alone, List.nil_append, List.findSome?_singleton]
  refine ⟨templates, functions, ?_, ?_, ?_, fragment, ctx, generated, rfl, depth, ?_, ?_⟩
  · rw [← functions, OrderedMap.headings, List.map_map]
    exact consistent.functionParams
  · rw [← templates, OrderedMap.map_name_headings]
    exact ctx.registry.templates.nodup
  · rw [← functions, OrderedMap.map_name_headings]
    exact ctx.registry.functions.nodup
  · intro h member span
    rw [← templates] at member
    obtain ⟨e, entry, rfl⟩ := List.mem_map.1 member
    have listed : (e.1, e.2.span) ∈ ctx.scope.global.ofKind .template := by
      rw [← consistent.templates]
      exact List.mem_map_of_mem entry
    rw [Scope.resolve, found, Table.mem_ofKind_iff.1 listed]
  · intro name span
    rw [← Table.mem_ofKind_iff, ← innermost, named]
    simp

/-- A unit with definitions inside definitions, in an included file and in a loop:
`include "T"; function h(y, z) {} template U() { template V() {} }`, where the file contains
`template T(n) { function f(x) {} while (n) { function g() {} } }`. -/
def Node.nestedDefinitions : Node :=
  let empty : Node := .block .unknown []
  let f : Node := .function .unknown "f" ["x"] empty
  let g : Node := .function .unknown "g" [] empty
  let loop : Node := .whileLoop .unknown (.var .unknown "n" []) (.block .unknown [g])
  let included : Node := .template .unknown "T" ["n"] (.block .unknown [f, loop])
  .block .unknown
    [.inclusion .unknown (some "T") (some included),
      .function .unknown "h" ["y", "z"] empty,
      .template .unknown "U" [] (.block .unknown [.template .unknown "V" [] empty])]

theorem Node.headings_of_compile_nestedDefinitions :
    ∃ circuit, Node.nestedDefinitions.compile .bn254 = .ok circuit ∧
      circuit.registry.templates.headings.map Heading.name = ["T", "V", "U"] ∧
      circuit.registry.functions.headings.map Heading.name = ["f", "g", "h"] ∧
      ∃ fragment ctx, runFrom .empty Node.nestedDefinitions.generate = (.ok fragment, ctx) ∧
        ctx.scope.resolve "V" .unknown = .ok ⟨.template, .unknown⟩ ∧
        ctx.scope.global.get? "h" = some ⟨.function, .unknown⟩ ∧
        ctx.scope.global.get? "f" ≠ some ⟨.function, .unknown⟩ := by
  have succeeds : (Node.nestedDefinitions.compile .bn254).isOk = true := by decide +kernel
  obtain ⟨circuit, compiled⟩ : ∃ circuit, Node.nestedDefinitions.compile .bn254 = .ok circuit := by
    cases outcome : Node.nestedDefinitions.compile .bn254 with
    | ok circuit => exact ⟨circuit, rfl⟩
    | error e =>
      rw [outcome] at succeeds
      cases succeeds
  obtain ⟨templates, functions, -, -, -, fragment, ctx, generated, -, -, resolved, named⟩ :=
    Node.headings_of_compile compiled
  refine ⟨circuit, compiled, ?_, ?_, fragment, ctx, generated, ?_, ?_, ?_⟩
  · rw [templates]
    rfl
  · rw [functions]
    rfl
  · exact resolved ⟨"V", [], .unknown⟩ (.tail _ (.head _)) .unknown
  · exact (named "h" .unknown).2 ⟨⟨"h", ["y", "z"], .unknown⟩, .head _, rfl, rfl⟩
  · intro inner
    obtain ⟨h, member, same, -⟩ := (named "f" .unknown).1 inner
    cases List.mem_singleton.1 member
    exact absurd same (by decide)

end ArithCircuit
