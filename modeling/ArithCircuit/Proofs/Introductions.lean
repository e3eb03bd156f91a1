import ArithCircuit.Proofs.Events
import ArithCircuit.Proofs.ScopeDiscipline

set_option autoImplicit false
set_option relaxedAutoImplicit false

/-!
# Where the names of a unit are introduced

`Node.introductions` lists the places in a unit that introduce names, in the order of lowering, each
with the level that gets the name. A context is accounted for by introductions if every name in its
scope and every registered function was introduced by one of them, in the level where it is found,
by a node with the span that is kept for it: `Context.Accounted`.
-/

namespace ArithCircuit

open Lowering

/-! ### Introductions -/

namespace Node

/-- The ways in which a node introduces a name that stands for something: as a declared name, as a
parameter, or as the name of a definition. -/
inductive Introduces : Node → String → SymbolKind → Prop where
  | declared {span at' : Span} {tag name : String} {dimensions : List Node}
      {kind : DeclarationKind} : DeclarationKind.ofTag? tag = some kind →
      Introduces (.declare span tag (.var at' name dimensions)) name (.ofDeclaration kind)
  | param {n : Node} {name : String} : name ∈ n.params → Introduces n name .var
  | template {span : Span} {name : String} {params : List String} {body : Node} :
      Introduces (.template span name params body) name .template
  | function {span : Span} {name : String} {params : List String} {body : Node} :
      Introduces (.function span name params body) name .function

end Node

/-- A node with a name that it introduces, and the level that gets the name: the definitions that
the level lies in, innermost first. -/
structure Introduction where
  node : Node
  name : String
  kind : SymbolKind
  level : List Node
  introduces : node.Introduces name kind

/-- Two introductions cannot stand side by side: they introduce a name twice in one level, or twice
as a function. -/
def Introduction.Clashes (earlier later : Introduction) : Prop :=
  earlier.name = later.name ∧
    (earlier.level = later.level ∨ earlier.kind = .function ∧ later.kind = .function)

/-! ### The order of introductions -/

namespace Node

/-- The parameters of a definition, introduced in the level of its body. -/
def paramIntroductions (level : List Node) (definition : Node) : List Introduction :=
  definition.params.pmap (fun name isParam => ⟨definition, name, .var, definition :: level,
    .param isParam⟩) fun _ isParam => isParam

theorem map_name_paramIntroductions (level : List Node) (definition : Node) :
    (definition.paramIntroductions level).map Introduction.name = definition.params := by
  rw [paramIntroductions, List.map_pmap, List.pmap_eq_map, List.map_id']

/-- The introduction of a declaration of some node, if it is a plain name under a known tag. -/
def declaredIntroductions (level : List Node) (span : Span) (tag : String) :
    Node → List Introduction
  | .var at' name dimensions =>
    match known : DeclarationKind.ofTag? tag with
    | some kind =>
      [⟨.declare span tag (.var at' name dimensions), name, .ofDeclaration kind, level,
        .declared known⟩]
    | none => []
  | _ => []

theorem declaredIntroductions_of_known {level : List Node} {span at' : Span} {tag name : String}
    {dimensions : List Node} {kind : DeclarationKind}
    (known : DeclarationKind.ofTag? tag = some kind) :
    declaredIntroductions level span tag (.var at' name dimensions) =
      [⟨.declare span tag (.var at' name dimensions), name, .ofDeclaration kind, level,
        .declared known⟩] := by
  rw [declaredIntroductions]
  split
  · next kind' known' =>
    obtain rfl : kind' = kind := Option.some.inj (known'.symm.trans known)
    rfl
  · next unknown =>
    rw [known] at unknown
    cases unknown

end Node

mutual

/-- The introductions in a node that is lowered in some level, in the order of lowering and as often
as they are lowered, if everything is. -/
def Node.introductions (level : List Node) : Node → List Introduction
  | .number _ _ => []
  | .var _ _ selectors => Node.introductionsAll level selectors
  | .pin _ _ componentSelectors _ selectors =>
    Node.introductionsAll level componentSelectors ++ Node.introductionsAll level selectors
  | .op _ symbol operands =>
    match Operator.ofSymbol? symbol with
    | some operator =>
      if operator.stores then Node.storeIntroductions level operator operands
      else Node.introductionsAll level operands
    | none => []
  | .declare span tag name => Node.declaredIntroductions level span tag name
  | .call _ _ args => Node.introductionsAll level args
  | .block _ statements => Node.introductionsAll level statements
  | .forLoop _ init condition step body =>
    init.introductions level ++ condition.introductions level ++ step.introductions level ++
      body.introductions level
  | .whileLoop _ condition body => condition.introductions level ++ body.introductions level
  | .ret _ value => value.introductions level
  | .template span name params body =>
    Node.paramIntroductions level (.template span name params body) ++
      body.introductions (.template span name params body :: level) ++
      -- The name of a template is global, wherever the template is defined.
      [⟨.template span name params body, name, .template, [], .template⟩]
  | .function span name params body =>
    Node.paramIntroductions level (.function span name params body) ++
      body.introductions (.function span name params body :: level) ++
      [⟨.function span name params body, name, .function, level, .function⟩]
  | .inclusion _ _ content => Node.introductionsOption level content
  | .array _ items => Node.introductionsAll level items
termination_by structural n => n

/-- The introductions in nodes that are lowered one after the other. -/
def Node.introductionsAll (level : List Node) : List Node → List Introduction
  | [] => []
  | n :: ns => n.introductions level ++ Node.introductionsAll level ns
termination_by structural ns => ns

/-- The introductions in a node that may be absent. -/
def Node.introductionsOption (level : List Node) : Option Node → List Introduction
  | none => []
  | some n => n.introductions level
termination_by structural content => content

/-- The introductions in the operands of an operator that stores in the first one. An update reads
its target before the value, and a constrained assignment reads it back in the end. -/
def Node.storeIntroductions (level : List Node) (op : Operator) : List Node → List Introduction
  | [] => []
  | target :: values =>
    target.introductions level ++
      ((if op.updates then target.introductions level else []) ++
        (Node.introductionsAll level values ++
          (if op = .constrainedAssign then target.backParts (target.introductions level) else [])))
termination_by structural operands => operands

end

section

variable {level ns values : List Node} {span : Span} {op : Operator} {target : Node}

theorem Node.introductions_of_stores (stores : op.stores = true) :
    (Node.op span op.symbol (target :: values)).introductions level = target.introductions level ++
      ((if op.updates then target.introductions level else []) ++
        (Node.introductionsAll level values ++
          (if op = .constrainedAssign then target.backParts (target.introductions level)
            else []))) := by
  rw [Node.introductions, Operator.ofSymbol?_symbol]
  simp only [stores, if_true, Node.storeIntroductions]

theorem Node.introductionsAll_pair (m n : Node) :
    Node.introductionsAll level [m, n] = m.introductions level ++ n.introductions level := by
  rw [Node.introductionsAll, Node.introductionsAll, Node.introductionsAll, List.append_nil]

theorem Node.introductions_of_not_stores (plain : op.stores = false) :
    (Node.op span op.symbol ns).introductions level = Node.introductionsAll level ns := by
  rw [Node.introductions, Operator.ofSymbol?_symbol]
  simp only [plain, Bool.false_eq_true, if_false]

end

/-! ### Names that are accounted for -/

section

variable {root : Node} {trace trace' : List Introduction} {level : List Node} {name : String}
  {symbol : Symbol} {ctx ctx' : Context}

/-- A name was introduced in some level for what it stands for there. -/
def Symbol.Introduced (root : Node) (trace : List Introduction) (level : List Node) (name : String)
    (symbol : Symbol) : Prop :=
  ∃ i ∈ trace, root.Contains i.node ∧ i.name = name ∧ i.kind = symbol.kind ∧
    i.node.span = symbol.span ∧ i.level = level

/-- All names of a table were introduced in some level. -/
def Table.Introduced (root : Node) (trace : List Introduction) (level : List Node) (t : Table) :
    Prop :=
  ∀ name symbol, t.get? name = some symbol → symbol.Introduced root trace level name

/-- All names of the tables above the global one were introduced in their levels. -/
inductive Table.AllIntroduced (root : Node) (trace : List Introduction) :
    List Node → List Table → Prop where
  | nil : AllIntroduced root trace [] []
  | cons {definition : Node} {level : List Node} {t : Table} {ts : List Table} :
      t.Introduced root trace (definition :: level) → AllIntroduced root trace level ts →
      AllIntroduced root trace (definition :: level) (t :: ts)

/-- All names of a context were introduced in their levels. -/
structure Context.Accounted (root : Node) (trace : List Introduction) (level : List Node)
    (ctx : Context) : Prop where
  inner : Table.AllIntroduced root trace level ctx.scope.inner
  global : ctx.scope.global.Introduced root trace []
  functions : ∀ name d, ctx.registry.functions.get? name = some d →
    ∃ level, Symbol.Introduced root trace level name ⟨.function, d.span⟩

theorem Symbol.Introduced.mono (introduced : symbol.Introduced root trace level name)
    (grows : trace ⊆ trace') : symbol.Introduced root trace' level name :=
  let ⟨i, member, rest⟩ := introduced
  ⟨i, grows member, rest⟩

theorem Table.Introduced.mono {t : Table} (introduced : t.Introduced root trace level)
    (grows : trace ⊆ trace') : t.Introduced root trace' level :=
  fun name symbol found => (introduced name symbol found).mono grows

theorem Table.Introduced.insert {t : Table} (introduced : t.Introduced root trace level)
    (new : symbol.Introduced root trace level name) :
    Table.Introduced root trace level (t.insert name symbol) := by
  intro other symbol' found
  rw [OrderedMap.get?_insert] at found
  split at found
  · next same =>
    cases found
    rwa [same]
  · exact introduced other symbol' found

theorem Table.AllIntroduced.mono {ts : List Table} (introduced : AllIntroduced root trace level ts)
    (grows : trace ⊆ trace') : AllIntroduced root trace' level ts := by
  induction introduced with
  | nil => exact .nil
  | cons first _ ih => exact .cons (first.mono grows) ih

namespace Context.Accounted

theorem empty (root : Node) : Context.empty.Accounted root [] [] := ⟨.nil, nofun, nofun⟩

theorem mono (accounted : ctx.Accounted root trace level) (grows : trace ⊆ trace') :
    ctx.Accounted root trace' level where
  inner := accounted.inner.mono grows
  global := accounted.global.mono grows
  functions name d found :=
    let ⟨level, introduced⟩ := accounted.functions name d found
    ⟨level, introduced.mono grows⟩

theorem append (accounted : ctx.Accounted root trace level) (more : List Introduction) :
    ctx.Accounted root (trace ++ more) level :=
  accounted.mono (List.subset_append_left _ _)

/-- A name of the innermost table was introduced in the innermost level. -/
theorem current (accounted : ctx.Accounted root trace level) :
    ctx.scope.current.Introduced root trace level := by
  obtain ⟨⟨inner, global⟩, registry, failure⟩ := ctx
  cases accounted.inner with
  | nil => exact accounted.global
  | cons first _ => exact first

theorem declare {scope : Scope} (accounted : ctx.Accounted root trace level)
    (declared : ctx.scope.declare name symbol = .ok scope)
    (new : symbol.Introduced root trace level name) :
    { ctx with scope }.Accounted root trace level := by
  obtain ⟨outer, registry, failure⟩ := ctx
  obtain ⟨inner, global, functions⟩ := accounted
  obtain ⟨table, rfl, -, rfl⟩ | ⟨t, rest, table, rfl, -, rfl⟩ :=
    Scope.declare_eq_ok_cases declared
  · cases inner
    exact ⟨.nil, global.insert new, functions⟩
  · obtain ⟨⟩ | ⟨first, others⟩ := inner
    exact ⟨.cons (first.insert new) others, global, functions⟩

theorem registerTemplate {d : Definition} (accounted : ctx.Accounted root trace level)
    (registered : runFrom ctx (Lowering.registerTemplate name d) = (.ok (), ctx'))
    (new : Symbol.Introduced root trace [] name ⟨.template, d.span⟩) :
    ctx'.Accounted root trace level := by
  obtain ⟨scope, declared, rfl⟩ := runFrom_registerTemplate_eq_ok.1 registered
  obtain ⟨-, rfl⟩ := Scope.declareGlobal_eq_ok_iff.1 declared
  exact ⟨accounted.inner, accounted.global.insert new, accounted.functions⟩

theorem registerFunction {d : Definition} (accounted : ctx.Accounted root trace level)
    (registered : runFrom ctx (Lowering.registerFunction name d) = (.ok (), ctx'))
    (new : Symbol.Introduced root trace level name ⟨.function, d.span⟩) :
    ctx'.Accounted root trace level := by
  obtain ⟨-, scope, declared, rfl⟩ := runFrom_registerFunction_eq_ok.1 registered
  obtain ⟨inner, global, -⟩ := accounted.declare declared new
  refine ⟨inner, global, ?_⟩
  intro other d' found
  rw [OrderedMap.get?_insert] at found
  split at found
  · next same =>
    cases found
    exact ⟨level, same ▸ new⟩
  · exact accounted.functions other d' found

theorem push (accounted : ctx.Accounted root trace level) (definition : Node) :
    { ctx with scope := ctx.scope.push }.Accounted root trace (definition :: level) :=
  ⟨.cons nofun accounted.inner, accounted.global, accounted.functions⟩

theorem leave {definition : Node} (accounted : ctx.Accounted root trace (definition :: level)) :
    ctx.leave.Accounted root trace level := by
  obtain ⟨⟨inner, global⟩, registry, failure⟩ := ctx
  obtain ⟨inner, outermost, functions⟩ := accounted
  cases inner with
  | cons _ rest => exact ⟨rest, outermost, functions⟩

end Context.Accounted

end

end ArithCircuit
