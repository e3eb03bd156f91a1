import ArithCircuit.Proofs.Events

set_option autoImplicit false
set_option relaxedAutoImplicit false

/-!
# Code refers to declared names

Each cell in the code of a definition comes from a reference in the body of the definition. Its name
is a parameter of the definition or of one around it, or it was declared there, or outside of all
definitions, with a tag that fits the kind of the cell; and it was declared before the reference was
lowered. What carries the induction is that at each moment every variable, signal and component in
scope has been introduced by a parameter or by an event of the trace so far: `Scope.Explained`. Main
statement: `Node.references_of_compile`.
-/

namespace ArithCircuit

open Lowering

theorem SymbolKind.tag_mem_tags_ofDeclaration (kind : DeclarationKind) :
    kind.tag ∈ (SymbolKind.ofDeclaration kind).tags := by
  cases kind <;> decide

theorem Cell.isDeclared_kind (cell : Cell) : cell.kind.isDeclared = true := by
  cases cell <;> rfl

/-! ### Names in scope -/

section

variable {trace trace' : List Event} {around around' : List Node} {name : String}

/-- What is known stays known, further on in the trace and further inside. -/
theorem Event.Known.mono {kind : SymbolKind} (known : Event.Known trace around name kind)
    (grows : trace ⊆ trace') (inside : around <:+ around') :
    Event.Known trace' around' name kind := by
  cases known with
  | param member isParam => exact .param (inside.subset member) isParam
  | declared member outside introduces =>
    exact .declared (grows member) (outside.trans inside) introduces

/-- Every variable, signal and component in a table is known. -/
def Table.Explained (trace : List Event) (around : List Node) (t : Table) : Prop :=
  ∀ name symbol, t.get? name = some symbol → symbol.kind.isDeclared = true →
    Event.Known trace around name symbol.kind

theorem Table.Explained.mono {t : Table} (explained : t.Explained trace around)
    (grows : trace ⊆ trace') : t.Explained trace' around :=
  fun name symbol found declared =>
    (explained name symbol found declared).mono grows (List.suffix_refl around)

theorem Table.explained_empty : Table.Explained trace around ∅ := nofun

theorem Table.Explained.insert {t : Table} {symbol : Symbol} (explained : t.Explained trace around)
    (known : symbol.kind.isDeclared = true → Event.Known trace around name symbol.kind) :
    Table.Explained trace around (t.insert name symbol) := by
  intro other symbol' found declared
  rw [OrderedMap.get?_insert] at found
  split at found
  · next same =>
    cases found
    exact same ▸ known declared
  · exact explained other symbol' found declared

/-- The levels above the global one, each explained inside the definition that it was opened for. -/
inductive Table.AllExplained (trace : List Event) : List Node → List Table → Prop where
  | nil : AllExplained trace [] []
  | cons {definition : Node} {around : List Node} {t : Table} {ts : List Table} :
      t.Explained trace (definition :: around) → AllExplained trace around ts →
      AllExplained trace (definition :: around) (t :: ts)

/-- Every variable, signal and component in a scope is known where its table is. -/
structure Scope.Explained (trace : List Event) (around : List Node) (s : Scope) : Prop where
  inner : Table.AllExplained trace around s.inner
  global : s.global.Explained trace []

theorem Table.AllExplained.mono {ts : List Table} (explained : Table.AllExplained trace around ts)
    (grows : trace ⊆ trace') : Table.AllExplained trace' around ts := by
  induction explained with
  | nil => exact .nil
  | cons first _ ih => exact .cons (first.mono grows) ih

theorem Table.AllExplained.known {ts : List Table} {symbol : Symbol}
    (explained : Table.AllExplained trace around ts)
    (found : ts.findSome? (·.get? name) = some symbol)
    (declared : symbol.kind.isDeclared = true) : Event.Known trace around name symbol.kind := by
  induction explained with
  | nil => cases found
  | cons first _ ih =>
    rw [List.findSome?_cons] at found
    split at found
    · next here =>
      cases found
      exact first name symbol here declared
    · exact (ih found).mono (List.Subset.refl trace) (List.suffix_cons _ _)

namespace Scope.Explained

variable {s s' : Scope} {symbol : Symbol}

theorem empty : Scope.empty.Explained trace [] := ⟨.nil, Table.explained_empty⟩

theorem mono (explained : s.Explained trace around) (grows : trace ⊆ trace') :
    s.Explained trace' around :=
  ⟨explained.inner.mono grows, explained.global.mono grows⟩

/-- A name that is found in scope is known. -/
theorem known (explained : s.Explained trace around) (found : s.lookup? name = some symbol)
    (declared : symbol.kind.isDeclared = true) : Event.Known trace around name symbol.kind := by
  rw [Scope.lookup?, Scope.tables, List.findSome?_append, Option.or_eq_some_iff] at found
  obtain found | ⟨-, found⟩ := found
  · exact explained.inner.known found declared
  · rw [List.findSome?_singleton] at found
    exact (explained.global name symbol found declared).mono (List.Subset.refl trace)
      (List.nil_suffix)

theorem declare (explained : s.Explained trace around)
    (added : s.declare name symbol = .ok s')
    (known : symbol.kind.isDeclared = true → Event.Known trace around name symbol.kind) :
    s'.Explained trace around := by
  obtain ⟨-, rfl⟩ := Scope.declare_eq_ok_iff.1 added
  obtain ⟨inner, global⟩ := s
  obtain ⟨levels, outermost⟩ := explained
  cases levels with
  | nil => exact ⟨.nil, outermost.insert known⟩
  | cons first rest => exact ⟨.cons (first.insert known) rest, outermost⟩

/-- Templates are no variables, signals or components. -/
theorem declareGlobal (explained : s.Explained trace around)
    (added : s.declareGlobal name symbol = .ok s') (other : symbol.kind.isDeclared = false) :
    s'.Explained trace around := by
  obtain ⟨-, rfl⟩ := Scope.declareGlobal_eq_ok_iff.1 added
  refine ⟨explained.inner, explained.global.insert fun declared => ?_⟩
  rw [other] at declared
  cases declared

theorem push (explained : s.Explained trace around) (definition : Node) :
    s.push.Explained trace (definition :: around) :=
  ⟨.cons Table.explained_empty explained.inner, explained.global⟩

theorem pop {definition : Node} (explained : s.Explained trace (definition :: around)) :
    s.pop.Explained trace around := by
  obtain ⟨inner, global⟩ := s
  obtain ⟨levels, outermost⟩ := explained
  cases levels with
  | cons first rest => exact ⟨rest, outermost⟩

theorem params {definition : Node} {span : Span} {ctx ctx' : Context} {params : List String}
    {u : Unit} (explained : ctx.scope.Explained trace (definition :: around))
    (declared : runFrom ctx (params.forM fun param => Lowering.declare param .var span) =
      (.ok u, ctx')) (within : params ⊆ definition.params) :
    ctx'.scope.Explained trace (definition :: around) := by
  induction params generalizing ctx with
  | nil =>
    obtain ⟨-, rfl⟩ := runFrom_pure_eq_ok.1 declared
    exact explained
  | cons param params ih =>
    rw [List.forM_eq_forM, List.forM_cons] at declared
    simp only [runFrom_bind_eq_ok, runFrom_declare_eq_ok] at declared
    obtain ⟨_, _, ⟨scope, added, rfl⟩, rest⟩ := declared
    obtain ⟨isParam, within⟩ := List.cons_subset.1 within
    exact ih (explained.declare added fun _ => .param List.mem_cons_self isParam) rest within

end Scope.Explained

end

/-! ### What a step accounts for -/

/-- The cells in the code of the definition that an event registers are grounded. -/
def Event.Covered (trace : List Event) (definition : Event) : Prop :=
  definition.use = .defines → ∀ kind name d, definition.toSite.Defines kind name d →
    ∀ cell ∈ Stmt.allCells d.body, cell.Grounded trace (definition.node :: definition.around)

theorem Cell.Grounded.append {trace : List Event} {around : List Node} {cell : Cell}
    (grounded : cell.Grounded trace around) (more : List Event) :
    cell.Grounded (trace ++ more) around := by
  obtain ⟨before, reference, after, rfl, refers⟩ := grounded
  exact ⟨before, reference, after ++ more, by rw [List.append_assoc, List.cons_append], refers⟩

theorem Event.Covered.append {trace : List Event} {definition : Event}
    (covered : definition.Covered trace) (more : List Event) :
    definition.Covered (trace ++ more) :=
  fun defines kind name d makes cell member =>
    (covered defines kind name d makes cell member).append more

/-- A step from one context to another adds some events to a trace and yields some cells. If the names
in scope are explained before it, they are so after it, and the cells and definitions that it yields
are grounded. -/
structure Context.Traced (around : List Node) (ctx : Context) (events : List Event)
    (cells : List Cell) (ctx' : Context) : Prop where
  explained : ∀ seen, ctx.scope.Explained seen around →
    ctx'.scope.Explained (seen ++ events) around
  grounded : ∀ seen, ctx.scope.Explained seen around →
    ∀ cell ∈ cells, cell.Grounded (seen ++ events) around
  covered : ∀ seen, ctx.scope.Explained seen around →
    ∀ definition ∈ events, definition.Covered (seen ++ events)

namespace Context.Traced

variable {around : List Node} {ctx ctx₁ ctx₂ : Context} {events events' : List Event}
  {cells cells' : List Cell}

theorem refl (around : List Node) (ctx : Context) : ctx.Traced around [] [] ctx where
  explained seen explained := by rwa [List.append_nil]
  grounded seen explained cell member := by cases member
  covered seen explained definition member := by cases member

theorem append (first : ctx.Traced around events cells ctx₁)
    (second : ctx₁.Traced around events' cells' ctx₂) :
    ctx.Traced around (events ++ events') (cells ++ cells') ctx₂ := by
  constructor
  · intro seen explained
    rw [← List.append_assoc]
    exact second.explained _ (first.explained seen explained)
  · intro seen explained cell member
    rw [← List.append_assoc]
    obtain member | member := List.mem_append.1 member
    · exact (first.grounded seen explained cell member).append events'
    · exact second.grounded _ (first.explained seen explained) cell member
  · intro seen explained definition member
    rw [← List.append_assoc]
    obtain member | member := List.mem_append.1 member
    · exact (first.covered seen explained definition member).append events'
    · exact second.covered _ (first.explained seen explained) definition member

/-- Code may use some of the cells only. -/
theorem weaken (traced : ctx.Traced around events cells ctx₁) (fewer : cells' ⊆ cells) :
    ctx.Traced around events cells' ctx₁ where
  explained := traced.explained
  grounded seen explained cell member := traced.grounded seen explained cell (fewer member)
  covered := traced.covered

/-- A reference looks up the names of the cells that it yields. -/
theorem refers {site : Site} (yields : ∀ cell ∈ cells, site.Yields cell ∧
      ∃ symbol, ctx.scope.lookup? cell.name = some symbol ∧ symbol.kind = cell.kind) :
    ctx.Traced around [⟨site, .refers, around⟩] cells ctx where
  explained seen explained := explained.mono (List.subset_append_left _ _)
  grounded seen explained cell member := by
    obtain ⟨yielded, symbol, found, same⟩ := yields cell member
    refine ⟨seen, ⟨site, .refers, around⟩, [], rfl, rfl, rfl, yielded, ?_⟩
    rw [← same]
    exact explained.known found (same ▸ cell.isDeclared_kind)
  covered seen explained definition member := by
    cases List.mem_singleton.1 member
    intro use
    cases use

/-- What a name stands for decides which cell a reference yields. -/
theorem names {site : Site} {name : String} {symbol : Symbol} {indices : List Expr} {cell : Cell}
    (found : ctx.scope.lookup? name = some symbol)
    (stands : symbol.kind.cell? name indices = some cell) (yields : site.Yields cell) :
    ctx.Traced around [⟨site, .refers, around⟩] [cell] ctx := by
  apply refers
  intro cell' member
  cases List.mem_singleton.1 member
  obtain ⟨named, kind⟩ := SymbolKind.name_and_kind_of_cell? stands
  exact ⟨yields, symbol, named ▸ found, kind.symm⟩

theorem pin {site : Site} {component name : String} {symbol : Symbol}
    {componentIndices indices : List Expr} (found : ctx.scope.lookup? component = some symbol)
    (kind : symbol.kind = .component)
    (yields : site.Yields (.pin component componentIndices name indices)) :
    ctx.Traced around [⟨site, .refers, around⟩] [.pin component componentIndices name indices]
      ctx := by
  apply refers
  intro cell member
  cases List.mem_singleton.1 member
  exact ⟨yields, symbol, found, kind⟩

/-- A declaration introduces its name. -/
theorem declares {span : Span} {tag name : String} {node : Node}
    (ran : runFrom ctx (declareNode tag node span) = (.ok name, ctx₁)) :
    ctx.Traced around [⟨⟨ctx, .declare span tag node⟩, .declares, around⟩] [] ctx₁ where
  explained seen explained := by
    have lowered : runFrom ctx (Node.declare span tag node).lower = (.ok .nothing, ctx₁) := by
      simp only [Node.lower, runFrom_bind_eq_ok, runFrom_pure_eq_ok]
      exact ⟨name, _, ran, trivial, rfl⟩
    obtain ⟨kind, at', selectors, known, rfl, declared⟩ := runFrom_declareNode_eq_ok.1 ran
    obtain ⟨scope, added, rfl⟩ := runFrom_declare_eq_ok.1 declared
    have fits : tag ∈ (SymbolKind.ofDeclaration kind).tags := by
      rw [DeclarationKind.ofTag?_eq_some_iff.1 known]
      exact SymbolKind.tag_mem_tags_ofDeclaration kind
    apply (explained.mono (List.subset_append_left _ _)).declare added
    intro _
    exact .declared List.mem_append_cons_self (List.suffix_refl around)
      ⟨rfl, span, tag, at', selectors, _, rfl, fits, lowered⟩
  grounded seen explained cell member := by cases member
  covered seen explained definition member := by
    cases List.mem_singleton.1 member
    intro use
    cases use

end Context.Traced

/-! ### Operations -/

/-- Both uses of an operand are accounted for by the events of its node. -/
structure Operand.Traced (around : List Node) (operand : Operand) : Prop where
  value : ∀ {ctx ctx' : Context} {e : Expr}, runFrom ctx operand.value = (.ok e, ctx') →
    ctx.Traced around (operand.node.events around ctx) e.cells ctx'
  target : ∀ {ctx ctx' : Context} {span : Span} {found : Option Cell},
    runFrom ctx (operand.target span) = (.ok found, ctx') →
    ctx.Traced around (operand.node.targetEvents around ctx) (Cell.optionCells found) ctx'

section

variable {around : List Node} {ctx ctx₁ ctx₂ ctx' : Context} {span : Span} {op : Operator}

theorem Node.eventsAll_singleton (n : Node) : Node.eventsAll around ctx [n] = n.events around ctx := by
  rw [Node.eventsAll, Node.eventsAll, List.append_nil]

/-- The reading back of a target is accounted for by the events that follow a store. -/
theorem Operand.Traced.readBack {target : Node} (traced : target.operand.Traced around) {back : Expr}
    (ran : runFrom ctx (Operand.readBack target.operand) = (.ok back, ctx')) :
    ctx.Traced around (target.backEvents around ctx (target.events around ctx)) back.cells ctx' := by
  unfold Operand.readBack at ran
  split at ran
  · next at' tag span name dimensions declaration =>
    have read : runFrom ctx (Node.var span name []).lower = (.ok (.expr back), ctx') := by
      simp only [readName, runFrom_bind_eq_ok, runFrom_map_eq_ok] at ran
      obtain ⟨symbol, ctx₁, resolved, cell, stands, rfl⟩ := ran
      simp only [Node.lower, Node.lowerValues, runFrom_bind_eq_ok, runFrom_pure_eq_ok]
      exact ⟨symbol, ctx₁, resolved, [], ctx₁, ⟨rfl, rfl⟩, cell, ctx', stands, rfl, rfl⟩
    simp only [readName, runFrom_bind_eq_ok, runFrom_resolve_eq_ok, runFrom_map_eq_ok,
      runFrom_cellOf_eq_ok] at ran
    obtain ⟨symbol, _, ⟨found, rfl⟩, cell, ⟨stands, rfl⟩, rfl⟩ := ran
    have node : target = .declare at' tag (.var span name dimensions) := declaration
    rw [node, Node.backEvents, Expr.cells, SymbolKind.cells_of_cell? stands]
    exact .names found stands (.inl ⟨_, read⟩)
  · next other =>
    have same : target.backEvents around ctx (target.events around ctx) =
        target.events around ctx := by
      unfold Node.backEvents
      split
      · next span' tag span name dimensions => exact absurd rfl (other span' tag span name dimensions)
      · rfl
    rw [same]
    exact traced.value ran

/-- A store whose target has a cell: the events of the target come first. -/
theorem Node.storeEvents_of_found {target : Node} {values : List Node} {cell : Cell}
    (found : runFrom ctx (target.lowerTarget span) = (.ok (some cell), ctx₁)) :
    Node.storeEvents around ctx span op (target :: values) =
      let current := if op.updates then target.after ctx₁ else ctx₁
      let stored := Node.afterValues current values
      target.targetEvents around ctx ++
        ((if op.updates then target.events around ctx₁ else []) ++
          Node.eventsAll around current values ++
          (if op = .constrainedAssign then
            target.backEvents around stored (target.events around stored)
          else [])) := by
  simp only [Node.storeEvents, Node.hasTarget, Node.afterTarget, found, if_true]

theorem Node.storeEvents_of_component {target : Node} {values : List Node}
    (found : runFrom ctx (target.lowerTarget span) = (.ok none, ctx₁)) :
    Node.storeEvents around ctx span op (target :: values) = target.targetEvents around ctx := by
  simp [Node.storeEvents, Node.hasTarget, found]

theorem Operand.traced_values {ns : List Node} {es : List Expr}
    (traced : ∀ operand ∈ Node.operands ns, operand.Traced around)
    (ran : runFrom ctx (Operand.values (Node.operands ns)) = (.ok es, ctx')) :
    ctx.Traced around (Node.eventsAll around ctx ns) (Expr.allCells es) ctx' := by
  induction ns generalizing ctx es with
  | nil =>
    obtain ⟨rfl, rfl⟩ := runFrom_pure_eq_ok.1 ran
    rw [Node.eventsAll]
    exact .refl around _
  | cons n ns ih =>
    rw [Node.operands] at ran traced
    obtain ⟨e, ctx₁, es', first, last, rfl⟩ := Operand.runFrom_values_cons_eq_ok.1 ran
    rw [Node.eventsAll, Node.after_of_expr (runFrom_valueOf_eq_ok.1 first)]
    have head := (traced _ (.head _)).value first
    exact head.append (ih (fun operand member => traced operand (.tail _ member)) last)

/-- An operation is accounted for by its events if its operands are. -/
theorem Operand.Operates.traced {ns : List Node} {symbol : String} {fragment : Fragment}
    (operates : Operand.Operates span ctx op (Node.operands ns) fragment ctx')
    (known : Operator.ofSymbol? symbol = some op)
    (traced : ∀ operand ∈ Node.operands ns, operand.Traced around) :
    ctx.Traced around ((Node.op span symbol ns).events around ctx) fragment.cells ctx' := by
  rw [Node.events, known]
  generalize same : Node.operands ns = operands at operates traced
  cases operates with
  | store plain found lowered =>
    obtain ⟨m, n, rfl, rfl, rfl⟩ := Node.eq_of_operands same
    have stores := Operator.stores_of_plain plain
    have asTarget := (traced _ (.head _)).target found
    have asValue := (traced _ (.tail _ (.head _))).value lowered
    simp only [stores, if_true, Node.storeEvents_of_found found, Node.eventsAll_singleton,
      Bool.false_eq_true, if_false, List.nil_append, List.append_nil]
    exact asTarget.append asValue
  | storeComponent plain found =>
    obtain ⟨m, n, rfl, rfl, rfl⟩ := Node.eq_of_operands same
    have stores := (Operator.stores_of_plain plain).1
    simp only [stores, if_true, Node.storeEvents_of_component found]
    exact (traced _ (.head _)).target found
  | update updates _ found first second =>
    obtain ⟨m, n, rfl, rfl, rfl⟩ := Node.eq_of_operands same
    have stores := Operator.updates_of_update? updates
    have asTarget := (traced _ (.head _)).target found
    have read := (traced _ (.head _)).value first
    have asValue := (traced _ (.tail _ (.head _))).value second
    simp only [stores, if_true, Node.storeEvents_of_found found, Node.eventsAll_singleton,
      Node.after_of_expr (runFrom_valueOf_eq_ok.1 first), if_false, List.append_nil]
    exact asTarget.append ((read.append asValue).weaken (Operator.update?_cells updates))
  | updateComponent updates _ found =>
    obtain ⟨m, n, rfl, rfl, rfl⟩ := Node.eq_of_operands same
    simp only [Operator.updates_of_update? updates, if_true, Node.storeEvents_of_component found]
    exact (traced _ (.head _)).target found
  | @increment post _ cell current _ _ _ found read =>
    obtain ⟨m, rfl, rfl⟩ := Node.eq_of_operands_singleton same
    have stores := Operator.stores_of_increment post
    have cells : (Fragment.expr (if post then
        Arithmetic.previousValue (.set cell (Arithmetic.increment current))
        else .set cell (Arithmetic.increment current))).cells = cell.cells ++ current.cells := by
      have stored : (Expr.set cell (Arithmetic.increment current)).cells =
          cell.cells ++ current.cells := by
        rw [Expr.cells, Arithmetic.increment_cells]
      cases post
      · exact stored
      · exact Arithmetic.previousValue_cells.trans stored
    have asTarget := (traced _ (.head _)).target found
    have asValue := (traced _ (.head _)).value read
    simp only [stores, if_true, Node.storeEvents_of_found found, Node.eventsAll, if_false,
      List.append_nil]
    rw [cells]
    exact asTarget.append asValue
  | constrainedStore found lowered read =>
    obtain ⟨m, n, rfl, rfl, rfl⟩ := Node.eq_of_operands same
    have stores : Operator.constrainedAssign.stores = true ∧
        Operator.constrainedAssign.updates = false := ⟨rfl, rfl⟩
    have asTarget := (traced _ (.head _)).target found
    have asValue := (traced _ (.tail _ (.head _))).value lowered
    have back := (traced _ (.head _)).readBack read
    have stored := Node.afterValues_singleton (runFrom_valueOf_eq_ok.1 lowered)
    simp only [stores, if_true, Node.storeEvents_of_found found, Node.eventsAll_singleton,
      Bool.false_eq_true, if_false, List.nil_append, stored]
    refine (asTarget.append (asValue.append back)).weaken ?_
    rw [← List.append_assoc]
    exact List.Subset.refl _
  | constrain first second =>
    obtain ⟨m, n, rfl, rfl, rfl⟩ := Node.eq_of_operands same
    have left := (traced _ (.head _)).value first
    have right := (traced _ (.tail _ (.head _))).value second
    have plain : Operator.constrain.stores = false := rfl
    simp only [plain, Bool.false_eq_true, if_false, Node.eventsAll, List.append_nil,
      Node.after_of_expr (runFrom_valueOf_eq_ok.1 first)]
    exact left.append right
  | arithmetic lowered combined =>
    subst same
    have plain := Operator.stores_of_isArithmetic (Operator.isArithmetic_of_combine? combined)
    simp only [plain, Bool.false_eq_true, if_false]
    exact (Operand.traced_values traced lowered).weaken (Operator.combine?_cells combined)

end

/-! ### Values and targets -/

/-- The cells of a target are its own and those that its indices use. -/
theorem Cell.optionCells_subset {kind : SymbolKind} {name : String} {indices : List Expr}
    {found : Option Cell}
    (outcome : kind = .component ∧ found = none ∨
      ∃ cell, kind.cell? name indices = some cell ∧ found = some cell) :
    Cell.optionCells found ⊆ Expr.allCells indices ++ found.toList := by
  obtain ⟨-, rfl⟩ | ⟨cell, stands, rfl⟩ := outcome
  · exact List.nil_subset _
  · rw [Cell.optionCells, SymbolKind.cells_of_cell? stands]
    intro cell' member
    simpa [or_comm] using member

/-- A target that is looked up is a component or yields the cell that its name stands for. -/
theorem Context.Traced.target {around : List Node} {ctx start ctx' : Context} {node : Node}
    {span : Span} {name : String} {symbol : Symbol} {indices : List Expr} {found : Option Cell}
    (stored : runFrom start (node.lowerTarget span) = (.ok found, ctx'))
    (present : ctx.scope.lookup? name = some symbol)
    (outcome : symbol.kind = .component ∧ found = none ∨
      ∃ cell, symbol.kind.cell? name indices = some cell ∧ found = some cell) :
    ctx.Traced around [⟨⟨start, node⟩, .refers, around⟩] found.toList ctx := by
  obtain ⟨-, rfl⟩ | ⟨cell, stands, rfl⟩ := outcome
  · exact .refers nofun
  · exact .names present stands (.inr ⟨span, ctx', stored⟩)

mutual

/-- A value is accounted for by its events. -/
theorem Node.traced_of_expr (around : List Node) {ctx ctx' : Context} {e : Expr} :
    (n : Node) → runFrom ctx n.lower = (.ok (.expr e), ctx') →
      ctx.Traced around (n.events around ctx) e.cells ctx'
  | .number _ _, ran => by
    rw [Node.lower] at ran
    obtain ⟨same, rfl⟩ := runFrom_pure_eq_ok.1 ran
    cases same
    rw [Node.events]
    exact .refl around _
  | .var span name selectors, ran => by
    have read := ran
    simp only [Node.lower, runFrom_bind_eq_ok, runFrom_resolve_eq_ok, runFrom_cellOf_eq_ok,
      runFrom_pure_eq_ok] at ran
    obtain ⟨symbol, _, ⟨found, rfl⟩, es, ctx₁, lowered, cell, _, ⟨stands, rfl⟩, same, rfl⟩ := ran
    cases same
    rw [Node.events, Expr.cells, SymbolKind.cells_of_cell? stands]
    exact (Context.Traced.names found stands (.inl ⟨_, read⟩)).append
      (Node.traced_of_lowerValues around selectors lowered)
  | .pin span component componentSelectors name selectors, ran => by
    have read := ran
    simp only [Node.lower, runFrom_bind_eq_ok, runFrom_resolveComponent_eq_ok,
      runFrom_pure_eq_ok] at ran
    obtain ⟨_, _, ⟨⟨symbol, found, kind⟩, rfl⟩, is, ctx₁, first, es, _, second, same, rfl⟩ := ran
    cases same
    rw [Node.events, Expr.cells, Cell.cells, Node.afterValues_eq first]
    exact (Context.Traced.pin found kind (.inl ⟨_, read⟩)).append
      ((Node.traced_of_lowerValues around componentSelectors first).append
        (Node.traced_of_lowerValues around selectors second))
  | .op span symbol operands, ran => by
    have operates := ran
    rw [Node.lower] at operates
    split at operates
    · next operator known =>
      exact (Operand.operates_of_runFrom operates).traced known (Node.traced_operands around operands)
    · exact absurd operates runFrom_throw_ne_ok
  | .call _ name args, ran => by
    simp only [Node.lower, runFrom_bind_eq_ok, runFrom_pure_eq_ok] at ran
    obtain ⟨es, _, lowered, same, rfl⟩ := ran
    cases same
    rw [Node.events, Expr.cells]
    exact Node.traced_of_lowerValues around args lowered
  | .array _ items, ran => by
    simp only [Node.lower, runFrom_bind_eq_ok, runFrom_pure_eq_ok] at ran
    obtain ⟨es, _, lowered, same, rfl⟩ := ran
    cases same
    rw [Node.events, Expr.cells]
    exact Node.traced_of_lowerValues around items lowered
  | .inclusion _ _ (some n), ran => by
    rw [Node.lower, Node.lowerOption] at ran
    rw [Node.events, Node.eventsOption]
    exact Node.traced_of_expr around n ran
  | .inclusion _ _ none, ran => by
    rw [Node.lower, Node.lowerOption] at ran
    exact absurd (runFrom_pure_eq_ok.1 ran).1 nofun
  | .declare .., ran | .block .., ran | .forLoop .., ran | .whileLoop .., ran | .ret .., ran
  | .template .., ran | .function .., ran => by
    simp only [Node.lower, runFrom_bind_eq_ok, runFrom_pure_eq_ok] at ran
    grind

theorem Node.traced_of_lowerValues (around : List Node) {ctx ctx' : Context} {es : List Expr} :
    (ns : List Node) → runFrom ctx (Node.lowerValues ns) = (.ok es, ctx') →
      ctx.Traced around (Node.eventsAll around ctx ns) (Expr.allCells es) ctx'
  | [], ran => by
    rw [Node.lowerValues] at ran
    obtain ⟨rfl, rfl⟩ := runFrom_pure_eq_ok.1 ran
    rw [Node.eventsAll]
    exact .refl around _
  | n :: ns, ran => by
    obtain ⟨e, ctx₁, rest, first, last, rfl⟩ := runFrom_lowerValues_cons_eq_ok.1 ran
    rw [Node.eventsAll, Node.after_of_expr first]
    exact (Node.traced_of_expr around n first).append (Node.traced_of_lowerValues around ns last)

/-- So is a target. -/
theorem Node.traced_of_lowerTarget (around : List Node) {ctx ctx' : Context} {span : Span}
    {found : Option Cell} :
    (n : Node) → runFrom ctx (n.lowerTarget span) = (.ok found, ctx') →
      ctx.Traced around (n.targetEvents around ctx) (Cell.optionCells found) ctx'
  | .declare at' tag name, ran => by
    have stored := ran
    simp only [Node.lowerTarget, runFrom_bind_eq_ok, runFrom_resolve_eq_ok,
      runFrom_targetOf_eq_ok] at ran
    obtain ⟨_, ctx₁, declared, symbol, _, ⟨present, rfl⟩, outcome, rfl⟩ := ran
    rw [Node.targetEvents]
    exact ((Context.Traced.declares declared).append
      (.target stored present outcome)).weaken (Cell.optionCells_subset outcome)
  | .pin at' component componentSelectors name selectors, ran => by
    have stored := ran
    simp only [Node.lowerTarget, runFrom_bind_eq_ok, runFrom_resolveComponent_eq_ok,
      runFrom_pure_eq_ok] at ran
    obtain ⟨_, _, ⟨⟨symbol, present, kind⟩, rfl⟩, is, ctx₁, first, es, _, second, rfl, rfl⟩ := ran
    rw [Node.targetEvents, Cell.optionCells, Cell.cells, Node.afterValues_eq first]
    exact (Context.Traced.pin present kind (.inr ⟨span, _, stored⟩)).append
      ((Node.traced_of_lowerValues around componentSelectors first).append
        (Node.traced_of_lowerValues around selectors second))
  | .var at' name selectors, ran => by
    have stored := ran
    simp only [Node.lowerTarget, runFrom_bind_eq_ok, runFrom_resolve_eq_ok,
      runFrom_targetOf_eq_ok] at ran
    obtain ⟨es, ctx₁, lowered, symbol, _, ⟨present, rfl⟩, outcome, rfl⟩ := ran
    rw [Node.targetEvents]
    exact ((Node.traced_of_lowerValues around selectors lowered).append
      (.target stored present outcome)).weaken (Cell.optionCells_subset outcome)
  | .number .., ran | .op .., ran | .call .., ran | .block .., ran | .forLoop .., ran
  | .whileLoop .., ran | .ret .., ran | .template .., ran | .function .., ran
  | .inclusion .., ran | .array .., ran => by
    rw [Node.lowerTarget] at ran
    · exact absurd ran runFrom_throw_ne_ok
    all_goals simp

theorem Node.traced_operands (around : List Node) :
    (ns : List Node) → ∀ operand ∈ Node.operands ns, operand.Traced around
  | [] => by simp [Node.operands]
  | n :: ns => by
    intro operand member
    rw [Node.operands, List.mem_cons] at member
    rcases member with rfl | member
    · exact ⟨fun ran => Node.traced_of_expr around n (runFrom_valueOf_eq_ok.1 ran),
        fun ran => Node.traced_of_lowerTarget around n ran⟩
    · exact Node.traced_operands around ns operand member

end

/-! ### Statements and definitions -/

theorem Node.traced_of_isSimple (around : List Node) {n : Node} {ctx ctx' : Context}
    {fragment : Fragment} (simple : n.isSimple = true)
    (ran : runFrom ctx n.lower = (.ok fragment, ctx')) :
    ctx.Traced around (n.events around ctx) fragment.cells ctx' := by
  cases Node.lowersSimply_of_runFrom simple ran with
  | operation known operates => exact operates.traced known (Node.traced_operands around _)
  | declaration declared =>
    rw [Node.events]
    exact .declares declared
  | ret lowered =>
    rw [Node.events]
    exact Node.traced_of_expr around _ lowered
  | value lowered => exact Node.traced_of_expr around _ lowered

/-- A definition is registered after its body; it yields no code where it stands. -/
theorem Context.Traced.definition {around : List Node} {ctx ctx₁ ctx' : Context} {node : Node}
    {params : List String} {span : Span} {events : List Event} {ss : List Stmt}
    (own : node.params = params)
    (declared : runFrom { ctx with scope := ctx.scope.push }
      (params.forM fun param => Lowering.declare param .var span) =
        (.ok (), ctx.enter params span))
    (inner : (ctx.enter params span).Traced (node :: around) events (Stmt.allCells ss) ctx₁)
    (registered : ∀ trace, ctx₁.leave.scope.Explained trace around →
      ctx'.scope.Explained trace around)
    (makes : ∀ kind name d, Site.Defines ⟨ctx, node⟩ kind name d → d.body = ss) :
    ctx.Traced around (events ++ [⟨⟨ctx, node⟩, .defines, around⟩]) [] ctx' := by
  have entered : ∀ seen, ctx.scope.Explained seen around →
      (ctx.enter params span).scope.Explained seen (node :: around) := by
    intro seen explained
    have pushed : Scope.Explained seen (node :: around)
        ({ ctx with scope := ctx.scope.push } : Context).scope := explained.push node
    exact pushed.params declared (own ▸ List.Subset.refl params)
  constructor
  · intro seen explained
    have left := (inner.explained seen (entered seen explained)).pop
    rw [← List.append_assoc]
    exact (registered _ left).mono (List.subset_append_left _ _)
  · intro seen explained cell member
    cases member
  · intro seen explained definition member
    rw [← List.append_assoc]
    obtain member | member := List.mem_append.1 member
    · exact (inner.covered seen (entered seen explained) definition member).append _
    · cases List.mem_singleton.1 member
      intro _ kind name d defines cell used
      rw [makes kind name d defines] at used
      exact (inner.grounded seen (entered seen explained) cell used).append _

theorem Scope.Explained.registerTemplate {trace : List Event} {around : List Node}
    {ctx ctx' : Context} {name : String} {d : Definition}
    (explained : ctx.scope.Explained trace around)
    (registered : runFrom ctx (Lowering.registerTemplate name d) = (.ok (), ctx')) :
    ctx'.scope.Explained trace around := by
  obtain ⟨scope, added, rfl⟩ := runFrom_registerTemplate_eq_ok.1 registered
  exact explained.declareGlobal added rfl

theorem Scope.Explained.registerFunction {trace : List Event} {around : List Node}
    {ctx ctx' : Context} {name : String} {d : Definition}
    (explained : ctx.scope.Explained trace around)
    (registered : runFrom ctx (Lowering.registerFunction name d) = (.ok (), ctx')) :
    ctx'.scope.Explained trace around := by
  obtain ⟨-, scope, added, rfl⟩ := runFrom_registerFunction_eq_ok.1 registered
  exact explained.declare added nofun

/-- A node that is lowered is accounted for by its events. -/
theorem Node.Lowers.traced {n : Node} {ctx ctx' : Context} {fragment : Fragment}
    (lowers : n.Lowers ctx fragment ctx') (around : List Node) :
    ctx.Traced around (n.events around ctx) fragment.cells ctx' := by
  induction lowers generalizing around with
  | simple simple ran => exact Node.traced_of_isSimple around simple ran
  | blockNil =>
    rw [Node.events, Node.eventsAll]
    exact .refl around _
  | blockCons first _ ihFirst ihRest =>
    have rest := ihRest around
    rw [Node.events] at rest
    rw [Node.events, Node.eventsAll, first.after_eq, Fragment.cells, Fragment.statement?,
      Stmt.optionCells, Stmt.cells, Stmt.allCells_toList_append]
    exact (ihFirst around).append rest
  | forLoop first tested second _ ihInit ihStep ihBody =>
    have condition := Node.traced_of_expr around _ tested
    rw [Node.events, first.after_eq, Node.after_of_expr tested, second.after_eq, Fragment.cells,
      Fragment.statement?, Stmt.optionCells, Stmt.cells, Stmt.cells_getD]
    exact (((ihInit around).append condition).append (ihStep around)).append (ihBody around)
  | whileLoop tested _ ihBody =>
    have condition := Node.traced_of_expr around _ tested
    rw [Node.events, Node.after_of_expr tested, Fragment.cells, Fragment.statement?,
      Stmt.optionCells, Stmt.cells, Stmt.cells_getD]
    exact condition.append (ihBody around)
  | template declared _ lowered registered ihBody =>
    rw [Node.events]
    apply Context.Traced.definition rfl declared (ihBody _)
    · exact fun _ explained => explained.registerTemplate registered
    · rintro _ _ _ ⟨again⟩
      simp_all
  | function declared _ lowered registered ihBody =>
    rw [Node.events]
    apply Context.Traced.definition rfl declared (ihBody _)
    · exact fun _ explained => explained.registerFunction registered
    · rintro _ _ _ ⟨again⟩
      simp_all
  | inclusionNone =>
    rw [Node.events, Node.eventsOption]
    exact .refl around _
  | inclusionSome _ ih =>
    rw [Node.events, Node.eventsOption]
    exact ih around

/-- In a unit that compiles, each registered definition comes from an event of the unit's trace. Each
cell in its code, at every depth, comes from a reference in its body; the name of the cell is a
parameter of the definition or of one around it, or its declaration, which stands in one of them or
outside of all definitions and has a tag that fits the cell, is earlier in the trace. -/
theorem Node.references_of_compile {root : Node} {field : Field} {circuit : Circuit}
    (compiled : root.compile field = .ok circuit) {kind : SymbolKind} {name : String}
    {d : Definition} (registered : circuit.registry.definition? name kind = some d) :
    ∃ definition ∈ root.events [] .empty, definition.use = .defines ∧
      definition.toSite.Defines kind name d ∧
      ∀ cell ∈ Stmt.allCells d.body,
        cell.Grounded (root.events [] .empty) (definition.node :: definition.around) := by
  obtain ⟨site, visited, defines⟩ := (Node.definition?_of_compile compiled kind name d).1 registered
  obtain ⟨visited, isDefinition⟩ := List.mem_filter.1 visited
  obtain ⟨definition, member, use, rfl⟩ :=
    Node.exists_event_of_visits isDefinition [] .empty root visited
  obtain ⟨fragment, ctx, lowered, -⟩ := Node.runFrom_of_compile compiled
  have traced := (Node.lowers_of_runFrom root lowered).traced []
  have covered := traced.covered [] .empty definition member
  exact ⟨definition, member, use, defines, covered use kind name d defines⟩

/-- A unit in which the body of a function uses names of all origins, one of them hiding another:
`var N; template T(n) { signal input x; component c; var k = n; function f(y) { var x = y;
return x * k + c.p[N]; } }`. -/
def Node.nestedNames : Node :=
  let name (x : String) : Node := .var .unknown x []
  let fresh (tag x : String) : Node := .declare .unknown tag (name x)
  let product : Node := .op .unknown "*" [name "x", name "k"]
  let sum : Node := .op .unknown "+" [product, .pin .unknown "c" [] "p" [name "N"]]
  let f : Node := .function .unknown "f" ["y"]
    (.block .unknown [.op .unknown "=" [fresh "VARIABLE" "x", name "y"], .ret .unknown sum])
  .block .unknown
    [fresh "VARIABLE" "N",
      .template .unknown "T" ["n"] (.block .unknown
        [fresh "SIGNALIN" "x", fresh "COMPONENT" "c",
          .op .unknown "=" [fresh "VARIABLE" "k", name "n"], f])]

theorem Node.references_of_compile_nestedNames :
    ∃ circuit d, Node.nestedNames.compile .bn254 = .ok circuit ∧
      circuit.registry.definition? "f" .function = some d ∧
      Stmt.allCells d.body = [.var "x" [], .var "y" [], .var "x" [], .var "k" [],
        .pin "c" [] "p" [.get (.var "N" [])], .var "N" []] ∧
      ∃ definition ∈ Node.nestedNames.events [] .empty,
        definition.toSite.Defines .function "f" d ∧
        ∀ cell ∈ Stmt.allCells d.body, cell.Grounded (Node.nestedNames.events [] .empty)
          (definition.node :: definition.around) := by
  obtain ⟨circuit, compiled, d, registered, cells⟩ : ∃ circuit,
      Node.nestedNames.compile .bn254 = .ok circuit ∧ ∃ d,
        circuit.registry.definition? "f" .function = some d ∧
        Stmt.allCells d.body = [.var "x" [], .var "y" [], .var "x" [], .var "k" [],
          .pin "c" [] "p" [.get (.var "N" [])], .var "N" []] :=
    ⟨_, rfl, _, rfl, rfl⟩
  obtain ⟨definition, member, -, defines, grounded⟩ :=
    Node.references_of_compile compiled registered
  exact ⟨circuit, d, compiled, registered, cells, definition, member, defines, grounded⟩

end ArithCircuit
