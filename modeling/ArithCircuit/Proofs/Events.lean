import ArithCircuit.Proofs.Cells
import ArithCircuit.Proofs.Registrations

set_option autoImplicit false
set_option relaxedAutoImplicit false

/-!
# The trace of a lowering

`Node.events` lists what the lowering of a node does with names, in the order in which it does it: a
declaration introduces its name, a reference looks its name up, a definition is registered after its
body. A name that is read is looked up before its selectors are lowered, one that is assigned to after
them. `Cell.Grounded` says of a cell in the code of a definition which name a reference has looked up
for it, and that the name was introduced earlier in the trace.
-/

namespace ArithCircuit

open Lowering

/-- What the lowering of a node does with a name. -/
inductive Use where
  | declares
  | refers
  | defines

/-- A use of a name, at the site of the node that has the name. -/
structure Event extends Site where
  use : Use
  /-- The definitions that the node lies in, innermost first. -/
  around : List Node

/-! ### The order of events -/

/-- Whether an operator stores in its first operand. -/
def Operator.stores : Operator → Bool
  | .assign | .signalAssign | .constrainedAssign | .addAssign | .mulAssign | .postIncrement
  | .preIncrement => true
  | _ => false

/-- Whether an operator reads its first operand before it stores in it. -/
def Operator.updates : Operator → Bool
  | .addAssign | .mulAssign | .postIncrement | .preIncrement => true
  | _ => false

theorem Operator.stores_of_updates {op : Operator} (updates : op.updates = true) :
    op.stores = true := by
  cases op <;> cases updates <;> rfl

theorem Operator.stores_of_plain {op : Operator} (plain : op = .assign ∨ op = .signalAssign) :
    op.stores = true ∧ op.updates = false ∧ op ≠ .constrainedAssign := by
  rcases plain with rfl | rfl <;> exact ⟨rfl, rfl, nofun⟩

theorem Operator.stores_of_increment (post : Bool) :
    (if post then Operator.postIncrement else .preIncrement).stores = true ∧
      (if post then Operator.postIncrement else .preIncrement).updates = true ∧
      (if post then Operator.postIncrement else .preIncrement) ≠ .constrainedAssign := by
  cases post <;> exact ⟨rfl, rfl, nofun⟩

theorem Operator.stores_of_isArithmetic {op : Operator} (arithmetic : op.isArithmetic = true) :
    op.stores = false := by
  cases op <;> cases arithmetic <;> rfl

theorem Operator.updates_of_update? {op : Operator} {combine : Expr → Expr → Expr}
    (updates : op.update? = some combine) :
    op.stores = true ∧ op.updates = true ∧ op ≠ .constrainedAssign := by
  cases op <;> cases updates <;> exact ⟨rfl, rfl, nofun⟩

namespace Node

/-- The context after lowering nodes as values, one after the other. -/
def afterValues (ctx : Context) (ns : List Node) : Context := (runFrom ctx (lowerValues ns)).2

theorem afterValues_eq {ctx ctx' : Context} {ns : List Node} {es : List Expr}
    (lowered : runFrom ctx (lowerValues ns) = (.ok es, ctx')) : afterValues ctx ns = ctx' := by
  rw [afterValues, lowered]

theorem afterValues_singleton {ctx ctx' : Context} {n : Node} {e : Expr}
    (lowered : runFrom ctx n.lower = (.ok (.expr e), ctx')) : afterValues ctx [n] = ctx' := by
  have all : runFrom ctx (lowerValues [n]) = (.ok [e], ctx') :=
    runFrom_lowerValues_cons_eq_ok.2 ⟨e, ctx', [], lowered, rfl, rfl⟩
  exact afterValues_eq all

/-- The context after finding the cell that an assignment to a node stores in. -/
def afterTarget (span : Span) (ctx : Context) (n : Node) : Context :=
  (runFrom ctx (n.lowerTarget span)).2

/-- Whether an assignment to a node stores in a cell. -/
def hasTarget (span : Span) (ctx : Context) (n : Node) : Bool :=
  match (runFrom ctx (n.lowerTarget span)).1 with
  | .ok (some _) => true
  | _ => false

/-- The parts of a target that are come to when it is read back, given its parts as a value. A fresh
declaration has none, since it is read by its plain name. -/
def backParts {α : Type} : Node → List α → List α
  | .declare _ _ _, _ => []
  | _, asValue => asValue

/-- The uses of names in a target that is read back, given those in the target as a value. A fresh
declaration is read by its plain name. -/
def backEvents (around : List Node) (ctx : Context) : Node → List Event → List Event
  | .declare _ _ (.var span name _), _ => [⟨⟨ctx, .var span name []⟩, .refers, around⟩]
  | _, asValue => asValue

end Node

mutual

/-- The uses of names in a node that lies inside some definitions, in the order of lowering. -/
def Node.events (around : List Node) (ctx : Context) : Node → List Event
  | .number _ _ => []
  | .var span name selectors =>
    ⟨⟨ctx, .var span name selectors⟩, .refers, around⟩ :: Node.eventsAll around ctx selectors
  | .pin span component componentSelectors name selectors =>
    ⟨⟨ctx, .pin span component componentSelectors name selectors⟩, .refers, around⟩ ::
      (Node.eventsAll around ctx componentSelectors ++
        Node.eventsAll around (Node.afterValues ctx componentSelectors) selectors)
  | .op span symbol operands =>
    match Operator.ofSymbol? symbol with
    | some operator =>
      if operator.stores then Node.storeEvents around ctx span operator operands
      else Node.eventsAll around ctx operands
    | none => []
  | .declare span tag name => [⟨⟨ctx, .declare span tag name⟩, .declares, around⟩]
  | .call _ _ args => Node.eventsAll around ctx args
  | .block _ statements => Node.eventsAll around ctx statements
  | .forLoop _ init condition step body =>
    let tested := init.after ctx
    let stepped := condition.after tested
    init.events around ctx ++ condition.events around tested ++ step.events around stepped ++
      body.events around (step.after stepped)
  | .whileLoop _ condition body =>
    condition.events around ctx ++ body.events around (condition.after ctx)
  | .ret _ value => value.events around ctx
  | .template span name params body =>
    body.events (.template span name params body :: around) (ctx.enter params span) ++
      [⟨⟨ctx, .template span name params body⟩, .defines, around⟩]
  | .function span name params body =>
    body.events (.function span name params body :: around) (ctx.enter params span) ++
      [⟨⟨ctx, .function span name params body⟩, .defines, around⟩]
  | .inclusion _ _ content => Node.eventsOption around ctx content
  | .array _ items => Node.eventsAll around ctx items
termination_by structural n => n

/-- The uses of names in nodes that are lowered one after the other. -/
def Node.eventsAll (around : List Node) (ctx : Context) : List Node → List Event
  | [] => []
  | n :: ns => n.events around ctx ++ Node.eventsAll around (n.after ctx) ns
termination_by structural ns => ns

/-- The uses of names in a node that may be absent. -/
def Node.eventsOption (around : List Node) (ctx : Context) : Option Node → List Event
  | none => []
  | some n => n.events around ctx
termination_by structural content => content

/-- The uses of names in a node that is assigned to. -/
def Node.targetEvents (around : List Node) (ctx : Context) : Node → List Event
  | .declare span tag name =>
    [⟨⟨ctx, .declare span tag name⟩, .declares, around⟩,
      ⟨⟨ctx, .declare span tag name⟩, .refers, around⟩]
  | .pin span component componentSelectors name selectors =>
    ⟨⟨ctx, .pin span component componentSelectors name selectors⟩, .refers, around⟩ ::
      (Node.eventsAll around ctx componentSelectors ++
        Node.eventsAll around (Node.afterValues ctx componentSelectors) selectors)
  | .var span name selectors =>
    Node.eventsAll around ctx selectors ++ [⟨⟨ctx, .var span name selectors⟩, .refers, around⟩]
  | _ => []
termination_by structural n => n

/-- The uses of names in the operands of an operator that stores in the first one. Only if that one
has a cell the others are lowered; a constrained assignment reads the target back in the end. -/
def Node.storeEvents (around : List Node) (ctx : Context) (span : Span) (op : Operator) :
    List Node → List Event
  | [] => []
  | target :: values =>
    let found := target.afterTarget span ctx
    let current := if op.updates then target.after found else found
    let stored := Node.afterValues current values
    target.targetEvents around ctx ++
      if target.hasTarget span ctx then
        (if op.updates then target.events around found else []) ++
          Node.eventsAll around current values ++
          (if op = .constrainedAssign then
            target.backEvents around stored (target.events around stored)
          else [])
      else []
termination_by structural operands => operands

end

/-! ### Where names come from -/

/-- The parameters of a definition. -/
def Node.params : Node → List String
  | .template _ _ params _ => params
  | .function _ _ params _ => params
  | _ => []

/-- The tags of the declarations that introduce names of a kind. -/
def SymbolKind.tags : SymbolKind → List String
  | .var => ["VARIABLE"]
  | .signal => ["SIGNAL", "SIGNALIN", "SIGNALOUT"]
  | .component => ["COMPONENT"]
  | .template | .function => []

/-- An event is the declaration of a name, and the declaration is lowered. -/
def Event.Introduces (event : Event) (name : String) (kind : SymbolKind) : Prop :=
  event.use = .declares ∧ ∃ span tag at' dimensions ctx',
    event.node = .declare span tag (.var at' name dimensions) ∧ tag ∈ kind.tags ∧
      runFrom event.ctx event.node.lower = (.ok .nothing, ctx')

/-- Inside some definitions a name stands for something after a trace: for a variable if it is a
parameter of one of the definitions, or because it was declared in one of them or outside of all
definitions. -/
inductive Event.Known (trace : List Event) (around : List Node) (name : String) :
    SymbolKind → Prop where
  | param {definition : Node} :
      definition ∈ around → name ∈ definition.params → Known trace around name .var
  | declared {kind : SymbolKind} {event : Event} :
      event ∈ trace → event.around <:+ around → event.Introduces name kind →
      Known trace around name kind

/-- A cell is what lowering a reference yields: its value reads the cell, or an assignment to it
stores in the cell. -/
def Site.Yields (site : Site) (cell : Cell) : Prop :=
  (∃ ctx', runFrom site.ctx site.node.lower = (.ok (.expr (.get cell)), ctx')) ∨
    ∃ span ctx', runFrom site.ctx (site.node.lowerTarget span) = (.ok (some cell), ctx')

/-- A cell in code that lies inside some definitions comes from a reference there, and its name was
introduced before the reference. -/
def Cell.Grounded (trace : List Event) (around : List Node) (cell : Cell) : Prop :=
  ∃ before reference after, trace = before ++ reference :: after ∧ reference.use = .refers ∧
    reference.around = around ∧ reference.Yields cell ∧
    Event.Known before around cell.name cell.kind

/-! ### Events of definitions -/

mutual

/-- A definition that a lowering comes to has an event. -/
theorem Node.exists_event_of_visits {site : Site} (definition : site.node.isDefinition = true)
    (around : List Node) (ctx : Context) :
    (n : Node) → site ∈ n.visits true ctx →
      ∃ event ∈ n.events around ctx, event.use = .defines ∧ event.toSite = site
  | .block _ statements, visited => by
    rw [Node.visits, List.mem_cons] at visited
    rw [Node.events]
    obtain rfl | visited := visited
    · cases definition
    · exact Node.exists_event_of_visitsAll definition around ctx statements visited
  | .forLoop _ init condition step body, visited => by
    simp only [Node.visits, List.mem_cons, List.mem_append] at visited
    simp only [Node.events, List.mem_append]
    obtain rfl | (visited | visited) | visited := visited
    · cases definition
    · obtain ⟨event, member, defines⟩ :=
        Node.exists_event_of_visits definition around _ init visited
      exact ⟨event, .inl (.inl (.inl member)), defines⟩
    · obtain ⟨event, member, defines⟩ :=
        Node.exists_event_of_visits definition around _ step visited
      exact ⟨event, .inl (.inr member), defines⟩
    · obtain ⟨event, member, defines⟩ :=
        Node.exists_event_of_visits definition around _ body visited
      exact ⟨event, .inr member, defines⟩
  | .whileLoop _ condition body, visited => by
    simp only [Node.visits, List.mem_cons] at visited
    simp only [Node.events, List.mem_append]
    obtain rfl | visited := visited
    · cases definition
    · obtain ⟨event, member, defines⟩ :=
        Node.exists_event_of_visits definition around _ body visited
      exact ⟨event, .inr member, defines⟩
  | .template _ _ _ body, visited | .function _ _ _ body, visited => by
    simp only [Node.visits, if_true, List.mem_append, List.mem_singleton] at visited
    simp only [Node.events, List.mem_append, List.mem_singleton]
    obtain visited | rfl := visited
    · obtain ⟨event, member, defines⟩ := Node.exists_event_of_visits definition _ _ body visited
      exact ⟨event, .inl member, defines⟩
    · exact ⟨_, .inr rfl, rfl, rfl⟩
  | .inclusion _ _ content, visited => by
    rw [Node.visits, List.mem_cons] at visited
    rw [Node.events]
    obtain rfl | visited := visited
    · cases definition
    · exact Node.exists_event_of_visitsOption definition around ctx content visited
  | .number .., visited | .var .., visited | .pin .., visited | .op .., visited
  | .declare .., visited | .call .., visited | .ret .., visited | .array .., visited => by
    rw [Node.visits_of_isSimple rfl, List.mem_singleton] at visited
    subst visited
    cases definition

theorem Node.exists_event_of_visitsAll {site : Site} (definition : site.node.isDefinition = true)
    (around : List Node) (ctx : Context) :
    (ns : List Node) → site ∈ Node.visitsAll true ctx ns →
      ∃ event ∈ Node.eventsAll around ctx ns, event.use = .defines ∧ event.toSite = site
  | [], visited => by
    rw [Node.visitsAll] at visited
    cases visited
  | n :: ns, visited => by
    rw [Node.visitsAll, List.mem_append] at visited
    simp only [Node.eventsAll, List.mem_append]
    obtain visited | visited := visited
    · obtain ⟨event, member, defines⟩ := Node.exists_event_of_visits definition around _ n visited
      exact ⟨event, .inl member, defines⟩
    · obtain ⟨event, member, defines⟩ :=
        Node.exists_event_of_visitsAll definition around _ ns visited
      exact ⟨event, .inr member, defines⟩

theorem Node.exists_event_of_visitsOption {site : Site}
    (definition : site.node.isDefinition = true) (around : List Node) (ctx : Context) :
    (content : Option Node) → site ∈ Node.visitsOption true ctx content →
      ∃ event ∈ Node.eventsOption around ctx content, event.use = .defines ∧ event.toSite = site
  | none, visited => by
    rw [Node.visitsOption] at visited
    cases visited
  | some n, visited => by
    rw [Node.visitsOption] at visited
    rw [Node.eventsOption]
    exact Node.exists_event_of_visits definition around ctx n visited

end

end ArithCircuit
