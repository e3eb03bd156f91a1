import ArithCircuit.Proofs.Assertions
import ArithCircuit.Proofs.Registrations
import Mathlib.Data.List.Forall2

set_option autoImplicit false
set_option relaxedAutoImplicit false

/-!
# No constraint is lost or made twice

In a unit whose constraints are all statements, the demands in the code of a definition are the
constraints among the statements of its block, one for one and in order. Each of them is what lowering
the constraint yields, and stands as a statement or clause of its own. Main statement:
`Node.assertions_of_compile`.
-/

namespace ArithCircuit

open Lowering

/-! ### Where constraints stand in the source -/

mutual

/-- Whether all constraints in a node are statements: they are reached through blocks, the clauses and
bodies of loops, the contents of inclusions and the bodies of definitions alone. -/
def Node.isPlaced : Node → Bool
  | .block _ statements => Node.allPlaced statements
  | .forLoop _ init condition step body =>
    init.isPlaced && condition.isFree && step.isPlaced && body.isPlaced
  | .whileLoop _ condition body => condition.isFree && body.isPlaced
  | .template _ _ _ body => body.isPlaced
  | .function _ _ _ body => body.isPlaced
  | .inclusion _ _ content => Node.optionPlaced content
  | .op _ _ operands => Node.allFree operands
  | n => n.isFree

/-- Whether all constraints in nodes are statements. -/
def Node.allPlaced : List Node → Bool
  | [] => true
  | n :: ns => n.isPlaced && Node.allPlaced ns

/-- Whether all constraints in a node that may be absent are statements. -/
def Node.optionPlaced : Option Node → Bool
  | none => true
  | some n => n.isPlaced

end

/-! ### What a constraint is lowered to -/

/-- A cell has the name of a target. -/
inductive Node.Names : Node → Cell → Prop where
  | variable {span : Span} {name : String} {selectors : List Node} {indices : List Expr} :
      Names (.var span name selectors) (.var name indices)
  | signal {span : Span} {name : String} {selectors : List Node} {indices : List Expr} :
      Names (.var span name selectors) (.signal name indices)
  | freshVariable {span at' : Span} {tag name : String} {dimensions : List Node} :
      Names (.declare span tag (.var at' name dimensions)) (.var name [])
  | freshSignal {span at' : Span} {tag name : String} {dimensions : List Node} :
      Names (.declare span tag (.var at' name dimensions)) (.signal name [])
  | pin {span : Span} {component name : String} {componentSelectors selectors : List Node}
      {componentIndices indices : List Expr} :
      Names (.pin span component componentSelectors name selectors)
        (.pin component componentIndices name indices)

/-- The demand that lowering a constraint yields: of `===` over the two values, of `<==` over the one
store of the value in the target and what the target then holds. -/
inductive Site.Demands : Site → Expr → Prop where
  | constrain {ctx ctx₁ ctx' : Context} {span : Span} {symbol : String} {lhs rhs : Node}
      {a b : Expr} :
      Operator.ofSymbol? symbol = some .constrain →
      runFrom ctx (Node.op span symbol [lhs, rhs]).lower =
        (.ok (.expr (.assertEqual a b)), ctx') →
      runFrom ctx lhs.lowerValue = (.ok a, ctx₁) → runFrom ctx₁ rhs.lowerValue = (.ok b, ctx') →
      Demands ⟨ctx, .op span symbol [lhs, rhs]⟩ (.assertEqual a b)
  | constrainedAssign {ctx ctx₁ ctx₂ ctx' : Context} {span : Span} {symbol : String}
      {target value : Node} {cell : Cell} {e back : Expr} :
      Operator.ofSymbol? symbol = some .constrainedAssign →
      runFrom ctx (Node.op span symbol [target, value]).lower =
        (.ok (.expr (.assertEqual (.set cell e) back)), ctx') →
      runFrom ctx (target.lowerTarget span) = (.ok (some cell), ctx₁) → target.Names cell →
      runFrom ctx₁ value.lowerValue = (.ok e, ctx₂) →
      runFrom ctx₂ (Operand.readBack target.operand) = (.ok back, ctx') →
      Demands ⟨ctx, .op span symbol [target, value]⟩ (.assertEqual (.set cell e) back)

/-- An assignment stores in a cell with the name of its target. -/
theorem Node.names_of_lowerTarget {target : Node} {span : Span} {cell : Cell} {ctx ctx' : Context}
    (ran : runFrom ctx (target.lowerTarget span) = (.ok (some cell), ctx')) : target.Names cell := by
  cases target
  case declare at' tag name =>
    simp only [Node.lowerTarget, runFrom_bind_eq_ok, runFrom_resolve_eq_ok,
      runFrom_declareNode_eq_ok, runFrom_targetOf_some_eq_ok] at ran
    obtain ⟨_, _, ⟨_, _, _, -, rfl, -⟩, ⟨kind, _⟩, _, ⟨-, rfl⟩, stands, rfl⟩ := ran
    cases kind <;> cases stands
    · exact .freshVariable
    · exact .freshSignal
  case pin at' component componentSelectors name selectors =>
    simp only [Node.lowerTarget, runFrom_bind_eq_ok, runFrom_pure_eq_ok] at ran
    obtain ⟨_, _, -, is, ctx₁, -, es, _, -, same, rfl⟩ := ran
    cases same
    exact .pin
  case var at' name selectors =>
    simp only [Node.lowerTarget, runFrom_bind_eq_ok, runFrom_resolve_eq_ok,
      runFrom_targetOf_some_eq_ok] at ran
    obtain ⟨es, ctx₁, -, ⟨kind, _⟩, _, ⟨-, rfl⟩, stands, rfl⟩ := ran
    cases kind <;> cases stands
    · exact .variable
    · exact .signal
  all_goals
    rw [Node.lowerTarget] at ran
    · exact absurd ran runFrom_throw_ne_ok
    all_goals simp

/-- A constraint over two operands is a store and a demand, or a demand alone. -/
theorem Operand.Operates.of_demands {span : Span} {ctx ctx' : Context} {op : Operator}
    {operands : List Operand} {fragment : Fragment}
    (h : Operand.Operates span ctx op operands fragment ctx') (demands : op.demands = true) :
    (op = .constrainedAssign ∧ ∃ target value cell e back ctx₁ ctx₂, operands = [target, value] ∧
      runFrom ctx (target.target span) = (.ok (some cell), ctx₁) ∧
      runFrom ctx₁ value.value = (.ok e, ctx₂) ∧
      runFrom ctx₂ (Operand.readBack target) = (.ok back, ctx') ∧
      fragment = .expr (.assertEqual (.set cell e) back)) ∨
    (op = .constrain ∧ ∃ lhs rhs a b ctx₁, operands = [lhs, rhs] ∧
      runFrom ctx lhs.value = (.ok a, ctx₁) ∧ runFrom ctx₁ rhs.value = (.ok b, ctx') ∧
      fragment = .expr (.assertEqual a b)) := by
  cases h with
  | store plain => rcases plain with rfl | rfl <;> cases demands
  | storeComponent plain => rcases plain with rfl | rfl <;> cases demands
  | update updates => cases op <;> cases updates <;> cases demands
  | updateComponent updates => cases op <;> cases updates <;> cases demands
  | increment => split at demands <;> cases demands
  | constrainedStore found lowered read =>
    exact .inl ⟨rfl, _, _, _, _, _, _, _, rfl, found, lowered, read, rfl⟩
  | constrain first second => exact .inr ⟨rfl, _, _, _, _, _, rfl, first, second, rfl⟩
  | arithmetic _ combined =>
    have computes := Operator.isArithmetic_of_combine? combined
    cases op <;> cases demands <;> cases computes

/-- Lowering a constraint whose operands contain none yields its demand, and no other. -/
theorem Site.demands_of_isDemand {span : Span} {symbol : String} {operands : List Node}
    {ctx ctx' : Context} {fragment : Fragment} (demands : Operator.isDemand symbol = true)
    (free : Node.allFree operands = true)
    (ran : runFrom ctx (Node.op span symbol operands).lower = (.ok fragment, ctx')) :
    ∃ e, fragment = .expr e ∧ Site.Demands ⟨ctx, .op span symbol operands⟩ e ∧
      e.isAssertion = true ∧ e.assertions = [e] := by
  obtain ⟨op, known, opDemands⟩ := (Option.any_eq_true _ _).1 demands
  have operated := ran
  simp only [Node.lower, known] at operated
  have clean := Node.clean_operands operands free
  obtain ⟨rfl, target, value, cell, e, back, ctx₁, ctx₂, same, found, lowered, read, rfl⟩ |
    ⟨rfl, lhs, rhs, a, b, ctx₁, same, first, second, rfl⟩ :=
      (Operand.operates_of_runFrom operated).of_demands opDemands
  · rw [same] at clean
    obtain ⟨m, n, rfl, rfl, rfl⟩ := Node.eq_of_operands same
    refine ⟨_, rfl, .constrainedAssign known ran found (Node.names_of_lowerTarget found) lowered read,
      rfl, ?_⟩
    rw [Expr.assertions, Expr.assertions, (clean _ (.head _)).target found,
      (clean _ (.tail _ (.head _))).value lowered, (clean _ (.head _)).readBack read]
    rfl
  · rw [same] at clean
    obtain ⟨m, n, rfl, rfl, rfl⟩ := Node.eq_of_operands same
    refine ⟨_, rfl, .constrain known ran first second, rfl, ?_⟩
    rw [Expr.assertions, (clean _ (.head _)).value first,
      (clean _ (.tail _ (.head _))).value second]
    rfl

/-! ### The constraints of a statement and the demands of its code -/

/-- Code holds the demands of the constraints among some sites, in order and each on its own. -/
structure Site.Faithful (sites : List Site) (all own : List Expr) : Prop where
  demands : List.Forall₂ Site.Demands (sites.filter fun site => site.node.isConstraint) all
  own_eq : own = all

namespace Site.Faithful

variable {site : Site} {sites sites' : List Site} {all all' own own' : List Expr}

theorem nil : Site.Faithful [] [] [] := ⟨.nil, rfl⟩

theorem append (first : Site.Faithful sites all own) (second : Site.Faithful sites' all' own') :
    Site.Faithful (sites ++ sites') (all ++ all') (own ++ own') where
  demands := by
    rw [List.filter_append]
    exact List.rel_append first.demands second.demands
  own_eq := by rw [first.own_eq, second.own_eq]

/-- A site that is no constraint does not count. -/
theorem cons_iff (other : site.node.isConstraint = false) :
    Site.Faithful (site :: sites) all own ↔ Site.Faithful sites all own := by
  have same : (site :: sites).filter (fun site => site.node.isConstraint) =
      sites.filter fun site => site.node.isConstraint :=
    List.filter_cons_of_neg (by simp [other])
  constructor
  · rintro ⟨demands, equal⟩
    rw [same] at demands
    exact ⟨demands, equal⟩
  · rintro ⟨demands, equal⟩
    exact ⟨by rwa [same], equal⟩

end Site.Faithful

/-- A node without statements and constraints inside it yields code without demands. -/
theorem Node.clean_of_isSimple {n : Node} {ctx ctx' : Context} {fragment : Fragment}
    (simple : n.isSimple = true) (free : n.isFree = true)
    (ran : runFrom ctx n.lower = (.ok fragment, ctx')) :
    Stmt.optionAssertions fragment.statement? = [] ∧
      Stmt.optionOwnAssertions fragment.statement? = [] := by
  obtain rfl | ⟨e, rfl⟩ | ⟨span, value, e, rfl, rfl, lowered⟩ := Node.fragment_of_isSimple simple ran
  · exact ⟨rfl, rfl⟩
  · have clean := Node.assertions_of_isFree n free ran
    have none := Expr.isAssertion_eq_false clean
    constructor
    · rw [Fragment.statement?, Stmt.optionAssertions, Stmt.assertions, clean]
    · rw [Fragment.statement?, Stmt.optionOwnAssertions, Stmt.ownAssertions, none]
      rfl
  · rw [Node.isFree] at free
    have clean := Node.assertions_of_isFree value free lowered
    constructor
    · rw [Fragment.statement?, Stmt.optionAssertions, Stmt.assertions, clean]
    · rw [Fragment.statement?, Stmt.optionOwnAssertions, Stmt.ownAssertions]

/-- A node without statements inside it is a constraint or contains none. -/
theorem Node.isFree_of_isSimple {n : Node} (simple : n.isSimple = true) (placed : n.isPlaced = true)
    (other : n.isConstraint = false) : n.isFree = true := by
  cases n
  case op span symbol operands =>
    rw [Node.isPlaced] at placed
    rw [Node.isConstraint] at other
    rw [Node.isFree, placed, other]
    rfl
  case ret span value => simpa only [Node.isPlaced] using placed
  case number | var | pin | call | array | declare => simpa only [Node.isPlaced] using placed
  all_goals cases simple

/-- A node without statements inside it is a constraint with its demand, or has none. -/
theorem Node.faithful_of_isSimple {n : Node} {ctx ctx' : Context} {fragment : Fragment}
    (simple : n.isSimple = true) (placed : n.isPlaced = true)
    (ran : runFrom ctx n.lower = (.ok fragment, ctx')) :
    Site.Faithful [⟨ctx, n⟩] (Stmt.optionAssertions fragment.statement?)
      (Stmt.optionOwnAssertions fragment.statement?) := by
  cases demands : n.isConstraint with
  | true =>
    cases n
    case op span symbol operands =>
      rw [Node.isPlaced] at placed
      obtain ⟨e, rfl, demand, isAssertion, assertions⟩ :=
        Site.demands_of_isDemand demands placed ran
      have counted : [(⟨ctx, .op span symbol operands⟩ : Site)].filter
          (fun site => site.node.isConstraint) = [⟨ctx, .op span symbol operands⟩] :=
        List.filter_cons_of_pos demands
      constructor
      · rw [counted, Fragment.statement?, Stmt.optionAssertions, Stmt.assertions, assertions]
        exact .cons demand .nil
      · rw [Fragment.statement?, Stmt.optionOwnAssertions, Stmt.ownAssertions, if_pos isAssertion,
          Stmt.optionAssertions, Stmt.assertions, assertions]
    all_goals cases demands
  | false =>
    obtain ⟨none, noneOwn⟩ :=
      Node.clean_of_isSimple simple (Node.isFree_of_isSimple simple placed demands) ran
    rw [Site.Faithful.cons_iff demands, none, noneOwn]
    exact Site.Faithful.nil

/-- The code of a statement holds the demands of its constraints, in order and each on its own. -/
theorem Node.Lowers.faithful {n : Node} {ctx ctx' : Context} {fragment : Fragment}
    (lowers : n.Lowers ctx fragment ctx') (placed : n.isPlaced = true) :
    Site.Faithful (n.visits false ctx) (Stmt.optionAssertions fragment.statement?)
      (Stmt.optionOwnAssertions fragment.statement?) := by
  induction lowers with
  | simple simple ran =>
    rw [Node.visits_of_isSimple simple]
    exact Node.faithful_of_isSimple simple placed ran
  | blockNil =>
    rw [Node.visits, Node.visitsAll, Site.Faithful.cons_iff rfl]
    exact Site.Faithful.nil
  | blockCons first _ ihFirst ihRest =>
    simp only [Node.isPlaced, Node.allPlaced, Bool.and_eq_true] at placed
    have rest := ihRest (by rw [Node.isPlaced]; exact placed.2)
    rw [Node.visits, Site.Faithful.cons_iff rfl, Fragment.statement?, Stmt.optionAssertions,
      Stmt.assertions, Stmt.optionOwnAssertions, Stmt.ownAssertions] at rest
    rw [Node.visits, Node.visitsAll, first.after_eq, Site.Faithful.cons_iff rfl,
      Fragment.statement?, Stmt.optionAssertions, Stmt.assertions, Stmt.optionOwnAssertions,
      Stmt.ownAssertions, Stmt.allAssertions_toList_append, Stmt.allOwnAssertions_toList_append]
    exact (ihFirst placed.1).append rest
  | forLoop first tested second _ ihInit ihStep ihBody =>
    simp only [Node.isPlaced, Bool.and_eq_true] at placed
    obtain ⟨⟨⟨placedInit, free⟩, placedStep⟩, placedBody⟩ := placed
    have clean := Node.assertions_of_isFree _ free tested
    rw [Node.visits, first.after_eq, Node.after_of_expr tested, second.after_eq,
      Site.Faithful.cons_iff rfl, Fragment.statement?, Stmt.optionAssertions, Stmt.assertions,
      Stmt.optionOwnAssertions, Stmt.ownAssertions, clean, List.append_nil, Stmt.assertions_getD,
      Stmt.ownAssertions_getD]
    exact ((ihInit placedInit).append (ihStep placedStep)).append (ihBody placedBody)
  | whileLoop tested _ ihBody =>
    simp only [Node.isPlaced, Bool.and_eq_true] at placed
    have clean := Node.assertions_of_isFree _ placed.1 tested
    rw [Node.visits, Node.after_of_expr tested, Site.Faithful.cons_iff rfl, Fragment.statement?,
      Stmt.optionAssertions, Stmt.assertions, Stmt.optionOwnAssertions, Stmt.ownAssertions, clean,
      List.nil_append, Stmt.assertions_getD, Stmt.ownAssertions_getD]
    exact ihBody placed.2
  | template | function =>
    -- The statements of a definition are not those of the block around it.
    rw [Node.visits, if_neg Bool.false_ne_true, List.nil_append, Site.Faithful.cons_iff rfl]
    exact Site.Faithful.nil
  | inclusionNone =>
    rw [Node.visits, Node.visitsOption, Site.Faithful.cons_iff rfl]
    exact Site.Faithful.nil
  | inclusionSome _ ih =>
    rw [Node.isPlaced, Node.optionPlaced] at placed
    rw [Node.visits, Node.visitsOption, Site.Faithful.cons_iff rfl]
    exact ih placed

/-! ### The definitions of a unit -/

mutual

/-- If all constraints of a node are in place, those of its statements are. -/
theorem Node.isPlaced_of_statements {m : Node} : (n : Node) → n.isPlaced = true →
    m ∈ n.statements true → m.isPlaced = true
  | .block span statements, placed, member => by
    rw [Node.statements, List.mem_cons] at member
    rcases member with rfl | member
    · exact placed
    · rw [Node.isPlaced] at placed
      exact Node.isPlaced_of_statementsAll statements placed member
  | .forLoop span init condition step body, placed, member => by
    simp only [Node.statements, List.mem_cons, List.mem_append] at member
    rcases member with rfl | (member | member) | member
    · exact placed
    all_goals
      simp only [Node.isPlaced, Bool.and_eq_true] at placed
      obtain ⟨⟨⟨placedInit, -⟩, placedStep⟩, placedBody⟩ := placed
    · exact Node.isPlaced_of_statements init placedInit member
    · exact Node.isPlaced_of_statements step placedStep member
    · exact Node.isPlaced_of_statements body placedBody member
  | .whileLoop span condition body, placed, member => by
    simp only [Node.statements, List.mem_cons] at member
    rcases member with rfl | member
    · exact placed
    · simp only [Node.isPlaced, Bool.and_eq_true] at placed
      exact Node.isPlaced_of_statements body placed.2 member
  | .template span name params body, placed, member => by
    simp only [Node.statements, if_true, List.mem_append, List.mem_singleton] at member
    rcases member with member | rfl
    · rw [Node.isPlaced] at placed
      exact Node.isPlaced_of_statements body placed member
    · exact placed
  | .function span name params body, placed, member => by
    simp only [Node.statements, if_true, List.mem_append, List.mem_singleton] at member
    rcases member with member | rfl
    · rw [Node.isPlaced] at placed
      exact Node.isPlaced_of_statements body placed member
    · exact placed
  | .inclusion span file content, placed, member => by
    rw [Node.statements, List.mem_cons] at member
    rcases member with rfl | member
    · exact placed
    · rw [Node.isPlaced] at placed
      exact Node.isPlaced_of_statementsOption content placed member
  | .number .., placed, member | .var .., placed, member | .pin .., placed, member
  | .op .., placed, member | .declare .., placed, member | .call .., placed, member
  | .ret .., placed, member | .array .., placed, member => by
    rw [Node.statements] at member
    · cases List.mem_singleton.1 member
      exact placed
    all_goals simp

theorem Node.isPlaced_of_statementsAll {m : Node} : (ns : List Node) →
    Node.allPlaced ns = true → m ∈ Node.statementsAll true ns → m.isPlaced = true
  | [], _, member => by
    rw [Node.statementsAll] at member
    cases member
  | n :: ns, placed, member => by
    rw [Node.allPlaced, Bool.and_eq_true] at placed
    rw [Node.statementsAll, List.mem_append] at member
    rcases member with member | member
    · exact Node.isPlaced_of_statements n placed.1 member
    · exact Node.isPlaced_of_statementsAll ns placed.2 member

theorem Node.isPlaced_of_statementsOption {m : Node} : (content : Option Node) →
    Node.optionPlaced content = true → m ∈ Node.statementsOption true content → m.isPlaced = true
  | none, _, member => by
    rw [Node.statementsOption] at member
    cases member
  | some n, placed, member => by
    rw [Node.optionPlaced] at placed
    rw [Node.statementsOption] at member
    exact Node.isPlaced_of_statements n placed member

end

/-- The constraints of the block of a definition, without those of definitions inside it. -/
def Node.blockConstraints : Node → List Node
  | .template _ _ _ body => body.constraints
  | .function _ _ _ body => body.constraints
  | _ => []

/-- These constraints and the contexts that they are lowered from. -/
def Site.blockConstraints : Site → List Site
  | ⟨ctx, .template span _ params body⟩ => body.constraintSites (ctx.enter params span)
  | ⟨ctx, .function span _ params body⟩ => body.constraintSites (ctx.enter params span)
  | _ => []

theorem Site.map_node_blockConstraints (site : Site) :
    site.blockConstraints.map Site.node = site.node.blockConstraints := by
  obtain ⟨ctx, n⟩ := site
  cases n
  case template | function => exact Node.map_node_constraintSites _ _
  all_goals rfl

/-- A definition that is lowered is made into code with the demands of its block's constraints. -/
theorem Site.exists_defines {site : Site} (isDefinition : site.node.isDefinition = true)
    (placed : site.node.isPlaced = true) {fragment : Fragment} {ctx' : Context}
    (lowers : site.node.Lowers site.ctx fragment ctx') :
    ∃ kind name d, site.Defines kind name d ∧
      List.Forall₂ Site.Demands site.blockConstraints (Stmt.allAssertions d.body) ∧
      Stmt.allOwnAssertions d.body = Stmt.allAssertions d.body := by
  obtain ⟨ctx, n⟩ := site
  cases lowers with
  | template declared inner lowered registered =>
    rw [Node.isPlaced] at placed
    have faithful := inner.faithful placed
    exact ⟨_, _, _, .template lowered, faithful.demands, faithful.own_eq⟩
  | function declared inner lowered registered =>
    rw [Node.isPlaced] at placed
    have faithful := inner.faithful placed
    exact ⟨_, _, _, .function lowered, faithful.demands, faithful.own_eq⟩
  | simple simple =>
    rw [Node.isDefinition_of_isSimple simple] at isDefinition
    cases isDefinition
  | blockNil | blockCons | forLoop | whileLoop | inclusionNone | inclusionSome => cases isDefinition

/-- No constraint is lost or made twice. Let all constraints of a unit be statements, and let the unit
compile. The circuit holds exactly the definitions among the statements of the unit, and the demands
in the code of each of them are, in the order of the code, the demands that the constraints of its
block are lowered to, in the order of the block; and each of them is a statement or a clause of a loop
of its own. -/
theorem Node.assertions_of_compile {root : Node} {field : Field} {circuit : Circuit}
    (placed : root.isPlaced = true) (compiled : root.compile field = .ok circuit) :
    (root.definitionSites .empty).map Site.node = root.definitions ∧
      (∀ kind name d, circuit.registry.definition? name kind = some d →
        ∃ site ∈ root.definitionSites .empty, site.Defines kind name d) ∧
      ∀ site ∈ root.definitionSites .empty, ∃ kind name d,
        site.Defines kind name d ∧ circuit.registry.definition? name kind = some d ∧
        site.blockConstraints.map Site.node = site.node.blockConstraints ∧
        List.Forall₂ Site.Demands site.blockConstraints (Stmt.allAssertions d.body) ∧
        Stmt.allOwnAssertions d.body = Stmt.allAssertions d.body := by
  refine ⟨Node.map_node_definitionSites root .empty, ?_, ?_⟩
  · intro kind name d registered
    exact (Node.definition?_of_compile compiled kind name d).1 registered
  · intro site member
    obtain ⟨visited, isDefinition⟩ := List.mem_filter.1 member
    obtain ⟨fragment, ctx, lowered, -⟩ := Node.runFrom_of_compile compiled
    obtain ⟨_, _, siteLowers⟩ :=
      (Node.lowers_of_runFrom root lowered).lowers_of_visits site visited
    have sitePlaced : site.node.isPlaced = true := by
      apply Node.isPlaced_of_statements root placed
      rw [← Node.map_node_visits true .empty root]
      exact List.mem_map_of_mem visited
    obtain ⟨kind, name, d, defines, demands, own⟩ :=
      Site.exists_defines isDefinition sitePlaced siteLowers
    have registered := (Node.definition?_of_compile compiled kind name d).2 ⟨site, member, defines⟩
    exact ⟨kind, name, d, defines, registered, site.map_node_blockConstraints, demands, own⟩

/-- A unit that includes a template with two constraints and, inside it, a function with one:
`template T(n) { signal input a; signal output b <== a * a; function f(x) { x === 1; }
for (var i = 0; i < n; i++) b === i; }` -/
def Node.squares : Node :=
  let plain (name : String) : Node := .var .unknown name []
  let fresh (tag name : String) : Node := .declare .unknown tag (plain name)
  .block .unknown [.inclusion .unknown (some "squares") (some (.template .unknown "T" ["n"]
    (.block .unknown
      [fresh "SIGNALIN" "a",
        .op .unknown "<==" [fresh "SIGNALOUT" "b", .op .unknown "*" [plain "a", plain "a"]],
        .function .unknown "f" ["x"]
          (.block .unknown [.op .unknown "===" [plain "x", .number .unknown 1]]),
        .forLoop .unknown (.op .unknown "=" [fresh "VARIABLE" "i", .number .unknown 0])
          (.op .unknown "<" [plain "i", plain "n"]) (.op .unknown "PLUSPLUSRIGHT" [plain "i"])
          (.op .unknown "===" [plain "b", plain "i"])])))]

theorem Node.assertions_of_compile_squares :
    ∃ circuit d, Node.squares.compile .bn254 = .ok circuit ∧ circuit.template? "T" = some d ∧
      (Stmt.allAssertions d.body).length = 2 ∧
      Stmt.allOwnAssertions d.body = Stmt.allAssertions d.body := by
  obtain ⟨circuit, compiled⟩ : ∃ circuit, Node.squares.compile .bn254 = .ok circuit := ⟨_, rfl⟩
  obtain ⟨nodes, -, each⟩ := Node.assertions_of_compile (by decide) compiled
  obtain ⟨block, isTemplate, two⟩ : ∃ block,
      Node.template .unknown "T" ["n"] block ∈ Node.squares.definitions ∧
        block.constraints.length = 2 := ⟨_, .tail _ (.head _), rfl⟩
  rw [← nodes] at isTemplate
  obtain ⟨⟨ctx, n⟩, member, rfl⟩ := List.mem_map.1 isTemplate
  obtain ⟨kind, name, d, defines, registered, same, demands, own⟩ := each _ member
  cases defines
  refine ⟨circuit, _, compiled, registered, ?_, own⟩
  rw [← demands.length_eq, ← List.length_map Site.node, same]
  exact two

end ArithCircuit
