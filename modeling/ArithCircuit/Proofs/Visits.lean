import ArithCircuit.Proofs.Derivations

set_option autoImplicit false
set_option relaxedAutoImplicit false

/-!
# The statements that a lowering comes to

A statement is reached through blocks, the clauses and bodies of loops, the contents of inclusions and
the bodies of definitions. `Node.visits` lists the statements of a node in the order in which they are
lowered, each with the context that it is lowered from. Constraints are looked for outside nested
definitions, definitions inside them as well.
-/

namespace ArithCircuit

open Lowering

/-- A node with the context that it is lowered from. -/
structure Site where
  ctx : Context
  node : Node

/-- The context after lowering a node. -/
def Node.after (n : Node) (ctx : Context) : Context := (runFrom ctx n.lower).2

theorem Node.Lowers.after_eq {n : Node} {ctx ctx' : Context} {fragment : Fragment}
    (lowers : n.Lowers ctx fragment ctx') : n.after ctx = ctx' := by
  rw [Node.after, lowers.runFrom_eq_ok]

theorem Node.after_of_expr {n : Node} {ctx ctx' : Context} {e : Expr}
    (lowered : runFrom ctx n.lower = (.ok (.expr e), ctx')) : n.after ctx = ctx' := by
  rw [Node.after, lowered]

mutual

/-- The statements of a node in the order of lowering, with their contexts; those of definitions
inside it only if `deep`. -/
def Node.visits (deep : Bool) (ctx : Context) : Node → List Site
  | .block span statements => ⟨ctx, .block span statements⟩ :: Node.visitsAll deep ctx statements
  | .forLoop span init condition step body =>
    let tested := init.after ctx
    let stepped := condition.after tested
    ⟨ctx, .forLoop span init condition step body⟩ ::
      (init.visits deep ctx ++ step.visits deep stepped ++ body.visits deep (step.after stepped))
  | .whileLoop span condition body =>
    ⟨ctx, .whileLoop span condition body⟩ :: body.visits deep (condition.after ctx)
  | .template span name params body =>
    (if deep then body.visits deep (ctx.enter params span) else []) ++
      [⟨ctx, .template span name params body⟩]
  | .function span name params body =>
    (if deep then body.visits deep (ctx.enter params span) else []) ++
      [⟨ctx, .function span name params body⟩]
  | .inclusion span file content =>
    ⟨ctx, .inclusion span file content⟩ :: Node.visitsOption deep ctx content
  | n => [⟨ctx, n⟩]

/-- The statements of nodes that are lowered one after the other. -/
def Node.visitsAll (deep : Bool) (ctx : Context) : List Node → List Site
  | [] => []
  | n :: ns => n.visits deep ctx ++ Node.visitsAll deep (n.after ctx) ns

/-- The statements of a node that may be absent. -/
def Node.visitsOption (deep : Bool) (ctx : Context) : Option Node → List Site
  | none => []
  | some n => n.visits deep ctx

end

/-- A node without statements inside it is the only one. -/
theorem Node.visits_of_isSimple {n : Node} (simple : n.isSimple = true) (deep : Bool)
    (ctx : Context) : n.visits deep ctx = [⟨ctx, n⟩] := by
  cases n
  case block | forLoop | whileLoop | template | function | inclusion => cases simple
  all_goals simp only [Node.visits]

/-- The statements that a lowering comes to are lowered there. -/
theorem Node.Lowers.lowers_of_visits {n : Node} {ctx ctx' : Context} {fragment : Fragment}
    (lowers : n.Lowers ctx fragment ctx') :
    ∀ site ∈ n.visits true ctx, ∃ fragment ctx', site.node.Lowers site.ctx fragment ctx' := by
  induction lowers with
  | simple simple ran =>
    rw [Node.visits_of_isSimple simple]
    intro site member
    cases List.mem_singleton.1 member
    exact ⟨_, _, .simple simple ran⟩
  | blockNil =>
    rw [Node.visits, Node.visitsAll]
    intro site member
    cases List.mem_singleton.1 member
    exact ⟨_, _, .blockNil⟩
  | blockCons first rest ihFirst ihRest =>
    rw [Node.visits] at ihRest
    rw [Node.visits, Node.visitsAll, first.after_eq]
    intro site member
    rw [List.mem_cons, List.mem_append] at member
    rcases member with rfl | member | member
    · exact ⟨_, _, .blockCons first rest⟩
    · exact ihFirst site member
    · exact ihRest site (.tail _ member)
  | forLoop first tested second third ihInit ihStep ihBody =>
    rw [Node.visits, first.after_eq, Node.after_of_expr tested, second.after_eq]
    intro site member
    rw [List.mem_cons, List.mem_append, List.mem_append] at member
    rcases member with rfl | (member | member) | member
    · exact ⟨_, _, .forLoop first tested second third⟩
    · exact ihInit site member
    · exact ihStep site member
    · exact ihBody site member
  | whileLoop tested second ihBody =>
    rw [Node.visits, Node.after_of_expr tested]
    intro site member
    rcases List.mem_cons.1 member with rfl | member
    · exact ⟨_, _, .whileLoop tested second⟩
    · exact ihBody site member
  | template declared inner lowered registered ihBody =>
    rw [Node.visits, if_pos rfl]
    intro site member
    rcases List.mem_append.1 member with member | member
    · exact ihBody site member
    · cases List.mem_singleton.1 member
      exact ⟨_, _, .template declared inner lowered registered⟩
  | function declared inner lowered registered ihBody =>
    rw [Node.visits, if_pos rfl]
    intro site member
    rcases List.mem_append.1 member with member | member
    · exact ihBody site member
    · cases List.mem_singleton.1 member
      exact ⟨_, _, .function declared inner lowered registered⟩
  | inclusionNone =>
    rw [Node.visits, Node.visitsOption]
    intro site member
    cases List.mem_singleton.1 member
    exact ⟨_, _, .inclusionNone⟩
  | inclusionSome inner ih =>
    rw [Node.visits, Node.visitsOption]
    intro site member
    rcases List.mem_cons.1 member with rfl | member
    · exact ⟨_, _, .inclusionSome inner⟩
    · exact ih site member

mutual

/-- The statements of a node in the order of lowering; those of definitions inside it only if `deep`.
-/
def Node.statements (deep : Bool) : Node → List Node
  | .block span statements => .block span statements :: Node.statementsAll deep statements
  | .forLoop span init condition step body =>
    .forLoop span init condition step body ::
      (init.statements deep ++ step.statements deep ++ body.statements deep)
  | .whileLoop span condition body =>
    .whileLoop span condition body :: body.statements deep
  | .template span name params body =>
    (if deep then body.statements deep else []) ++ [.template span name params body]
  | .function span name params body =>
    (if deep then body.statements deep else []) ++ [.function span name params body]
  | .inclusion span file content =>
    .inclusion span file content :: Node.statementsOption deep content
  | n => [n]

/-- The statements of nodes that are lowered one after the other. -/
def Node.statementsAll (deep : Bool) : List Node → List Node
  | [] => []
  | n :: ns => n.statements deep ++ Node.statementsAll deep ns

/-- The statements of a node that may be absent. -/
def Node.statementsOption (deep : Bool) : Option Node → List Node
  | none => []
  | some n => n.statements deep

end

mutual

/-- The contexts play no part in which statements there are. -/
theorem Node.map_node_visits (deep : Bool) (ctx : Context) :
    (n : Node) → (n.visits deep ctx).map Site.node = n.statements deep
  | .block _ statements => by
    simp only [Node.visits, Node.statements, List.map_cons, Node.map_node_visitsAll]
  | .forLoop _ init condition step body => by
    simp only [Node.visits, Node.statements, List.map_cons, List.map_append, Node.map_node_visits]
  | .whileLoop _ condition body => by
    simp only [Node.visits, Node.statements, List.map_cons, Node.map_node_visits]
  | .template _ _ _ body | .function _ _ _ body => by
    cases deep <;> simp [Node.visits, Node.statements, Node.map_node_visits]
  | .inclusion _ _ content => by
    simp only [Node.visits, Node.statements, List.map_cons, Node.map_node_visitsOption]
  | .number .. | .var .. | .pin .. | .op .. | .declare .. | .call .. | .ret .. | .array .. => by
    simp only [Node.visits, Node.statements, List.map_cons, List.map_nil]

theorem Node.map_node_visitsAll (deep : Bool) (ctx : Context) :
    (ns : List Node) → (Node.visitsAll deep ctx ns).map Site.node = Node.statementsAll deep ns
  | [] => by simp only [Node.visitsAll, Node.statementsAll, List.map_nil]
  | n :: ns => by
    simp only [Node.visitsAll, Node.statementsAll, List.map_append, Node.map_node_visits,
      Node.map_node_visitsAll]

theorem Node.map_node_visitsOption (deep : Bool) (ctx : Context) :
    (content : Option Node) →
      (Node.visitsOption deep ctx content).map Site.node = Node.statementsOption deep content
  | none => by simp only [Node.visitsOption, Node.statementsOption, List.map_nil]
  | some n => by simp only [Node.visitsOption, Node.statementsOption, Node.map_node_visits]

end

/-- A node without statements inside it is its only statement. -/
theorem Node.statements_of_isSimple {n : Node} (simple : n.isSimple = true) (deep : Bool) :
    n.statements deep = [n] := by
  rw [← Node.map_node_visits deep .empty n, Node.visits_of_isSimple simple]
  rfl

/-! ### Constraints and definitions -/

/-- Whether an operator demands that two values are equal. -/
def Operator.demands : Operator → Bool
  | .constrain | .constrainedAssign => true
  | _ => false

/-- Whether a word is the symbol of such an operator, `===` or `<==`. -/
def Operator.isDemand (symbol : String) : Bool := (Operator.ofSymbol? symbol).any Operator.demands

namespace Node

/-- Whether a node is a constraint. -/
def isConstraint : Node → Bool
  | .op _ symbol _ => Operator.isDemand symbol
  | _ => false

/-- Whether a node is a definition. -/
def isDefinition : Node → Bool
  | .template _ _ _ _ => true
  | .function _ _ _ _ => true
  | _ => false

theorem isDefinition_of_isSimple {n : Node} (simple : n.isSimple = true) :
    n.isDefinition = false := by
  cases n
  case template | function => cases simple
  all_goals rfl

/-- The constraints among the statements of a node, without those of definitions inside it. -/
def constraints (n : Node) : List Node := (n.statements false).filter isConstraint

/-- The definitions among the statements of a node, at any depth. -/
def definitions (n : Node) : List Node := (n.statements true).filter isDefinition

/-- The constraints of a node and the contexts that they are lowered from. -/
def constraintSites (n : Node) (ctx : Context) : List Site :=
  (n.visits false ctx).filter fun site => site.node.isConstraint

/-- The definitions of a node and the contexts that they are lowered from. -/
def definitionSites (n : Node) (ctx : Context) : List Site :=
  (n.visits true ctx).filter fun site => site.node.isDefinition

theorem map_node_constraintSites (n : Node) (ctx : Context) :
    (n.constraintSites ctx).map Site.node = n.constraints := by
  rw [constraints, ← map_node_visits false ctx n, List.filter_map]
  rfl

theorem map_node_definitionSites (n : Node) (ctx : Context) :
    (n.definitionSites ctx).map Site.node = n.definitions := by
  rw [definitions, ← map_node_visits true ctx n, List.filter_map]
  rfl

end Node

end ArithCircuit
