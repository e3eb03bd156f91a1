import Mathlib.Data.List.Basic
import ArithCircuit.Proofs.Events
import ArithCircuit.Proofs.Parts

set_option autoImplicit false
set_option relaxedAutoImplicit false

/-!
# Inclusions are transparent

A directive that includes something stands for what it includes, wherever a statement or a value is
wanted, and one that includes nothing is no statement. `Node.withoutInclusions` puts the contents in
place of the directives. Only targets of assignments, declared names and blocks of definitions are
looked at before they are lowered, so a directive is left where it is one of them. Main statement:
`Node.compile_withoutInclusions`.
-/

namespace ArithCircuit

open Lowering

/-! ### Putting contents in place -/

/-- Whether a node is a directive that includes nothing. -/
def Node.isBareInclusion : Node → Bool
  | .inclusion _ _ none => true
  | _ => false

mutual

/-- A node with the contents of the directives in it in their place. A directive that has to be kept
stays, around its contents. -/
def Node.inlined (kept : Bool) : Node → Node
  | .number span value => .number span value
  | .var span name selectors => .var span name (Node.inlinedAll false selectors)
  | .pin span component componentSelectors name selectors =>
    .pin span component (Node.inlinedAll false componentSelectors) name
      (Node.inlinedAll false selectors)
  | .op span symbol operands =>
    .op span symbol
      (Node.inlinedAll ((Operator.ofSymbol? symbol).any Operator.stores) operands)
  | .declare span tag name => .declare span tag (Node.inlined true name)
  | .call span name args => .call span name (Node.inlinedAll false args)
  | .block span statements =>
    .block span ((Node.inlinedAll false statements).filter fun n => !n.isBareInclusion)
  | .forLoop span init condition step body =>
    .forLoop span (Node.inlined false init) (Node.inlined false condition)
      (Node.inlined false step) (Node.inlined false body)
  | .whileLoop span condition body =>
    .whileLoop span (Node.inlined false condition) (Node.inlined false body)
  | .ret span value => .ret span (Node.inlined false value)
  | .template span name params body => .template span name params (Node.inlined true body)
  | .function span name params body => .function span name params (Node.inlined true body)
  | .inclusion span file none => .inclusion span file none
  | .inclusion span file (some content) =>
    if kept then .inclusion span file (some (Node.inlined true content))
    else Node.inlined false content
  | .array span items => .array span (Node.inlinedAll false items)

/-- Nodes with contents in place. Only the first one may be a target, which has to be kept. -/
def Node.inlinedAll (target : Bool) : List Node → List Node
  | [] => []
  | n :: ns => Node.inlined target n :: Node.inlinedAll false ns

end

/-- A tree with the contents of its directives in their place. -/
def Node.withoutInclusions (root : Node) : Node := root.inlined false

/-! ### Steps that succeed alike -/

/-- Two steps succeed from the same contexts, with the same results and into the same contexts. Where
they fail, they may do so with different errors. -/
def Lowering.SucceedsAs {α : Type} (step step' : Lowering α) : Prop :=
  ∀ ctx a ctx', runFrom ctx step = (.ok a, ctx') ↔ runFrom ctx step' = (.ok a, ctx')

namespace Lowering.SucceedsAs

variable {α β : Type} {step step' : Lowering α} {next next' : α → Lowering β}

theorem refl (step : Lowering α) : SucceedsAs step step := fun _ _ _ => Iff.rfl

theorem throw (e e' : LoweringError) :
    SucceedsAs (MonadExcept.throw e : Lowering α) (MonadExcept.throw e') := by
  intro ctx a ctx'
  exact ⟨fun ran => absurd ran runFrom_throw_ne_ok, fun ran => absurd ran runFrom_throw_ne_ok⟩

theorem bind (first : SucceedsAs step step') (second : ∀ a, SucceedsAs (next a) (next' a)) :
    SucceedsAs (step >>= next) (step' >>= next') := by
  intro ctx b ctx'
  rw [runFrom_bind_eq_ok, runFrom_bind_eq_ok]
  exact exists_congr fun a => exists_congr fun ctx₁ =>
    and_congr (first ctx a ctx₁) (second a ctx₁ b ctx')

/-- Steps that succeed alike may be followed by the same step. -/
theorem andThen (first : SucceedsAs step step') : SucceedsAs (step >>= next) (step' >>= next) :=
  first.bind fun a => .refl (next a)

theorem map (same : SucceedsAs step step') (f : α → β) : SucceedsAs (f <$> step) (f <$> step') := by
  rw [map_eq_pure_bind, map_eq_pure_bind]
  exact same.andThen

theorem inLevel (inside : SucceedsAs step step') :
    SucceedsAs (Lowering.inLevel step) (Lowering.inLevel step') := by
  intro ctx a ctx'
  rw [runFrom_inLevel_eq_ok, runFrom_inLevel_eq_ok]
  exact exists_congr fun ctx₁ => and_congr_left fun _ => inside _ a ctx₁

theorem valueOf {step step' : Lowering Fragment} (same : SucceedsAs step step') (n n' : Node) :
    SucceedsAs (ArithCircuit.valueOf n step) (ArithCircuit.valueOf n' step') := by
  apply same.bind
  rintro (_ | e | s)
  · exact .throw _ _
  · exact .refl _
  · exact .throw _ _

end Lowering.SucceedsAs

open Lowering (SucceedsAs)

/-! ### Operands that succeed alike -/

namespace Operand

/-- Two operands are found alike as targets: as references, as cells and when they are read back. -/
structure SameTarget (operand operand' : Operand) : Prop where
  reference : ∀ span, SucceedsAs (requireReference span operand) (requireReference span operand')
  target : ∀ span, SucceedsAs (operand.target span) (operand'.target span)
  readBack : SucceedsAs (readBack operand) (readBack operand')

/-- Operands yield values alike, one by one, and the first ones, if one is a target, are found alike
as targets. -/
inductive AllSame : Bool → List Operand → List Operand → Prop where
  | nil (target : Bool) : AllSame target [] []
  | cons {target : Bool} {operand operand' : Operand} {rest rest' : List Operand} :
      (target = true → SameTarget operand operand') →
      SucceedsAs operand.value operand'.value → AllSame false rest rest' →
      AllSame target (operand :: rest) (operand' :: rest')

theorem AllSame.length_eq {target : Bool} {operands operands' : List Operand}
    (same : AllSame target operands operands') : operands'.length = operands.length := by
  induction same with
  | nil => rfl
  | cons _ _ _ ih => rw [List.length_cons, List.length_cons, ih]

section

variable {target target' lhs lhs' rhs rhs' : Operand}

theorem succeeds_store (span : Span) (found : target.SameTarget target') {value value' : Lowering Expr}
    (same : SucceedsAs value value') :
    SucceedsAs (store span target value) (store span target' value') := by
  apply (found.target span).bind
  rintro (_ | cell)
  · exact .refl _
  · exact same.andThen

theorem succeeds_update (combine : Expr → Expr → Expr) (span : Span)
    (found : target.SameTarget target') (current : SucceedsAs target.value target'.value)
    (same : SucceedsAs rhs.value rhs'.value) :
    SucceedsAs (update combine span target rhs) (update combine span target' rhs') :=
  (found.reference span).bind fun _ =>
    (succeeds_store span found (current.bind fun _ => same.andThen)).andThen

theorem succeeds_increment (post : Bool) (span : Span) (found : target.SameTarget target')
    (current : SucceedsAs target.value target'.value) :
    SucceedsAs (increment post span target) (increment post span target') := by
  have counted := current.map Arithmetic.increment
  exact (found.reference span).bind fun _ => (succeeds_store span found counted).andThen

theorem succeeds_constrainedStore (span : Span) (found : target.SameTarget target')
    (same : SucceedsAs rhs.value rhs'.value) :
    SucceedsAs (constrainedStore span target rhs) (constrainedStore span target' rhs') := by
  apply (succeeds_store span found same).bind
  rintro (_ | stored)
  · exact .refl _
  · exact found.readBack.andThen

end

/-- An operator succeeds alike on operands that do. -/
theorem succeeds_operate (span : Span) (op : Operator) {operands operands' : List Operand}
    (same : AllSame op.stores operands operands') :
    SucceedsAs (operate span op operands) (operate span op operands') := by
  by_cases arity : operands.length = op.arity
  · cases op
    case assign | signalAssign =>
      obtain ⟨target, value, rfl⟩ := List.length_eq_two.1 arity
      obtain _ | ⟨found, -, _ | ⟨-, right, ⟨⟩⟩⟩ := same
      exact (succeeds_store span (found rfl) right).map Fragment.ofStore
    case constrainedAssign =>
      obtain ⟨target, value, rfl⟩ := List.length_eq_two.1 arity
      obtain _ | ⟨found, -, _ | ⟨-, right, ⟨⟩⟩⟩ := same
      exact (succeeds_constrainedStore span (found rfl) right).map Fragment.expr
    case addAssign | mulAssign =>
      obtain ⟨target, value, rfl⟩ := List.length_eq_two.1 arity
      obtain _ | ⟨found, current, _ | ⟨-, right, ⟨⟩⟩⟩ := same
      exact succeeds_update _ span (found rfl) current right
    case postIncrement | preIncrement =>
      obtain ⟨target, rfl⟩ := List.length_eq_one_iff.1 arity
      obtain _ | ⟨found, current, ⟨⟩⟩ := same
      exact (succeeds_increment _ span (found rfl) current).map Fragment.expr
    case constrain =>
      obtain ⟨lhs, rhs, rfl⟩ := List.length_eq_two.1 arity
      obtain _ | ⟨-, left, _ | ⟨-, right, ⟨⟩⟩⟩ := same
      exact SucceedsAs.map (left.bind fun _ => right.andThen) Fragment.expr
    case neg =>
      obtain ⟨operand, rfl⟩ := List.length_eq_one_iff.1 arity
      obtain _ | ⟨-, negated, ⟨⟩⟩ := same
      exact negated.andThen
    case ternary =>
      obtain ⟨condition, whenTrue, whenFalse, rfl⟩ := List.length_eq_three.1 arity
      obtain _ | ⟨-, tested, _ | ⟨-, yes, _ | ⟨-, no, ⟨⟩⟩⟩⟩ := same
      exact tested.bind fun _ => yes.bind fun _ => no.andThen
    all_goals
      obtain ⟨lhs, rhs, rfl⟩ := List.length_eq_two.1 arity
      obtain _ | ⟨-, left, _ | ⟨-, right, ⟨⟩⟩⟩ := same
      exact left.bind fun _ => right.andThen
  · have other : operands'.length ≠ op.arity := same.length_eq ▸ arity
    rw [operate_of_length_ne arity, operate_of_length_ne other]
    exact .throw _ _

end Operand

/-! ### Nodes -/

namespace Node

/-- A kept node stays of its kind, so it is a reference if it was one. -/
theorem succeeds_requireReference (n : Node) (span : Span) :
    SucceedsAs (Operand.requireReference span n.operand)
      (Operand.requireReference span (n.inlined true).operand) := by
  cases n
  case inclusion at' file content =>
    cases content <;> simp only [Node.inlined] <;> exact .throw _ _
  all_goals
    simp only [Node.inlined]
    exact .refl _

theorem succeeds_declareNode (tag : String) (name : Node) (span : Span) :
    SucceedsAs (declareNode tag name span) (declareNode tag (name.inlined true) span) := by
  unfold declareNode
  cases DeclarationKind.ofTag? tag with
  | none => exact .throw _ _
  | some kind =>
    cases name
    case inclusion at' file content =>
      cases content <;> simp only [Node.inlined] <;> exact .throw _ _
    all_goals
      simp only [Node.inlined]
      exact .refl _

theorem succeeds_readBack (n : Node) (same : SucceedsAs n.lowerValue (n.inlined true).lowerValue) :
    SucceedsAs (Operand.readBack n.operand) (Operand.readBack (n.inlined true).operand) := by
  cases n
  case declare span tag name =>
    cases name
    case var => exact .refl _
    case inclusion at' file content => cases content <;> exact same
    all_goals exact same
  case inclusion at' file content => cases content <;> exact same
  all_goals exact same

/-- A directive that includes nothing yields no code. -/
theorem lower_of_isBareInclusion {n : Node} (bare : n.isBareInclusion = true) :
    n.lower = return .nothing := by
  cases n with
  | inclusion span file content =>
    cases content with
    | none => rw [Node.lower, Node.lowerOption]
    | some _ => cases bare
  | _ => cases bare

mutual

/-- A node with contents in place succeeds as the node does. -/
theorem succeeds_lower (kept : Bool) : (n : Node) → SucceedsAs n.lower (n.inlined kept).lower
  | .number .. => .refl _
  | .var span name selectors => by
    simp only [Node.inlined, Node.lower]
    exact SucceedsAs.bind (.refl _) fun _ => (succeeds_lowerValues selectors).andThen
  | .pin span component componentSelectors name selectors => by
    simp only [Node.inlined, Node.lower]
    exact SucceedsAs.bind (.refl _) fun _ => (succeeds_lowerValues componentSelectors).bind fun _ =>
      (succeeds_lowerValues selectors).andThen
  | .op span symbol operands => by
    simp only [Node.inlined, Node.lower]
    cases Operator.ofSymbol? symbol with
    | some op => exact Operand.succeeds_operate span op (allSame_operands op.stores operands)
    | none => exact .throw _ _
  | .declare span tag name => by
    simp only [Node.inlined, Node.lower]
    exact (succeeds_declareNode tag name span).andThen
  | .call _ name args => by
    simp only [Node.inlined, Node.lower]
    exact (succeeds_lowerValues args).andThen
  | .block _ statements => by
    simp only [Node.inlined, Node.lower]
    exact (succeeds_lowerStatements statements).andThen
  | .forLoop _ init condition step body => by
    simp only [Node.inlined, Node.lower]
    exact (succeeds_lower false init).bind fun _ =>
      ((succeeds_lower false condition).valueOf _ _).bind fun _ =>
        (succeeds_lower false step).bind fun _ => (succeeds_lower false body).andThen
  | .whileLoop _ condition body => by
    simp only [Node.inlined, Node.lower]
    exact ((succeeds_lower false condition).valueOf _ _).bind fun _ =>
      (succeeds_lower false body).andThen
  | .ret _ value => by
    simp only [Node.inlined, Node.lower]
    exact ((succeeds_lower false value).valueOf _ _).andThen
  | .template span name params body => by
    simp only [Node.inlined, Node.lower]
    exact (succeeds_lowerBody params span body).andThen
  | .function span name params body => by
    simp only [Node.inlined, Node.lower]
    exact (succeeds_lowerBody params span body).andThen
  | .inclusion _ _ none => by
    simp only [Node.inlined]
    exact .refl _
  | .inclusion _ _ (some content) => by
    cases kept with
    | true =>
      simp only [Node.inlined, Node.lower, Node.lowerOption, if_true]
      exact succeeds_lower true content
    | false =>
      simp only [Node.inlined, Node.lower, Node.lowerOption, Bool.false_eq_true, if_false]
      exact succeeds_lower false content
  | .array _ items => by
    simp only [Node.inlined, Node.lower]
    exact (succeeds_lowerValues items).andThen

theorem succeeds_lowerTarget : (n : Node) → (span : Span) →
    SucceedsAs (n.lowerTarget span) ((n.inlined true).lowerTarget span)
  | .declare declaration tag name, span => by
    simp only [Node.inlined, Node.lowerTarget]
    exact (succeeds_declareNode tag name declaration).andThen
  | .pin target component componentSelectors name selectors, span => by
    simp only [Node.inlined, Node.lowerTarget]
    exact SucceedsAs.bind (.refl _) fun _ => (succeeds_lowerValues componentSelectors).bind fun _ =>
      (succeeds_lowerValues selectors).andThen
  | .var target name selectors, span => by
    simp only [Node.inlined, Node.lowerTarget]
    exact (succeeds_lowerValues selectors).andThen
  | .inclusion _ _ none, span | .inclusion _ _ (some _), span
  | .number .., span | .op .., span | .call .., span | .block .., span | .forLoop .., span
  | .whileLoop .., span | .ret .., span | .template .., span | .function .., span
  | .array .., span => by
    simp only [Node.inlined, Node.lowerTarget, if_true]
    exact .throw _ _

theorem succeeds_lowerBody (params : List String) (span : Span) : (body : Node) →
    SucceedsAs (Node.lowerBody params span body) (Node.lowerBody params span (body.inlined true))
  | .block _ statements => by
    simp only [Node.inlined, Node.lowerBody]
    exact (SucceedsAs.bind (.refl _) fun _ => succeeds_lowerStatements statements).inLevel
  | .inclusion _ _ none | .inclusion _ _ (some _)
  | .number .. | .op .. | .call .. | .var .. | .pin .. | .declare .. | .forLoop .. | .whileLoop ..
  | .ret .. | .template .. | .function .. | .array .. => by
    simp only [Node.inlined, Node.lowerBody, if_true]
    exact .throw _ _

theorem succeeds_lowerValues : (ns : List Node) →
    SucceedsAs (Node.lowerValues ns) (Node.lowerValues (Node.inlinedAll false ns))
  | [] => .refl _
  | n :: ns => by
    simp only [Node.inlinedAll, Node.lowerValues]
    exact ((succeeds_lower false n).valueOf _ _).bind fun _ => (succeeds_lowerValues ns).andThen

/-- In a block, directives that include nothing may be left out. -/
theorem succeeds_lowerStatements : (ns : List Node) →
    SucceedsAs (Node.lowerStatements ns)
      (Node.lowerStatements ((Node.inlinedAll false ns).filter fun n => !n.isBareInclusion))
  | [] => .refl _
  | n :: ns => by
    have first := succeeds_lower false n
    have rest := succeeds_lowerStatements ns
    cases bare : (n.inlined false).isBareInclusion with
    | true =>
      rw [lower_of_isBareInclusion bare] at first
      simp only [Node.inlinedAll, Node.lowerStatements, List.filter_cons, bare]
      have skipped := first.bind fun fragment => rest.bind fun ss =>
        .refl (pure (fragment.statement?.toList ++ ss))
      simpa [Fragment.statement?] using skipped
    | false =>
      simp only [Node.inlinedAll, Node.lowerStatements, List.filter_cons, bare, Bool.not_false,
        if_true]
      exact first.bind fun _ => rest.andThen

theorem allSame_operands (target : Bool) : (ns : List Node) →
    Operand.AllSame target (Node.operands ns) (Node.operands (Node.inlinedAll target ns))
  | [] => by
    simp only [Node.inlinedAll, Node.operands]
    exact .nil target
  | n :: ns => by
    simp only [Node.inlinedAll, Node.operands]
    refine .cons ?_ ((succeeds_lower target n).valueOf _ _) (allSame_operands false ns)
    rintro rfl
    exact ⟨succeeds_requireReference n, succeeds_lowerTarget n,
      succeeds_readBack n ((succeeds_lower true n).valueOf _ _)⟩

end

/-- Where a directive need not be kept, none with contents is left. -/
theorem isBareInclusion_of_inlined : (n : Node) → (n.inlined false).kind = .inclusion →
    (n.inlined false).isBareInclusion = true
  | .inclusion _ _ none, _ => rfl
  | .inclusion _ _ (some content), same => by
    simp only [Node.inlined, Bool.false_eq_true, if_false] at same ⊢
    exact isBareInclusion_of_inlined content same
  | .number .., same | .var .., same | .pin .., same | .op .., same | .declare .., same
  | .call .., same | .block .., same | .forLoop .., same | .whileLoop .., same | .ret .., same
  | .template .., same | .function .., same | .array .., same => by cases same

/-- So no statement of a block is a directive. -/
theorem kind_ne_inclusion_of_inlined {span span' : Span} {statements statements' : List Node}
    {kept : Bool} (same : (Node.block span statements).inlined kept = .block span' statements')
    {n : Node} (member : n ∈ statements') : n.kind ≠ .inclusion := by
  have each : ∀ ns : List Node, ∀ m ∈ Node.inlinedAll false ns,
      ∃ m' : Node, m = m'.inlined false := by
    intro ns
    induction ns with
    | nil => exact nofun
    | cons n ns ih =>
      rw [Node.inlinedAll]
      exact List.forall_mem_cons.2 ⟨⟨n, rfl⟩, ih⟩
  simp only [Node.inlined, Node.block.injEq] at same
  obtain ⟨-, rfl⟩ := same
  obtain ⟨inside, notBare⟩ := List.mem_filter.1 member
  obtain ⟨m, rfl⟩ := each statements n inside
  intro inclusion
  simp [isBareInclusion_of_inlined m inclusion] at notBare

theorem compile_eq_ok_iff {root : Node} {field : Field} {circuit : Circuit} :
    root.compile field = .ok circuit ↔
      ∃ fragment ctx, runFrom .empty root.lower = (.ok fragment, ctx) ∧
        circuit = ⟨field, ctx.registry⟩ := by
  constructor
  · exact runFrom_of_compile
  · rintro ⟨fragment, ctx, lowered, rfl⟩
    rw [compile_eq, lowered]

/-- A tree and the tree with the contents of its directives in their place are compiled to the same
circuit, or neither is compiled: for every field, and wherever in the tree the directives stand. -/
theorem compile_withoutInclusions (root : Node) (field : Field) (circuit : Circuit) :
    root.withoutInclusions.compile field = .ok circuit ↔ root.compile field = .ok circuit := by
  rw [compile_eq_ok_iff, compile_eq_ok_iff]
  exact exists_congr fun fragment => exists_congr fun ctx =>
    and_congr_left fun _ => (succeeds_lower false root .empty fragment ctx).symm

/-- The directive that includes nothing goes, those around a block and a number give way to them,
and the one that is assigned to stays. -/
example :
    let number (value : Nat) : Node := .number .unknown value
    let x : Node := .var .unknown "x" []
    let library : Node := .block .unknown [.template .unknown "Lib" [] (.block .unknown [])]
    let included (content : Node) : Node := .inclusion .unknown none (some content)
    (Node.block .unknown
      [.inclusion .unknown none none, included library,
        .op .unknown "=" [x, included (number 1)],
        .op .unknown "=" [included x, number 2]]).withoutInclusions =
      .block .unknown
        [library, .op .unknown "=" [x, number 1], .op .unknown "=" [included x, number 2]] := rfl

end Node

end ArithCircuit
