import ArithCircuit.Proofs.Acceptance
import ArithCircuit.Proofs.Accounts
import ArithCircuit.Proofs.Parts
import Mathlib.Data.List.Basic

set_option autoImplicit false
set_option relaxedAutoImplicit false

/-!
# Diagnostics blame a node that has the fault

If a unit does not compile, there is a node in it at the place of the error that shows the fault.
For a name that is introduced twice there is an earlier introduction as well, at the other place that
the error names. What carries the induction is that every name in scope is accounted for by the
introductions so far, so that a collision can be traced back. Main statement:
`Node.diagnosed_of_compile`.
-/

namespace ArithCircuit

open Lowering

/-! ### Operations -/

/-- Both uses of a node account for its introductions: its lowering, and finding its cell where it
is the target of an operator. -/
structure Node.Accounts (n root : Node) (level : List Node) : Prop where
  lower : Lowering.Accounts root level (n.introductions level) n.lower
  target : ∀ {span : Span} {op : Operator} {values : List Node},
    root.Contains (.op span op.symbol (n :: values)) → op.stores = true →
    (op.updates = true → n.isReference = true) →
    Lowering.Accounts root level (n.introductions level) (n.lowerTarget span)

section

variable {root m n : Node} {level ns values : List Node} {span : Span} {op : Operator}
  {new new' : List Introduction}

/-- There is no cell only for a name that stands for a component. -/
theorem Node.kind_of_component {ctx ctx' : Context}
    (found : runFrom ctx (m.lowerTarget span) = (.ok none, ctx')) :
    m.kind ∈ [NodeKind.declare, .var] := by
  obtain ⟨assignable, component⟩ := Node.isComponent_of_lowerTarget m found
  cases m
  case declare => exact .head _
  case var => exact .tail _ (.head _)
  case pin => cases component
  all_goals simp [Node.kind] at assignable

namespace Node.Accounts

/-- An operand that is no target is needed for its value. -/
theorem value (accounts : n.Accounts root level) (inside : root.Contains (.op span op.symbol ns))
    (needed : n ∈ if op.stores then ns.tail else ns) :
    Lowering.Accounts root level (n.introductions level) n.operand.value :=
  .valueOf accounts.lower (.inr ⟨_, inside, Node.expressions_op span op ns ▸ needed⟩)

/-- An operator that stores nothing needs the values of both operands. -/
theorem both {α : Type} {next : Expr → Expr → Lowering α} (plain : op.stores = false)
    (left : m.Accounts root level) (right : n.Accounts root level)
    (inside : root.Contains (.op span op.symbol [m, n]))
    (rest : ∀ a b, Lowering.Accounts root level [] (next a b)) :
    Lowering.Accounts root level ((Node.op span op.symbol [m, n]).introductions level) (do
      let a ← m.operand.value
      let b ← n.operand.value
      next a b) := by
  have needed : ∀ k ∈ [m, n], k ∈ if op.stores then [m, n].tail else [m, n] := by
    intro k member
    rwa [plain]
  have first := left.value inside (needed m (.head _))
  have second := right.value inside (needed n (.tail _ (.head _)))
  rw [Node.introductions_of_not_stores plain, Node.introductionsAll_pair]
  exact first.bind fun _ a _ _ => second.andThen fun _ b _ _ => rest a b

theorem requireReference (inside : root.Contains (.op span op.symbol (m :: values)))
    (updates : op.updates = true) :
    Lowering.Accounts root level [] (Operand.requireReference span m.operand) := by
  cases m
  case var | pin => exact .pure ()
  all_goals exact .throw inside fun _ => .noReference updates (by simp [Node.kind])

theorem store {target : Operand} {stored : Lowering Expr}
    (found : Lowering.Accounts root level new (target.target span))
    (accounts : Lowering.Accounts root level new' stored) :
    Lowering.Accounts root level (new ++ new') (Operand.store span target stored) := by
  apply found.bind
  intro _ cell _ _
  cases cell with
  | none => exact (Lowering.Accounts.pure none).append new'
  | some cell => exact accounts.andThen fun _ e _ _ => .pure _

/-- An update reads its target between finding its cell and lowering the value. -/
theorem update (combine : Expr → Expr → Expr) (updates : op.updates = true)
    (target : m.Accounts root level) (value : n.Accounts root level)
    (inside : root.Contains (.op span op.symbol [m, n])) :
    Lowering.Accounts root level
      (m.introductions level ++ (m.introductions level ++ n.introductions level))
      (Operand.update combine span m.operand n.operand) := by
  have stores := Operator.stores_of_updates updates
  apply (requireReference inside updates).before
  intro _ _ _ required
  have reference : m.isReference = true := (Operand.runFrom_requireReference_eq_ok.1 required).1
  have needed : n ∈ if op.stores then [m, n].tail else [m, n] := by
    rw [if_pos stores]
    exact .head _
  have asValue := value.value inside needed
  have asTarget := target.target inside stores fun _ => reference
  have current := Lowering.Accounts.valueOf target.lower (.inl reference)
  have combined := current.bind fun _ a _ _ => asValue.andThen fun _ b _ _ => .pure (combine a b)
  exact (store asTarget combined).andThen fun _ _ _ _ => .pure _

theorem increment (post : Bool) (increments : op = .postIncrement ∨ op = .preIncrement)
    (target : m.Accounts root level) (inside : root.Contains (.op span op.symbol [m])) :
    Lowering.Accounts root level (m.introductions level ++ m.introductions level)
      (Operand.increment post span m.operand) := by
  have updates : op.updates = true := by rcases increments with rfl | rfl <;> rfl
  have stores := Operator.stores_of_updates updates
  apply (requireReference inside updates).before
  intro _ _ _ required
  have reference : m.isReference = true := (Operand.runFrom_requireReference_eq_ok.1 required).1
  have asTarget := target.target inside stores fun _ => reference
  have current := Lowering.Accounts.valueOf target.lower (.inl reference)
  apply (store asTarget (current.map Arithmetic.increment)).andThen
  intro _ stored _ ran
  cases stored with
  | some e => exact .pure _
  | none =>
    obtain ⟨found, -⟩ | ⟨_, _, _, _, _, impossible⟩ := Operand.runFrom_store_eq_ok.1 ran
    · have plain : m.kind = .var := by
        have component := Node.kind_of_component found
        cases m
        case var => rfl
        all_goals simp_all [Node.kind, Node.isReference]
      exact .throw inside fun _ => .incrementedComponent increments plain
    · cases impossible

/-- A target that was found is read back without a fault of its own kind. -/
theorem readBack {ctx ctx' : Context} {found : Option Cell} (target : m.Accounts root level)
    (inside : root.Contains m) (ran : runFrom ctx (m.lowerTarget span) = (.ok found, ctx')) :
    Lowering.Accounts root level (m.backParts (m.introductions level))
      (Operand.readBack m.operand) := by
  cases m
  case declare at' tag name =>
    simp only [Node.lowerTarget, runFrom_bind_eq_ok] at ran
    obtain ⟨_, _, declared, -⟩ := ran
    obtain ⟨_, _, _, -, rfl, -⟩ := runFrom_declareNode_eq_ok.1 declared
    exact .readName (inside.child (List.mem_singleton_self _))
  case var => exact .valueOf target.lower (.inl rfl)
  case pin => exact .valueOf target.lower (.inl rfl)
  all_goals
    have assignable := (Node.isComponent_of_lowerTarget _ ran).1
    simp [Node.kind] at assignable

theorem constrainedStore (target : m.Accounts root level) (value : n.Accounts root level)
    (inside : root.Contains (.op span Operator.constrainedAssign.symbol [m, n])) :
    Lowering.Accounts root level
      (m.introductions level ++
        (n.introductions level ++ m.backParts (m.introductions level)))
      (Operand.constrainedStore span m.operand n.operand) := by
  have asTarget := target.target inside rfl nofun
  have asValue := value.value inside (.head _)
  rw [← List.append_assoc]
  apply (store asTarget asValue).bind
  intro ctx stored ctx' ran
  cases stored with
  | none =>
    obtain ⟨found, -⟩ | ⟨_, _, _, _, _, impossible⟩ := Operand.runFrom_store_eq_ok.1 ran
    · exact .throw inside fun _ => .constrainedComponent (Node.kind_of_component found)
    · cases impossible
  | some e =>
    obtain ⟨-, impossible⟩ | ⟨_, _, _, found, _, _⟩ := Operand.runFrom_store_eq_ok.1 ran
    · cases impossible
    · have back := target.readBack (inside.child (.head _)) found
      exact back.andThen fun _ _ _ _ => .pure _

theorem plainStore (plain : op = .assign ∨ op = .signalAssign) (target : m.Accounts root level)
    (value : n.Accounts root level) (inside : root.Contains (.op span op.symbol [m, n])) :
    Lowering.Accounts root level ((Node.op span op.symbol [m, n]).introductions level)
      (Fragment.ofStore <$> Operand.store span m.operand n.operand.value) := by
  have stores := Operator.stores_of_plain plain
  have asTarget : Lowering.Accounts root level (m.introductions level) (m.operand.target span) :=
    target.target inside stores.1 (by simp [stores])
  have asValue := value.value inside (by simp [stores])
  have stored := (store asTarget asValue).map Fragment.ofStore
  simpa [Node.introductions_of_stores, Node.introductionsAll, stores] using stored

theorem updateOperands {combine : Expr → Expr → Expr} (updates : op.update? = some combine)
    (target : m.Accounts root level) (value : n.Accounts root level)
    (inside : root.Contains (.op span op.symbol [m, n])) :
    Lowering.Accounts root level ((Node.op span op.symbol [m, n]).introductions level)
      (Operand.update combine span m.operand n.operand) := by
  have stores := Operator.updates_of_update? updates
  have updated := target.update combine stores.2.1 value inside
  simpa [Node.introductions_of_stores, Node.introductionsAll, stores] using updated

theorem incrementOperand (post : Bool) (increments : op = .postIncrement ∨ op = .preIncrement)
    (target : m.Accounts root level) (inside : root.Contains (.op span op.symbol [m])) :
    Lowering.Accounts root level ((Node.op span op.symbol [m]).introductions level)
      (Fragment.expr <$> Operand.increment post span m.operand) := by
  have stores : op.stores = true ∧ op.updates = true ∧ op ≠ .constrainedAssign := by
    rcases increments with rfl | rfl <;> exact ⟨rfl, rfl, nofun⟩
  have incremented := (target.increment post increments inside).map Fragment.expr
  simpa [Node.introductions_of_stores, Node.introductionsAll, stores] using incremented

theorem constrainOperand (target : m.Accounts root level) (value : n.Accounts root level)
    (inside : root.Contains (.op span Operator.constrainedAssign.symbol [m, n])) :
    Lowering.Accounts root level
      ((Node.op span Operator.constrainedAssign.symbol [m, n]).introductions level)
      (Fragment.expr <$> Operand.constrainedStore span m.operand n.operand) := by
  have stores : Operator.constrainedAssign.stores = true ∧
      Operator.constrainedAssign.updates = false := ⟨rfl, rfl⟩
  have stored := (target.constrainedStore value inside).map Fragment.expr
  simpa [Node.introductions_of_stores, Node.introductionsAll, stores] using stored

end Node.Accounts

/-- An operation accounts for its introductions if its operands do. -/
theorem Node.accounts_operate (inside : root.Contains (.op span op.symbol ns))
    (accounts : ∀ n ∈ ns, n.Accounts root level) :
    Lowering.Accounts root level ((Node.op span op.symbol ns).introductions level)
      (Operand.operate span op (Node.operands ns)) := by
  have value (plain : op.stores = false) (n : Node) (member : n ∈ ns) :
      Lowering.Accounts root level (n.introductions level) n.operand.value :=
    (accounts n member).value inside (by simpa [plain] using member)
  generalize same : Node.operands ns = operands
  unfold Operand.operate
  split
  case h_1 =>
    obtain ⟨m, n, rfl, rfl, rfl⟩ := Node.eq_of_operands same
    exact (accounts m (.head _)).plainStore (.inl rfl) (accounts n (.tail _ (.head _))) inside
  case h_2 =>
    obtain ⟨m, n, rfl, rfl, rfl⟩ := Node.eq_of_operands same
    exact (accounts m (.head _)).plainStore (.inr rfl) (accounts n (.tail _ (.head _))) inside
  case h_3 =>
    obtain ⟨m, n, rfl, rfl, rfl⟩ := Node.eq_of_operands same
    exact (accounts m (.head _)).constrainOperand (accounts n (.tail _ (.head _))) inside
  case h_4 =>
    obtain ⟨m, n, rfl, rfl, rfl⟩ := Node.eq_of_operands same
    have constrained := (accounts m (.head _)).both rfl (accounts n (.tail _ (.head _))) inside
      fun a b => .pure (Expr.assertEqual a b)
    exact constrained.map _
  case h_5 =>
    obtain ⟨m, n, rfl, rfl, rfl⟩ := Node.eq_of_operands same
    exact (accounts m (.head _)).updateOperands rfl (accounts n (.tail _ (.head _))) inside
  case h_6 =>
    obtain ⟨m, n, rfl, rfl, rfl⟩ := Node.eq_of_operands same
    exact (accounts m (.head _)).updateOperands rfl (accounts n (.tail _ (.head _))) inside
  case h_7 =>
    obtain ⟨m, rfl, rfl⟩ := Node.eq_of_operands_singleton same
    exact (accounts m (.head _)).incrementOperand true (.inl rfl) inside
  case h_8 =>
    obtain ⟨m, rfl, rfl⟩ := Node.eq_of_operands_singleton same
    exact (accounts m (.head _)).incrementOperand false (.inr rfl) inside
  case h_9 =>
    obtain ⟨m, rfl, rfl⟩ := Node.eq_of_operands_singleton same
    rw [Node.introductions_of_not_stores rfl, Node.introductionsAll, Node.introductionsAll,
      List.append_nil]
    exact (value rfl m (.head _)).andThen fun _ a _ _ => .pure _
  case h_10 condition whenTrue whenFalse =>
    obtain ⟨c, rest, rfl, rfl, others⟩ := Node.eq_of_operands_cons same
    obtain ⟨m, n, rfl, rfl, rfl⟩ := Node.eq_of_operands others
    rw [Node.introductions_of_not_stores rfl, Node.introductionsAll, Node.introductionsAll,
      Node.introductionsAll, Node.introductionsAll, List.append_nil]
    have yes := value rfl m (.tail _ (.head _))
    have no := value rfl n (.tail _ (.tail _ (.head _)))
    exact (value rfl c (.head _)).bind fun _ _ _ _ =>
      yes.bind fun _ _ _ _ => no.andThen fun _ _ _ _ => .pure _
  case h_11 lhs rhs _ _ _ _ _ _ =>
    obtain ⟨m, n, rfl, rfl, rfl⟩ := Node.eq_of_operands same
    split
    · next arity =>
      -- What is left of the operators of two values computes something.
      have plain : op.stores = false ∧ (Arithmetic.binary? op).isSome := by
        cases op <;> simp_all [Operator.arity, Operator.stores, Arithmetic.binary?]
      obtain ⟨combine, binary⟩ := Option.isSome_iff_exists.1 plain.2
      apply (accounts m (.head _)).both plain.1 (accounts n (.tail _ (.head _))) inside
      intro a b
      rw [binary]
      exact .pure _
    · next other => exact .throw inside fun _ => .operandCount fun arity => other arity.symm
  case h_12 =>
    have other : operands.length ≠ op.arity := by
      intro arity
      clear same value accounts inside
      cases op
      case neg | postIncrement | preIncrement =>
        obtain ⟨a, rfl⟩ := List.length_eq_one_iff.1 arity
        simp_all
      case ternary =>
        obtain ⟨a, b, c, rfl⟩ := List.length_eq_three.1 arity
        simp_all
      all_goals
        obtain ⟨a, b, rfl⟩ := List.length_eq_two.1 arity
        simp_all
    have length : operands.length = ns.length := by rw [← same, Node.length_operands]
    rw [length] at other ⊢
    exact .throw inside fun _ => .operandCount other

end

/-! ### Nodes -/

section

variable {root : Node}

/-- What is asked of nodes that are lowered as values: some node needs each of them. -/
def Node.AllNeeded (root : Node) (ns : List Node) : Prop :=
  ∀ n ∈ ns, ∃ parent, root.Contains parent ∧ n ∈ parent.expressions

mutual

/-- Lowering a node of a unit accounts for its introductions. -/
theorem Node.accounts_lower (level : List Node) :
    (n : Node) → root.Contains n → Lowering.Accounts root level (n.introductions level) n.lower
  | .number _ _, _ => by
    rw [Node.lower, Node.introductions]
    exact .pure _
  | .var span name selectors, inside => by
    have needed : Node.AllNeeded root selectors := fun _ member => ⟨_, inside, member⟩
    rw [Node.lower, Node.introductions]
    apply (Lowering.Accounts.resolve inside fun _ => .unresolved).before
    intro _ symbol _ _
    apply (Node.accounts_lowerValues level selectors needed).andThen
    intro _ indices _ _
    exact (Lowering.Accounts.cellOf inside indices symbol.kind).andThen fun _ _ _ _ => .pure _
  | .pin span component componentSelectors name selectors, inside => by
    have needed : Node.AllNeeded root (componentSelectors ++ selectors) :=
      fun _ member => ⟨_, inside, member⟩
    obtain ⟨neededFirst, neededLast⟩ := List.forall_mem_append.1 needed
    have first := Node.accounts_lowerValues level componentSelectors neededFirst
    have last := Node.accounts_lowerValues level selectors neededLast
    rw [Node.lower, Node.introductions]
    exact (Lowering.Accounts.resolveComponent inside).before fun _ _ _ _ =>
      first.bind fun _ _ _ _ => last.andThen fun _ _ _ _ => .pure _
  | .op span symbol operands, inside => by
    have each := Node.accounts_operands level operands fun n member => inside.child member
    rw [Node.lower]
    split
    · next op known =>
      obtain rfl := Operator.ofSymbol?_eq_some_iff.1 known
      exact Node.accounts_operate inside each
    · next unknown => exact .throw inside fun _ => .unknownOperator unknown
  | .declare span tag name, inside => by
    rw [Node.lower, Node.introductions]
    exact (Lowering.Accounts.declareNode inside).andThen fun _ _ _ _ => .pure _
  | .call _ name args, inside => by
    have needed : Node.AllNeeded root args := fun _ member => ⟨_, inside, member⟩
    rw [Node.lower, Node.introductions]
    exact (Node.accounts_lowerValues level args needed).andThen fun _ _ _ _ => .pure _
  | .block _ statements, inside => by
    have each : ∀ n ∈ statements, root.Contains n := fun _ member => inside.child member
    rw [Node.lower, Node.introductions]
    exact (Node.accounts_lowerStatements level statements each).andThen fun _ _ _ _ => .pure _
  | .forLoop _ init condition step body, inside => by
    have insideInit : root.Contains init := inside.child (.head _)
    have insideStep : root.Contains step := inside.child (.tail _ (.tail _ (.head _)))
    have insideBody : root.Contains body :=
      inside.child (.tail _ (.tail _ (.tail _ (.head _))))
    have needed : ∃ parent, root.Contains parent ∧ condition ∈ parent.expressions :=
      ⟨_, inside, .head _⟩
    have lowered := Node.accounts_lower level condition (inside.expressions (.head _))
    have first := Node.accounts_lower level init insideInit
    have second := Node.accounts_lower level step insideStep
    have last := Node.accounts_lower level body insideBody
    rw [Node.lower, Node.introductions, List.append_assoc, List.append_assoc]
    exact first.bind fun _ _ _ _ => (Lowering.Accounts.valueOf lowered (.inr needed)).bind
      fun _ _ _ _ => second.bind fun _ _ _ _ => last.andThen fun _ _ _ _ => .pure _
  | .whileLoop _ condition body, inside => by
    have needed : ∃ parent, root.Contains parent ∧ condition ∈ parent.expressions :=
      ⟨_, inside, .head _⟩
    have lowered := Node.accounts_lower level condition (inside.expressions (.head _))
    have last := Node.accounts_lower level body (inside.child (.tail _ (.head _)))
    rw [Node.lower, Node.introductions]
    exact (Lowering.Accounts.valueOf lowered (.inr needed)).bind fun _ _ _ _ =>
      last.andThen fun _ _ _ _ => .pure _
  | .ret _ value, inside => by
    have needed : ∃ parent, root.Contains parent ∧ value ∈ parent.expressions :=
      ⟨_, inside, .head _⟩
    have lowered := Node.accounts_lower level value (inside.expressions (.head _))
    rw [Node.lower, Node.introductions]
    exact (Lowering.Accounts.valueOf lowered (.inr needed)).andThen fun _ _ _ _ => .pure _
  | .template span name params body, inside => by
    have lowered := Node.accounts_lowerBody level body inside rfl rfl rfl
    rw [Node.lower, Node.introductions]
    apply lowered.bind
    intro _ ss _ _
    have registered : Lowering.Accounts root level
        [⟨.template span name params body, name, .template, [], .template⟩]
        (registerTemplate name ⟨params, ss, span⟩) :=
      .registerTemplate inside rfl rfl rfl
    exact registered.andThen fun _ _ _ _ => .pure _
  | .function span name params body, inside => by
    have lowered := Node.accounts_lowerBody level body inside rfl rfl rfl
    rw [Node.lower, Node.introductions]
    apply lowered.bind
    intro _ ss _ _
    have registered : Lowering.Accounts root level
        [⟨.function span name params body, name, .function, level, .function⟩]
        (registerFunction name ⟨params, ss, span⟩) :=
      .registerFunction inside rfl rfl rfl
    exact registered.andThen fun _ _ _ _ => .pure _
  | .inclusion _ _ content, inside => by
    have each : ∀ n ∈ content, root.Contains n :=
      fun _ member => inside.child (Option.mem_toList.2 member)
    rw [Node.lower, Node.introductions]
    exact Node.accounts_lowerOption level content each
  | .array _ items, inside => by
    have needed : Node.AllNeeded root items := fun _ member => ⟨_, inside, member⟩
    rw [Node.lower, Node.introductions]
    exact (Node.accounts_lowerValues level items needed).andThen fun _ _ _ _ => .pure _
termination_by structural n => n

/-- So does finding the cell of a target. -/
theorem Node.accounts_lowerTarget (level : List Node) {span : Span} {op : Operator}
    {values : List Node} :
    (n : Node) → root.Contains (.op span op.symbol (n :: values)) → op.stores = true →
      (op.updates = true → n.isReference = true) →
      Lowering.Accounts root level (n.introductions level) (n.lowerTarget span)
  | .declare at' tag name, inside, _, _ => by
    rw [Node.lowerTarget, Node.introductions]
    exact .declareTarget (inside.child (.head _)) span
  | .pin at' component componentSelectors name selectors, inside, _, _ => by
    have own : root.Contains (.pin at' component componentSelectors name selectors) :=
      inside.child (.head _)
    have needed : Node.AllNeeded root (componentSelectors ++ selectors) :=
      fun _ member => ⟨_, own, member⟩
    obtain ⟨neededFirst, neededLast⟩ := List.forall_mem_append.1 needed
    have first := Node.accounts_lowerValues level componentSelectors neededFirst
    have last := Node.accounts_lowerValues level selectors neededLast
    rw [Node.lowerTarget, Node.introductions]
    exact (Lowering.Accounts.resolveComponent own).before fun _ _ _ _ =>
      first.bind fun _ _ _ _ => last.andThen fun _ _ _ _ => .pure _
  | .var at' name selectors, inside, stores, _ => by
    have own : root.Contains (.var at' name selectors) := inside.child (.head _)
    have needed : Node.AllNeeded root selectors := fun _ member => ⟨_, own, member⟩
    rw [Node.lowerTarget, Node.introductions]
    apply (Node.accounts_lowerValues level selectors needed).andThen
    intro _ indices _ _
    apply (Lowering.Accounts.resolve own fun _ => .unresolved).before
    intro _ symbol _ _
    exact .targetOf inside stores indices symbol.kind
  | .number .., inside, stores, usable | .op .., inside, stores, usable
  | .call .., inside, stores, usable | .block .., inside, stores, usable
  | .forLoop .., inside, stores, usable | .whileLoop .., inside, stores, usable
  | .ret .., inside, stores, usable | .template .., inside, stores, usable
  | .function .., inside, stores, usable | .inclusion .., inside, stores, usable
  | .array .., inside, stores, usable => by
    rw [Node.lowerTarget]
    · apply Lowering.Accounts.throw inside
      intro trace
      apply Node.Shows.noTarget stores
      · cases updates : op.updates with
        | false => rfl
        | true => cases usable updates
      · simp [Node.kind]
    all_goals simp
termination_by structural n => n

theorem Node.accounts_lowerBody (level : List Node) {definition : Node} {params : List String}
    {span : Span} :
    (body : Node) → root.Contains definition → definition.body? = some body →
      definition.params = params → definition.span = span →
      Lowering.Accounts root level
        (definition.paramIntroductions level ++ body.introductions (definition :: level))
        (Node.lowerBody params span body)
  | .block at' statements, inside, same, rfl, rfl => by
    have own : root.Contains (.block at' statements) :=
      inside.child (Node.mem_children_of_body? same)
    have each : ∀ n ∈ statements, root.Contains n := fun _ member => own.child member
    rw [Node.lowerBody, Node.introductions]
    apply Lowering.Accounts.inLevel
    exact (Lowering.Accounts.params inside).bind fun _ _ _ _ =>
      Node.accounts_lowerStatements (definition :: level) statements each
  | .number .., inside, same, _, _ | .var .., inside, same, _, _ | .pin .., inside, same, _, _
  | .op .., inside, same, _, _ | .declare .., inside, same, _, _ | .call .., inside, same, _, _
  | .forLoop .., inside, same, _, _ | .whileLoop .., inside, same, _, _
  | .ret .., inside, same, _, _ | .template .., inside, same, _, _
  | .function .., inside, same, _, _ | .inclusion .., inside, same, _, _
  | .array .., inside, same, _, _ => by
    have own := inside.child (Node.mem_children_of_body? same)
    rw [Node.lowerBody]
    · exact .throw own fun _ => .noBody inside same nofun
    all_goals simp
termination_by structural body => body

theorem Node.accounts_lowerValues (level : List Node) :
    (ns : List Node) → Node.AllNeeded root ns →
      Lowering.Accounts root level (Node.introductionsAll level ns) (Node.lowerValues ns)
  | [], _ => by
    rw [Node.lowerValues, Node.introductionsAll]
    exact .pure _
  | n :: ns, needed => by
    obtain ⟨first, others⟩ := List.forall_mem_cons.1 needed
    obtain ⟨parent, inside, expected⟩ := id first
    have lowered := Node.accounts_lower level n (inside.expressions expected)
    have rest := Node.accounts_lowerValues level ns others
    rw [Node.lowerValues, Node.introductionsAll]
    exact (Lowering.Accounts.valueOf lowered (.inr first)).bind fun _ _ _ _ =>
      rest.andThen fun _ _ _ _ => .pure _
termination_by structural ns => ns

theorem Node.accounts_lowerStatements (level : List Node) :
    (ns : List Node) → (∀ n ∈ ns, root.Contains n) →
      Lowering.Accounts root level (Node.introductionsAll level ns) (Node.lowerStatements ns)
  | [], _ => by
    rw [Node.lowerStatements, Node.introductionsAll]
    exact .pure _
  | n :: ns, each => by
    obtain ⟨inside, others⟩ := List.forall_mem_cons.1 each
    have rest := Node.accounts_lowerStatements level ns others
    rw [Node.lowerStatements, Node.introductionsAll]
    exact (Node.accounts_lower level n inside).bind fun _ _ _ _ =>
      rest.andThen fun _ _ _ _ => .pure _
termination_by structural ns => ns

theorem Node.accounts_lowerOption (level : List Node) :
    (content : Option Node) → (∀ n ∈ content, root.Contains n) →
      Lowering.Accounts root level (Node.introductionsOption level content)
        (Node.lowerOption content)
  | none, _ => by
    rw [Node.lowerOption, Node.introductionsOption]
    exact .pure _
  | some n, each => by
    rw [Node.lowerOption, Node.introductionsOption]
    exact Node.accounts_lower level n (each n rfl)
termination_by structural content => content

theorem Node.accounts_operands (level : List Node) :
    (ns : List Node) → (∀ n ∈ ns, root.Contains n) → ∀ n ∈ ns, n.Accounts root level
  | [], _ => nofun
  | n :: ns, each => by
    obtain ⟨inside, others⟩ := List.forall_mem_cons.1 each
    have first : n.Accounts root level :=
      ⟨Node.accounts_lower level n inside,
        fun inside stores usable => Node.accounts_lowerTarget level n inside stores usable⟩
    exact List.forall_mem_cons.2 ⟨first, Node.accounts_operands level ns others⟩
termination_by structural ns => ns

end

end

/-- Diagnostics blame a node that has the fault. If a unit does not compile, it contains a node whose
span is that of the error and which shows the fault that the error tells of. For a name that is
introduced twice the node introduces the name of the error, and an earlier introduction of the unit,
by a node with the other span of the error, clashes with it. -/
theorem Node.diagnosed_of_compile {root : Node} {field : Field} {e : LoweringError}
    (failed : root.compile field = .error e) :
    ∃ n, root.Contains n ∧ n.span = e.span ∧ root.Shows (root.introductions []) n e := by
  rw [Node.compile_eq] at failed
  rcases ran : runFrom .empty root.lower with ⟨e' | fragment, ctx⟩
  · rw [ran] at failed
    cases failed
    have accounts := Node.accounts_lower [] root .self
    obtain ⟨n, inside, shows⟩ := accounts.diagnosed (.empty root) ran
    exact ⟨n, inside, shows.span_eq, shows⟩
  · rw [ran] at failed
    cases failed

/-- Functions of one name in two templates: `template A() { function f(x) {} }` and
`template B(n) { while (n) { function f() {} } }`. -/
def Node.functionTwice : Node :=
  let empty : Node := .block .unknown []
  let first : Node := .function (.line 2 3 20) "f" ["x"] empty
  let second : Node := .function (.line 6 5 20) "f" [] empty
  let loop : Node := .whileLoop (.line 5 3 30) (.var .unknown "n" []) (.block .unknown [second])
  .block .unknown
    [.template (.line 1 1 30) "A" [] (.block .unknown [first]),
      .template (.line 4 1 30) "B" ["n"] (.block .unknown [loop])]

theorem Node.diagnosed_of_compile_functionTwice :
    Node.functionTwice.compile .bn254 = .error (.collision "f" (.line 6 5 20) (.line 2 3 20)) ∧
      ∃ earlier later : Introduction, Node.functionTwice.Contains later.node ∧
        List.Sublist [earlier, later] (Node.functionTwice.introductions []) ∧
        earlier.Clashes later ∧ later.name = "f" ∧ later.node.span = .line 6 5 20 ∧
        earlier.node.span = .line 2 3 20 := by
  have failed : Node.functionTwice.compile .bn254 =
      .error (.collision "f" (.line 6 5 20) (.line 2 3 20)) := rfl
  obtain ⟨n, inside, place, shows⟩ := Node.diagnosed_of_compile failed
  refine ⟨failed, ?_⟩
  generalize same : LoweringError.collision "f" (.line 6 5 20) (.line 2 3 20) = e at shows
  cases shows
  case collision earlier later order clashes _ =>
    obtain ⟨name, span, previous⟩ := LoweringError.collision.inj same
    exact ⟨earlier, later, inside, order, clashes, name.symm, span.symm, previous.symm⟩
  all_goals cases same

end ArithCircuit
