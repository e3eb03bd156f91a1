import ArithCircuit.Proofs.Frames

set_option autoImplicit false
set_option relaxedAutoImplicit false

/-!
# What the lowering of every node is made of

Lowering a node is a sequence of few kinds of steps: names are looked up and declared, levels are
opened and closed, definitions are registered, and some steps fail. A property of steps that holds of
each of them, and of two steps in sequence if it holds of both, therefore holds of the lowering of any
node. Of declarations and definitions only those matter that the node has. Main statements:
`Node.obeys_lower_of` and `Node.obeys_lower`.
-/

namespace ArithCircuit

open Lowering

/-! ### Parameters -/

/-- A declaration adds its name to the global table, if there is no other, or else to the innermost
one. -/
theorem Scope.declare_eq_ok_cases {s s' : Scope} {name : String} {symbol : Symbol}
    (declared : s.declare name symbol = .ok s') :
    (∃ global, s = ⟨[], global⟩ ∧ global.get? name = none ∧
      s' = ⟨[], global.insert name symbol⟩) ∨
    ∃ t rest global, s = ⟨t :: rest, global⟩ ∧ t.get? name = none ∧
      s' = ⟨t.insert name symbol :: rest, global⟩ := by
  obtain ⟨fresh, rfl⟩ := Scope.declare_eq_ok_iff.1 declared
  obtain ⟨_ | ⟨t, rest⟩, global⟩ := s
  · exact .inl ⟨global, rfl, fresh, rfl⟩
  · exact .inr ⟨t, rest, global, rfl, fresh, rfl⟩

theorem Scope.current_of_declare {s s' : Scope} {name : String} {symbol : Symbol}
    (declared : s.declare name symbol = .ok s') : s'.current = s.current.insert name symbol := by
  obtain ⟨global, rfl, -, rfl⟩ | ⟨t, rest, global, rfl, -, rfl⟩ :=
    Scope.declare_eq_ok_cases declared
  · rfl
  · rfl

/-- Parameters that can all be declared are distinct, and none of them is in the level already. -/
theorem Lowering.fresh_of_params {params : List String} {span : Span} {ctx ctx' : Context}
    (ran : runFrom ctx (params.forM fun param => Lowering.declare param .var span) = (.ok (), ctx')) :
    params.Nodup ∧ ∀ param ∈ params, ctx.scope.current.get? param = none := by
  induction params generalizing ctx with
  | nil => simp
  | cons param params ih =>
    rw [List.forM_eq_forM, List.forM_cons] at ran
    simp only [runFrom_bind_eq_ok, runFrom_declare_eq_ok] at ran
    obtain ⟨_, _, ⟨scope, declared, rfl⟩, rest⟩ := ran
    obtain ⟨distinct, fresh⟩ := ih rest
    have absent : ctx.scope.current.get? param = none := (Scope.declare_eq_ok_iff.1 declared).1
    have earlier : ∀ other ∈ params, other ≠ param ∧ ctx.scope.current.get? other = none := by
      intro other member
      have missing := fresh other member
      rw [Scope.current_of_declare declared, OrderedMap.get?_insert] at missing
      split at missing
      · cases missing
      · next different => exact ⟨different, missing⟩
    constructor
    · exact List.nodup_cons.2 ⟨fun member => (earlier param member).1 rfl, distinct⟩
    · intro other member
      rcases List.mem_cons.1 member with rfl | member
      · exact absent
      · exact (earlier other member).2

theorem Node.nodup_params_of_lowerBody {params : List String} {span : Span} {body : Node}
    {ss : List Stmt} {ctx ctx' : Context}
    (ran : runFrom ctx (Node.lowerBody params span body) = (.ok ss, ctx')) : params.Nodup := by
  obtain ⟨_, _, _, _, -, declared, -, -⟩ := runFrom_lowerBody_eq_ok.1 ran
  exact (Lowering.fresh_of_params declared).1

/-! ### Steps made of other steps -/

/-- A property of steps that carries over from the parts of a step to the step. A part that follows
another one has to be considered only if that one can succeed, and a definition is registered only
after its body was lowered, so its parameters are distinct. -/
structure Lowering.Law (P : (α : Type) → Lowering α → Prop) : Prop where
  pure : ∀ {α : Type} (a : α), P α (Pure.pure a)
  throw : ∀ {α : Type} (e : LoweringError), P α (MonadExcept.throw e)
  bind_of_ok : ∀ {α β : Type} {step : Lowering α} {next : α → Lowering β}, P α step →
    (∀ ctx a ctx', runFrom ctx step = (.ok a, ctx') → P β (next a)) → P β (step >>= next)
  resolve : ∀ (name : String) (span : Span), P Symbol (Lowering.resolve name span)
  declare : ∀ (name : String) {kind : SymbolKind} (span : Span), kind.isDeclared = true →
    P Unit (Lowering.declare name kind span)
  inLevel : ∀ {α : Type} {step : Lowering α}, P α step → P α (Lowering.inLevel step)
  registerTemplate : ∀ {name : String} {d : Definition}, d.params.Nodup →
    P Unit (Lowering.registerTemplate name d)
  registerFunction : ∀ {name : String} {d : Definition}, d.params.Nodup →
    P Unit (Lowering.registerFunction name d)

/-- A property of steps that carries over from the parts of a step to the step, as far as the nodes of a
tree need it. Where a name is looked up, what follows depends on what it stands for only. -/
structure Lowering.LawOf (root : Node) (P : (α : Type) → Lowering α → Prop) : Prop where
  pure : ∀ {α : Type} (a : α), P α (Pure.pure a)
  throw : ∀ {α : Type} (e : LoweringError), P α (MonadExcept.throw e)
  bind : ∀ {α β : Type} {step : Lowering α} {next : α → Lowering β}, P α step →
    (∀ a, P β (next a)) → P β (step >>= next)
  resolve : ∀ {α : Type} (name : String) (span : Span) {next : Symbol → Lowering α},
    (∀ symbol, P α (next symbol)) →
    (∀ symbol symbol', symbol.kind = symbol'.kind → next symbol = next symbol') →
    P α (Lowering.resolve name span >>= next)
  declare : ∀ {span : Span} {tag : String} {name : Node}, root.Contains (.declare span tag name) →
    P String (ArithCircuit.declareNode tag name span)
  body : ∀ {definition : Node} (params : List String) (span at' : Span) {statements : List Node},
    root.Contains definition → definition.kind ∈ [NodeKind.template, .function] →
    P (List Stmt) (Node.lowerStatements statements) →
    P (List Stmt) (Node.lowerBody params span (.block at' statements))
  template : ∀ {span : Span} {name : String} {params : List String} {body : Node},
    root.Contains (.template span name params body) →
    P (List Stmt) (Node.lowerBody params span body) →
    P Fragment (Node.template span name params body).lower
  function : ∀ {span : Span} {name : String} {params : List String} {body : Node},
    root.Contains (.function span name params body) →
    P (List Stmt) (Node.lowerBody params span body) →
    P Fragment (Node.function span name params body).lower

namespace Lowering.Law

variable {P : (α : Type) → Lowering α → Prop} {α β : Type} {step : Lowering α}

theorem bind (law : Law P) {next : α → Lowering β} (first : P α step)
    (second : ∀ a, P β (next a)) : P β (step >>= next) :=
  law.bind_of_ok first fun _ a _ _ => second a

theorem params (law : Law P) (params : List String) (span : Span) :
    P PUnit (params.forM fun param => Lowering.declare param .var span) := by
  induction params with
  | nil => exact law.pure ()
  | cons param params ih =>
    rw [List.forM_eq_forM, List.forM_cons]
    exact law.bind (law.declare param span rfl) fun _ => ih

theorem declareNode (law : Law P) (tag : String) (name : Node) (span : Span) :
    P String (ArithCircuit.declareNode tag name span) := by
  unfold ArithCircuit.declareNode
  cases DeclarationKind.ofTag? tag with
  | none => exact law.throw _
  | some kind =>
    cases name
    case var at' name selectors =>
      have declared := SymbolKind.isDeclared_ofDeclaration kind
      exact law.bind (law.declare name span declared) fun _ => law.pure name
    all_goals exact law.throw _

theorem lowerBody (law : Law P) (params : List String) (span at' : Span) {statements : List Node}
    (lowered : P (List Stmt) (Node.lowerStatements statements)) :
    P (List Stmt) (Node.lowerBody params span (.block at' statements)) := by
  rw [Node.lowerBody]
  exact law.inLevel (law.bind (law.params params span) fun _ => lowered)

theorem lower_template (law : Law P) {span : Span} {name : String} {params : List String} {body : Node}
    (lowered : P (List Stmt) (Node.lowerBody params span body)) :
    P Fragment (Node.template span name params body).lower := by
  rw [Node.lower]
  apply law.bind_of_ok lowered
  intro ctx ss ctx' ran
  have distinct : params.Nodup := Node.nodup_params_of_lowerBody ran
  have registered : P Unit (Lowering.registerTemplate name ⟨params, ss, span⟩) :=
    law.registerTemplate distinct
  exact law.bind registered fun _ => law.pure _

theorem lower_function (law : Law P) {span : Span} {name : String} {params : List String} {body : Node}
    (lowered : P (List Stmt) (Node.lowerBody params span body)) :
    P Fragment (Node.function span name params body).lower := by
  rw [Node.lower]
  apply law.bind_of_ok lowered
  intro ctx ss ctx' ran
  have distinct : params.Nodup := Node.nodup_params_of_lowerBody ran
  have registered : P Unit (Lowering.registerFunction name ⟨params, ss, span⟩) :=
    law.registerFunction distinct
  exact law.bind registered fun _ => law.pure _

/-- What holds of all steps holds of those that lower the nodes of a tree. -/
theorem lawOf (law : Law P) (root : Node) : LawOf root P where
  pure := law.pure
  throw := law.throw
  bind := law.bind
  resolve name span _ each _ := law.bind (law.resolve name span) each
  declare {span tag name} _ := law.declareNode tag name span
  body params span at' _ _ _ := law.lowerBody params span at'
  template _ := law.lower_template
  function _ := law.lower_function

end Lowering.Law

/-! ### Names, targets and operations -/

namespace Lowering.LawOf

variable {root : Node} {P : (α : Type) → Lowering α → Prop} {α β : Type} {step : Lowering α}

theorem map (law : LawOf root P) (first : P α step) (f : α → β) : P β (f <$> step) := by
  rw [map_eq_pure_bind]
  exact law.bind first fun a => law.pure (f a)

theorem cellOf (law : LawOf root P) (name : String) (indices : List Expr) (span : Span)
    (kind : SymbolKind) : P Cell (ArithCircuit.cellOf name indices span kind) := by
  cases kind
  case var | signal => exact law.pure _
  case component | template | function => exact law.throw _

theorem targetOf (law : LawOf root P) (name : String) (indices : List Expr) (span : Span)
    (kind : SymbolKind) : P (Option Cell) (ArithCircuit.targetOf name indices span kind) := by
  cases kind
  case var | signal | component => exact law.pure _
  case template | function => exact law.throw _

theorem resolveComponent (law : LawOf root P) (name : String) (span : Span) :
    P Unit (ArithCircuit.resolveComponent name span) := by
  apply law.resolve name span
  · intro symbol
    split
    · exact law.pure ()
    · exact law.throw _
  · intro symbol symbol' same
    simp only [same]

theorem readName (law : LawOf root P) (name : String) (span : Span) :
    P Expr (ArithCircuit.readName name span) :=
  law.resolve name span (fun symbol => law.map (law.cellOf name [] span symbol.kind) Expr.get)
    fun _ _ same => by rw [same]

theorem valueOf (law : LawOf root P) (n : Node) {step : Lowering Fragment}
    (obeys : P Fragment step) : P Expr (ArithCircuit.valueOf n step) := by
  apply law.bind obeys
  intro fragment
  cases fragment
  case expr e => exact law.pure e
  all_goals exact law.throw _

end Lowering.LawOf

section

variable {root : Node} {P : (α : Type) → Lowering α → Prop}

/-- Both uses of an operand have a property. -/
structure Operand.Obeys (P : (α : Type) → Lowering α → Prop) (operand : Operand) : Prop where
  value : P Expr operand.value
  target : ∀ span, P (Option Cell) (operand.target span)

namespace Operand

theorem obeys_requireReference (law : LawOf root P) (span : Span) (target : Operand) :
    P Unit (requireReference span target) := by
  unfold requireReference
  split
  · exact law.pure ()
  · exact law.pure ()
  · exact law.throw _

theorem obeys_store (law : LawOf root P) (span : Span) {target : Operand} {value : Lowering Expr}
    (found : target.Obeys P) (obeys : P Expr value) :
    P (Option Expr) (store span target value) := by
  apply law.bind (found.target span)
  rintro (_ | cell)
  · exact law.pure none
  · exact law.bind obeys fun e => law.pure (some (Expr.set cell e))

theorem obeys_readBack (law : LawOf root P) {target : Operand} (obeys : target.Obeys P) :
    P Expr (readBack target) := by
  unfold readBack
  split
  · exact law.readName _ _
  · exact obeys.value

theorem obeys_update (law : LawOf root P) (combine : Expr → Expr → Expr) (span : Span)
    {target value : Operand} (found : target.Obeys P) (obeys : value.Obeys P) :
    P Fragment (update combine span target value) := by
  have combined : P Expr do
      let current ← target.value
      let operand ← value.value
      return combine current operand :=
    law.bind found.value fun current =>
      law.bind obeys.value fun operand => law.pure (combine current operand)
  exact law.bind (obeys_requireReference law span target) fun _ =>
    law.bind (obeys_store law span found combined) fun stored =>
      law.pure (Fragment.ofStore stored)

theorem obeys_increment (law : LawOf root P) (post : Bool) (span : Span) {target : Operand}
    (found : target.Obeys P) : P Expr (increment post span target) := by
  have counted := law.map found.value Arithmetic.increment
  apply law.bind (obeys_requireReference law span target)
  intro _
  apply law.bind (obeys_store law span found counted)
  rintro (_ | e)
  · exact law.throw _
  · exact law.pure _

theorem obeys_constrainedStore (law : LawOf root P) (span : Span) {target value : Operand}
    (found : target.Obeys P) (obeys : value.Obeys P) :
    P Expr (constrainedStore span target value) := by
  apply law.bind (obeys_store law span found obeys.value)
  rintro (_ | stored)
  · exact law.throw _
  · exact law.bind (obeys_readBack law found) fun back =>
      law.pure (Expr.assertEqual stored back)

theorem obeys_constrain (law : LawOf root P) {lhs rhs : Operand} (left : lhs.Obeys P)
    (right : rhs.Obeys P) : P Expr (constrain lhs rhs) :=
  law.bind left.value fun a =>
    law.bind right.value fun b => law.pure (Expr.assertEqual a b)

/-- An operation has each such property that the uses of its operands have. -/
theorem obeys_operate (law : LawOf root P) (span : Span) (op : Operator) {operands : List Operand}
    (obeys : ∀ operand ∈ operands, operand.Obeys P) : P Fragment (operate span op operands) := by
  unfold operate
  split
  case h_1 target value =>
    obtain ⟨found, obeys⟩ : target.Obeys P ∧ value.Obeys P := by simpa using obeys
    exact law.map (obeys_store law span found obeys.value) _
  case h_2 target value =>
    obtain ⟨found, obeys⟩ : target.Obeys P ∧ value.Obeys P := by simpa using obeys
    exact law.map (obeys_store law span found obeys.value) _
  case h_3 target value =>
    obtain ⟨found, obeys⟩ : target.Obeys P ∧ value.Obeys P := by simpa using obeys
    exact law.map (obeys_constrainedStore law span found obeys) _
  case h_4 lhs rhs =>
    obtain ⟨left, right⟩ : lhs.Obeys P ∧ rhs.Obeys P := by simpa using obeys
    exact law.map (obeys_constrain law left right) _
  case h_5 target value =>
    obtain ⟨found, obeys⟩ : target.Obeys P ∧ value.Obeys P := by simpa using obeys
    exact obeys_update law Arithmetic.add span found obeys
  case h_6 target value =>
    obtain ⟨found, obeys⟩ : target.Obeys P ∧ value.Obeys P := by simpa using obeys
    exact obeys_update law Arithmetic.mul span found obeys
  case h_7 target =>
    have found : target.Obeys P := by simpa using obeys
    exact law.map (obeys_increment law true span found) _
  case h_8 target =>
    have found : target.Obeys P := by simpa using obeys
    exact law.map (obeys_increment law false span found) _
  case h_9 operand =>
    have negated : operand.Obeys P := by simpa using obeys
    exact law.bind negated.value fun _ => law.pure _
  case h_10 condition whenTrue whenFalse =>
    obtain ⟨tested, yes, no⟩ :
        condition.Obeys P ∧ whenTrue.Obeys P ∧ whenFalse.Obeys P := by simpa using obeys
    exact law.bind tested.value fun _ => law.bind yes.value fun _ =>
      law.bind no.value fun _ => law.pure _
  case h_11 lhs rhs _ _ _ _ _ _ =>
    obtain ⟨left, right⟩ : lhs.Obeys P ∧ rhs.Obeys P := by simpa using obeys
    split
    · apply law.bind left.value
      intro a
      apply law.bind right.value
      intro b
      cases Arithmetic.binary? op with
      | some combine => exact law.pure _
      | none => exact law.throw _
    · exact law.throw _
  case h_12 => exact law.throw _

end Operand

/-! ### Nodes -/

mutual

/-- The lowering of a node has each property that carries over from parts of steps to steps, as far as
the nodes inside it need it. -/
theorem Node.obeys_lower_of (law : LawOf root P) : (n : Node) → root.Contains n → P Fragment n.lower
  | .number _ _, _ => by
    rw [Node.lower]
    exact law.pure _
  | .var span name selectors, inside => by
    rw [Node.lower]
    exact law.resolve name span
      (fun symbol => law.bind (Node.obeys_lowerValues law selectors fun _ => inside.child)
        fun indices => law.bind (law.cellOf name indices span symbol.kind) fun _ => law.pure _)
      fun _ _ same => by rw [same]
  | .pin span component componentSelectors name selectors, inside => by
    rw [Node.lower]
    have outer : ∀ n ∈ componentSelectors, root.Contains n :=
      fun _ member => inside.child (List.mem_append_left _ member)
    have inner : ∀ n ∈ selectors, root.Contains n :=
      fun _ member => inside.child (List.mem_append_right _ member)
    exact law.bind (law.resolveComponent component span) fun _ =>
      law.bind (Node.obeys_lowerValues law componentSelectors outer) fun _ =>
        law.bind (Node.obeys_lowerValues law selectors inner) fun _ => law.pure _
  | .op span symbol operands, inside => by
    rw [Node.lower]
    split
    · exact Operand.obeys_operate law span _ (Node.obeys_operands law operands fun _ => inside.child)
    · exact law.throw _
  | .declare span tag name, inside => by
    rw [Node.lower]
    exact law.bind (law.declare inside) fun _ => law.pure _
  | .call _ name args, inside => by
    rw [Node.lower]
    exact law.bind (Node.obeys_lowerValues law args fun _ => inside.child) fun _ => law.pure _
  | .block _ statements, inside => by
    rw [Node.lower]
    exact law.bind (Node.obeys_lowerStatements law statements fun _ => inside.child) fun _ =>
      law.pure _
  | .forLoop _ init condition step body, inside => by
    rw [Node.lower]
    have first : root.Contains init := inside.child (.head _)
    have tested : root.Contains condition := inside.child (.tail _ (.head _))
    have second : root.Contains step := inside.child (.tail _ (.tail _ (.head _)))
    have last : root.Contains body := inside.child (.tail _ (.tail _ (.tail _ (.head _))))
    exact law.bind (Node.obeys_lower_of law init first) fun _ =>
      law.bind (law.valueOf condition (Node.obeys_lower_of law condition tested)) fun _ =>
        law.bind (Node.obeys_lower_of law step second) fun _ =>
          law.bind (Node.obeys_lower_of law body last) fun _ => law.pure _
  | .whileLoop _ condition body, inside => by
    rw [Node.lower]
    have tested : root.Contains condition := inside.child (.head _)
    have last : root.Contains body := inside.child (.tail _ (.head _))
    exact law.bind (law.valueOf condition (Node.obeys_lower_of law condition tested)) fun _ =>
      law.bind (Node.obeys_lower_of law body last) fun _ => law.pure _
  | .ret _ value, inside => by
    rw [Node.lower]
    have returned := Node.obeys_lower_of law value (inside.child (.head _))
    exact law.bind (law.valueOf value returned) fun _ => law.pure _
  | .template span name params body, inside =>
    law.template inside
      (Node.obeys_lowerBody law params span inside (.head _) body (inside.child (.head _)))
  | .function span name params body, inside =>
    law.function inside
      (Node.obeys_lowerBody law params span inside (.tail _ (.head _)) body (inside.child (.head _)))
  | .inclusion _ _ content, inside => by
    rw [Node.lower]
    exact Node.obeys_lowerOption law content fun n member =>
      inside.child (Option.mem_toList.2 member)
  | .array _ items, inside => by
    rw [Node.lower]
    exact law.bind (Node.obeys_lowerValues law items fun _ => inside.child) fun _ => law.pure _

/-- So has finding the cell of a target. -/
theorem Node.obeys_lowerTarget (law : LawOf root P) (span : Span) :
    (n : Node) → root.Contains n → P (Option Cell) (n.lowerTarget span)
  | .declare at' tag name, inside => by
    rw [Node.lowerTarget]
    exact law.bind (law.declare inside) fun declared =>
      law.resolve declared span (fun symbol => law.targetOf declared [] span symbol.kind)
        fun _ _ same => by rw [same]
  | .pin at' component componentSelectors name selectors, inside => by
    rw [Node.lowerTarget]
    have outer : ∀ n ∈ componentSelectors, root.Contains n :=
      fun _ member => inside.child (List.mem_append_left _ member)
    have inner : ∀ n ∈ selectors, root.Contains n :=
      fun _ member => inside.child (List.mem_append_right _ member)
    exact law.bind (law.resolveComponent component at') fun _ =>
      law.bind (Node.obeys_lowerValues law componentSelectors outer) fun _ =>
        law.bind (Node.obeys_lowerValues law selectors inner) fun _ => law.pure _
  | .var at' name selectors, inside => by
    rw [Node.lowerTarget]
    exact law.bind (Node.obeys_lowerValues law selectors fun _ => inside.child) fun indices =>
      law.resolve name at' (fun symbol => law.targetOf name indices at' symbol.kind)
        fun _ _ same => by rw [same]
  | .number .., _ | .op .., _ | .call .., _ | .block .., _ | .forLoop .., _ | .whileLoop .., _
  | .ret .., _ | .template .., _ | .function .., _ | .inclusion .., _ | .array .., _ => by
    rw [Node.lowerTarget]
    · exact law.throw _
    all_goals simp

theorem Node.obeys_lowerBody (law : LawOf root P) {definition : Node} (params : List String)
    (span : Span) (inside : root.Contains definition)
    (defines : definition.kind ∈ [NodeKind.template, .function]) :
    (body : Node) → root.Contains body → P (List Stmt) (Node.lowerBody params span body)
  | .block at' statements, own =>
    law.body params span at' inside defines
      (Node.obeys_lowerStatements law statements fun _ => own.child)
  | .number .., _ | .var .., _ | .pin .., _ | .op .., _ | .declare .., _ | .call .., _
  | .forLoop .., _ | .whileLoop .., _ | .ret .., _ | .template .., _ | .function .., _
  | .inclusion .., _ | .array .., _ => by
    rw [Node.lowerBody]
    · exact law.throw _
    all_goals simp

theorem Node.obeys_lowerValues (law : LawOf root P) :
    (ns : List Node) → (∀ n ∈ ns, root.Contains n) → P (List Expr) (Node.lowerValues ns)
  | [], _ => by
    rw [Node.lowerValues]
    exact law.pure _
  | n :: ns, inside => by
    rw [Node.lowerValues]
    exact law.bind (law.valueOf n (Node.obeys_lower_of law n (inside n (.head _)))) fun _ =>
      law.bind (Node.obeys_lowerValues law ns fun m member => inside m (.tail _ member)) fun _ =>
        law.pure _

theorem Node.obeys_lowerStatements (law : LawOf root P) :
    (ns : List Node) → (∀ n ∈ ns, root.Contains n) → P (List Stmt) (Node.lowerStatements ns)
  | [], _ => by
    rw [Node.lowerStatements]
    exact law.pure _
  | n :: ns, inside => by
    rw [Node.lowerStatements]
    exact law.bind (Node.obeys_lower_of law n (inside n (.head _))) fun _ =>
      law.bind (Node.obeys_lowerStatements law ns fun m member => inside m (.tail _ member)) fun _ =>
        law.pure _

theorem Node.obeys_lowerOption (law : LawOf root P) :
    (content : Option Node) → (∀ n ∈ content, root.Contains n) →
      P Fragment (Node.lowerOption content)
  | none, _ => by
    rw [Node.lowerOption]
    exact law.pure _
  | some n, inside => by
    rw [Node.lowerOption]
    exact Node.obeys_lower_of law n (inside n rfl)

theorem Node.obeys_operands (law : LawOf root P) :
    (ns : List Node) → (∀ n ∈ ns, root.Contains n) → ∀ operand ∈ Node.operands ns, operand.Obeys P
  | [], _ => by simp [Node.operands]
  | n :: ns, inside => by
    intro operand member
    rw [Node.operands, List.mem_cons] at member
    rcases member with rfl | member
    · have own := inside n (.head _)
      exact ⟨law.valueOf n (Node.obeys_lower_of law n own),
        fun span => Node.obeys_lowerTarget law span n own⟩
    · exact Node.obeys_operands law ns (fun m member => inside m (.tail _ member)) operand member

end

/-- The lowering of a node has each property that carries over from parts of steps to steps. -/
theorem Node.obeys_lower (law : Law P) (n : Node) : P Fragment n.lower :=
  Node.obeys_lower_of (law.lawOf n) n .self

end

end ArithCircuit
