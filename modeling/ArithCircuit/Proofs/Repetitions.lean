import ArithCircuit.Proofs.Introductions

set_option autoImplicit false
set_option relaxedAutoImplicit false

/-!
# Lowering a value twice

A value that declares a name cannot be lowered twice in one level. So where this succeeds the value
declares nothing, and the code is the same both times if the names in it stand for the same both
times. The operators that update in place lower their target twice. Main statement:
`Node.reread_of_lowerTarget`.
-/

namespace ArithCircuit

open Lowering

/-! ### Declared names -/

/-- Between two contexts some introductions took place in the innermost table: it did not hold their
names and holds them now. Without introductions nothing has changed. -/
structure Context.Declares (new : List Introduction) (ctx ctx' : Context) : Prop where
  fresh : ∀ i ∈ new, i.name ∉ ctx.scope.current.keys
  held : ∀ i ∈ new, i.name ∈ ctx'.scope.current.keys
  grows : ctx.scope.current.keys ⊆ ctx'.scope.current.keys
  same : new = [] → ctx' = ctx

namespace Context.Declares

variable {new new' : List Introduction} {ctx ctx₁ ctx₂ ctx' : Context}

theorem refl (ctx : Context) : Declares [] ctx ctx where
  fresh := nofun
  held := nofun
  grows := List.Subset.refl _
  same _ := rfl

theorem append (first : Declares new ctx ctx₁) (second : Declares new' ctx₁ ctx') :
    Declares (new ++ new') ctx ctx' where
  fresh i member := by
    rcases List.mem_append.1 member with earlier | later
    · exact first.fresh i earlier
    · exact fun held => second.fresh i later (first.grows held)
  held i member := by
    rcases List.mem_append.1 member with earlier | later
    · exact second.grows (first.held i earlier)
    · exact second.held i later
  grows := List.Subset.trans first.grows second.grows
  same none := by
    obtain ⟨rfl, rfl⟩ := List.append_eq_nil_iff.1 none
    rw [second.same rfl, first.same rfl]

theorem of_declare {i : Introduction} {symbol : Symbol} {scope : Scope}
    (declared : ctx.scope.declare i.name symbol = .ok scope) :
    Declares [i] ctx { ctx with scope } where
  fresh other member := by
    cases List.mem_singleton.1 member
    exact OrderedMap.get?_eq_none_iff_not_mem_keys.1 (Scope.declare_eq_ok_iff.1 declared).1
  held other member := by
    cases List.mem_singleton.1 member
    rw [Scope.current_of_declare declared]
    exact OrderedMap.mem_keys_insert_self _ _ _
  grows := by
    rw [Scope.current_of_declare declared]
    exact OrderedMap.keys_subset_insert _ _ _
  same := nofun

/-- Introductions that take place a second time, in a level that holds what the first time left, are
none. -/
theorem eq_nil_of_again {ctx₃ : Context} (first : Declares new ctx ctx₁)
    (second : Declares new ctx₂ ctx₃)
    (kept : ctx₁.scope.current.keys ⊆ ctx₂.scope.current.keys) : new = [] := by
  rcases new with _ | ⟨i, new⟩
  · rfl
  · exact absurd (kept (first.held i (.head _))) (second.fresh i (.head _))

end Context.Declares

/-! ### Names that stand for the same -/

/-- The name that a reference looks up. -/
def Node.referredName? : Node → Option String
  | .var _ name _ => some name
  | .pin _ component _ _ _ => some component
  | _ => none

/-- The names in a node stand for the same in two contexts. -/
def Context.Agrees (root : Node) (ctx ctx' : Context) : Prop :=
  ∀ n name, root.Contains n → n.referredName? = some name →
    ctx'.scope.lookup? name = ctx.scope.lookup? name

/-- A run of a step makes some introductions. If it makes none, the step has the same outcome in all
contexts in which the names in a node stand for the same. -/
structure Lowering.Repeats {α : Type} (root : Node) (new : List Introduction) (step : Lowering α)
    (ctx : Context) (a : α) (ctx' : Context) : Prop where
  declares : ctx.Declares new ctx'
  again : new = [] → ∀ {whole : Context}, ctx.Agrees root whole →
    runFrom whole step = (.ok a, whole)

namespace Lowering.Repeats

variable {α β : Type} {root : Node} {new new' : List Introduction} {ctx ctx₁ ctx' : Context}
  {step : Lowering α} {next : α → Lowering β} {a : α} {b : β}

theorem pure (a : α) (ctx : Context) : Repeats root [] (Pure.pure a : Lowering α) ctx a ctx where
  declares := .refl ctx
  again _ _ _ := runFrom_pure ..

theorem bind (first : Repeats root new step ctx a ctx₁)
    (second : Repeats root new' (next a) ctx₁ b ctx') :
    Repeats root (new ++ new') (step >>= next) ctx b ctx' where
  declares := first.declares.append second.declares
  again none whole agrees := by
    obtain ⟨rfl, rfl⟩ := List.append_eq_nil_iff.1 none
    have same : ctx₁ = ctx := first.declares.same rfl
    rw [runFrom_bind, first.again rfl agrees]
    exact second.again rfl (same ▸ agrees)

/-- What follows a step may introduce nothing. -/
theorem andThen (first : Repeats root new step ctx a ctx₁)
    (second : Repeats root [] (next a) ctx₁ b ctx') :
    Repeats root new (step >>= next) ctx b ctx' := by
  have both := first.bind second
  rwa [List.append_nil] at both

theorem map (first : Repeats root new step ctx a ctx') (f : α → β) :
    Repeats root new (f <$> step) ctx (f a) ctx' := by
  rw [map_eq_pure_bind]
  exact first.andThen (.pure (f a) ctx')

theorem resolve {n : Node} {name : String} {span : Span} {symbol : Symbol}
    (inside : root.Contains n) (refers : n.referredName? = some name)
    (ran : runFrom ctx (Lowering.resolve name span) = (.ok symbol, ctx')) :
    Repeats root [] (Lowering.resolve name span) ctx symbol ctx' := by
  obtain ⟨found, rfl⟩ := runFrom_resolve_eq_ok.1 ran
  refine ⟨.refl _, fun _ whole agrees => runFrom_resolve_eq_ok.2 ⟨?_, rfl⟩⟩
  rw [agrees n name inside refers, found]

theorem resolveComponent {n : Node} {name : String} {span : Span} {u : Unit}
    (inside : root.Contains n) (refers : n.referredName? = some name)
    (ran : runFrom ctx (ArithCircuit.resolveComponent name span) = (.ok u, ctx')) :
    Repeats root [] (ArithCircuit.resolveComponent name span) ctx u ctx' := by
  obtain ⟨⟨symbol, found, component⟩, rfl⟩ := runFrom_resolveComponent_eq_ok.1 ran
  refine ⟨.refl _, fun _ whole agrees => ?_⟩
  have same : whole.scope.lookup? name = some symbol := by rw [agrees n name inside refers, found]
  exact runFrom_resolveComponent_eq_ok.2 ⟨⟨symbol, same, component⟩, rfl⟩

theorem cellOf {name : String} {indices : List Expr} {span : Span} {kind : SymbolKind} {cell : Cell}
    (ran : runFrom ctx (ArithCircuit.cellOf name indices span kind) = (.ok cell, ctx')) :
    Repeats root [] (ArithCircuit.cellOf name indices span kind) ctx cell ctx' := by
  obtain ⟨stands, rfl⟩ := runFrom_cellOf_eq_ok.1 ran
  exact ⟨.refl _, fun _ _ _ => runFrom_cellOf_eq_ok.2 ⟨stands, rfl⟩⟩

theorem targetOf {name : String} {indices : List Expr} {span : Span} {kind : SymbolKind}
    {found : Option Cell}
    (ran : runFrom ctx (ArithCircuit.targetOf name indices span kind) = (.ok found, ctx')) :
    Repeats root [] (ArithCircuit.targetOf name indices span kind) ctx found ctx' := by
  obtain ⟨stands, rfl⟩ := runFrom_targetOf_eq_ok.1 ran
  exact ⟨.refl _, fun _ _ _ => runFrom_targetOf_eq_ok.2 ⟨stands, rfl⟩⟩

theorem declareNode {tag name : String} {node : Node} {span : Span}
    (ran : runFrom ctx (ArithCircuit.declareNode tag node span) = (.ok name, ctx')) :
    Repeats root (node.declaredIntroductions [] span tag) (ArithCircuit.declareNode tag node span) ctx
      name ctx' := by
  obtain ⟨kind, at', dimensions, known, rfl, declares⟩ := runFrom_declareNode_eq_ok.1 ran
  obtain ⟨scope, declared, rfl⟩ := runFrom_declare_eq_ok.1 declares
  rw [Node.declaredIntroductions_of_known known]
  exact ⟨.of_declare declared, nofun⟩

theorem valueOf {n : Node} {step : Lowering Fragment} {e : Expr}
    (lowered : Repeats root new step ctx (.expr e) ctx') :
    Repeats root new (ArithCircuit.valueOf n step) ctx e ctx' :=
  lowered.andThen (.pure e ctx')

end Lowering.Repeats

/-! ### Operations -/

theorem Node.introductionsAll_singleton (level : List Node) (n : Node) :
    Node.introductionsAll level [n] = n.introductions level := by
  rw [Node.introductionsAll, Node.introductionsAll, List.append_nil]

/-- Both uses of a node as an operand repeat its introductions. -/
structure Node.Repeats (n root : Node) : Prop where
  value : ∀ {ctx e ctx'}, runFrom ctx n.lowerValue = (.ok e, ctx') →
    Lowering.Repeats root (n.introductions []) n.lowerValue ctx e ctx'
  target : ∀ {span ctx found ctx'}, runFrom ctx (n.lowerTarget span) = (.ok found, ctx') →
    Lowering.Repeats root (n.introductions []) (n.lowerTarget span) ctx found ctx'

namespace Operand

variable {root m n : Node} {new new' : List Introduction} {ctx ctx₁ ctx₂ ctx' : Context} {span : Span}
  {op : Operator} {target : Operand} {value : Lowering Expr} {cell : Cell}
  {e current back : Expr}

theorem eq_nil_of_values {operands : List Operand}
    (lowered : runFrom ctx (values operands) = (.ok [], ctx')) : operands = [] ∧ ctx' = ctx := by
  cases operands with
  | nil => exact ⟨rfl, (runFrom_pure_eq_ok.1 lowered).2⟩
  | cons operand rest =>
    obtain ⟨_, _, _, -, -, same⟩ := runFrom_values_cons_eq_ok.1 lowered
    cases same

theorem eq_cons_of_values {operands : List Operand} {es : List Expr}
    (lowered : runFrom ctx (values operands) = (.ok (e :: es), ctx')) :
    ∃ operand rest ctx₁, operands = operand :: rest ∧ runFrom ctx operand.value = (.ok e, ctx₁) ∧
      runFrom ctx₁ (values rest) = (.ok es, ctx') := by
  cases operands with
  | nil => cases (runFrom_pure_eq_ok.1 lowered).1
  | cons operand rest =>
    obtain ⟨_, ctx₁, _, first, last, same⟩ := runFrom_values_cons_eq_ok.1 lowered
    cases same
    exact ⟨operand, rest, ctx₁, rfl, first, last⟩

/-- Operands that have values from which an operator computes another one can be operated on. -/
theorem runFrom_operate_of_values {operands : List Operand} {es : List Expr}
    (lowered : runFrom ctx (values operands) = (.ok es, ctx'))
    (combined : op.combine? es = some e) :
    runFrom ctx (operate span op operands) = (.ok (.expr e), ctx') := by
  unfold Operator.combine? at combined
  split at combined
  case h_1 a =>
    cases combined
    obtain ⟨operand, rest, ctx₁, rfl, first, last⟩ := eq_cons_of_values lowered
    obtain ⟨rfl, rfl⟩ := eq_nil_of_values last
    simp only [operate, runFrom_bind_eq_ok, runFrom_pure_eq_ok]
    exact ⟨a, _, first, rfl, rfl⟩
  case h_2 c a b =>
    cases combined
    obtain ⟨condition, rest, ctx₁, rfl, first, later⟩ := eq_cons_of_values lowered
    obtain ⟨whenTrue, rest, ctx₂, rfl, second, last⟩ := eq_cons_of_values later
    obtain ⟨whenFalse, rest, ctx₃, rfl, third, none⟩ := eq_cons_of_values last
    obtain ⟨rfl, rfl⟩ := eq_nil_of_values none
    simp only [operate, runFrom_bind_eq_ok, runFrom_pure_eq_ok]
    exact ⟨c, _, first, a, _, second, b, _, third, rfl, rfl⟩
  case h_3 _ _ a b =>
    obtain ⟨combine, binary, rfl⟩ := Option.map_eq_some_iff.1 combined
    obtain ⟨lhs, rest, ctx₁, rfl, first, last⟩ := eq_cons_of_values lowered
    obtain ⟨rhs, rest, ctx₂, rfl, second, none⟩ := eq_cons_of_values last
    obtain ⟨rfl, rfl⟩ := eq_nil_of_values none
    simp only [operate_of_binary binary, runFrom_bind_eq_ok, runFrom_pure_eq_ok]
    exact ⟨a, _, first, b, _, second, rfl, rfl⟩
  case h_4 => cases combined

theorem repeats_requireReference (reference : target.node.isReference = true) :
    Lowering.Repeats root [] (requireReference span target) ctx () ctx :=
  ⟨.refl ctx, fun _ _ _ => runFrom_requireReference_eq_ok.2 ⟨reference, rfl⟩⟩

theorem repeats_store
    (found : Lowering.Repeats root new (target.target span) ctx (some cell) ctx₁)
    (lowered : Lowering.Repeats root new' value ctx₁ e ctx') :
    Lowering.Repeats root (new ++ new') (store span target value) ctx (some (.set cell e)) ctx' :=
  found.bind (lowered.andThen (.pure _ ctx'))

theorem repeats_update {value : Operand} (combine : Expr → Expr → Expr)
    (reference : target.node.isReference = true)
    (found : Lowering.Repeats root new (target.target span) ctx (some cell) ctx₁)
    (read : Lowering.Repeats root new target.value ctx₁ current ctx₂)
    (lowered : Lowering.Repeats root new' value.value ctx₂ e ctx') :
    Lowering.Repeats root (new ++ (new ++ new')) (update combine span target value) ctx
      (.expr (.set cell (combine current e))) ctx' := by
  have combined : Lowering.Repeats root (new ++ new') (do
      let current ← target.value
      let operand ← value.value
      return combine current operand) ctx₁ (combine current e) ctx' :=
    read.bind (lowered.andThen (.pure _ ctx'))
  have stored := repeats_store found combined
  exact (repeats_requireReference reference).bind (stored.andThen (.pure _ ctx'))

theorem repeats_increment (post : Bool) (reference : target.node.isReference = true)
    (found : Lowering.Repeats root new (target.target span) ctx (some cell) ctx₁)
    (read : Lowering.Repeats root new target.value ctx₁ current ctx') :
    Lowering.Repeats root (new ++ new) (increment post span target) ctx
      (if post then Arithmetic.previousValue (.set cell (Arithmetic.increment current))
        else .set cell (Arithmetic.increment current)) ctx' := by
  have stored := repeats_store found (read.map Arithmetic.increment)
  exact (repeats_requireReference reference).bind (stored.andThen (.pure _ ctx'))

theorem repeats_constrainedStore {value : Operand} {reread : List Introduction}
    (found : Lowering.Repeats root new (target.target span) ctx (some cell) ctx₁)
    (lowered : Lowering.Repeats root new' value.value ctx₁ e ctx₂)
    (read : Lowering.Repeats root reread (readBack target) ctx₂ back ctx') :
    Lowering.Repeats root (new ++ (new' ++ reread)) (constrainedStore span target value) ctx
      (.assertEqual (.set cell e) back) ctx' := by
  rw [← List.append_assoc]
  exact (repeats_store found lowered).bind (read.andThen (.pure _ ctx'))

theorem repeats_constrain {lhs rhs : Operand}
    (left : Lowering.Repeats root new lhs.value ctx e ctx₁)
    (right : Lowering.Repeats root new' rhs.value ctx₁ back ctx') :
    Lowering.Repeats root (new ++ new') (constrain lhs rhs) ctx (.assertEqual e back) ctx' :=
  left.bind (right.andThen (.pure _ ctx'))

theorem repeats_readBack (inside : root.Contains n) (repeats : n.Repeats root)
    (ran : runFrom ctx (readBack n.operand) = (.ok back, ctx')) :
    Lowering.Repeats root (n.backParts (n.introductions [])) (readBack n.operand) ctx back ctx' := by
  cases n
  case declare at' tag name =>
    cases name
    case var place name dimensions =>
      have child := inside.child (List.mem_singleton_self _)
      obtain ⟨symbol, ctx₁, resolved, rest⟩ := runFrom_bind_eq_ok.1 ran
      obtain ⟨cell, stands, rfl⟩ := runFrom_map_eq_ok.1 rest
      exact (Lowering.Repeats.resolve child rfl resolved).andThen
        ((Lowering.Repeats.cellOf stands).map _)
    all_goals exact repeats.value ran
  all_goals exact repeats.value ran

theorem repeats_values {ns : List Node} {es : List Expr} (repeats : ∀ n ∈ ns, n.Repeats root)
    (ran : runFrom ctx (values (Node.operands ns)) = (.ok es, ctx')) :
    Lowering.Repeats root (Node.introductionsAll [] ns) (values (Node.operands ns)) ctx es ctx' := by
  induction ns generalizing ctx es with
  | nil =>
    obtain ⟨rfl, rfl⟩ := runFrom_pure_eq_ok.1 ran
    rw [Node.introductionsAll]
    exact .pure [] _
  | cons n ns ih =>
    rw [Node.operands] at ran ⊢
    obtain ⟨e, ctx₁, es', first, last, rfl⟩ := runFrom_values_cons_eq_ok.1 ran
    have rest := ih (fun m member => repeats m (.tail _ member)) last
    rw [Node.introductionsAll]
    exact ((repeats n (.head _)).value first).bind (rest.andThen (.pure (e :: es') ctx'))

/-- An operation that yields a value repeats what its operands introduce. -/
theorem Operates.repeats {ns : List Node} (inside : ∀ n ∈ ns, root.Contains n)
    (repeats : ∀ n ∈ ns, n.Repeats root)
    (operates : Operates span ctx op (Node.operands ns) (.expr e) ctx') :
    Lowering.Repeats root ((Node.op span op.symbol ns).introductions [])
      (operate span op (Node.operands ns)) ctx (.expr e) ctx' := by
  generalize same : Node.operands ns = operands at operates
  cases operates with
  | store plain found lowered =>
    obtain ⟨m, n, rfl, rfl, rfl⟩ := Node.eq_of_operands same
    have stores := Operator.stores_of_plain plain
    have asTarget := (repeats m (.head _)).target found
    have asValue := (repeats n (.tail _ (.head _))).value lowered
    have stored : Lowering.Repeats root (m.introductions [] ++ n.introductions [])
        (Fragment.ofStore <$> Operand.store span m.operand n.operand.value) ctx (.expr _) ctx' :=
      (repeats_store asTarget asValue).map Fragment.ofStore
    rw [Node.introductions_of_stores stores.1]
    simp only [stores, Node.introductionsAll_singleton, Bool.false_eq_true, if_false,
      List.nil_append, List.append_nil]
    rcases plain with rfl | rfl
    · exact stored
    · exact stored
  | @update _ combine _ _ _ _ _ _ _ _ updates reference found first second =>
    obtain ⟨m, n, rfl, rfl, rfl⟩ := Node.eq_of_operands same
    have stores := Operator.updates_of_update? updates
    have asTarget := (repeats m (.head _)).target found
    have read := (repeats m (.head _)).value first
    have asValue := (repeats n (.tail _ (.head _))).value second
    have updated : Lowering.Repeats root _ (Operand.update combine span m.operand n.operand) ctx _
        ctx' := repeats_update combine reference asTarget read asValue
    rw [Node.introductions_of_stores stores.1]
    simp only [stores, Node.introductionsAll_singleton, if_true, if_false, List.append_nil]
    cases op <;> cases updates
    · exact updated
    · exact updated
  | @increment post _ _ _ _ _ reference found read =>
    obtain ⟨m, rfl, rfl⟩ := Node.eq_of_operands_singleton same
    have asTarget := (repeats m (.head _)).target found
    have asValue := (repeats m (.head _)).value read
    have counted := (repeats_increment post reference asTarget asValue).map Fragment.expr
    have stores := Operator.stores_of_increment post
    rw [Node.introductions_of_stores stores.1]
    simp only [stores, Node.introductionsAll, if_true, if_false, List.append_nil]
    cases post
    · exact counted
    · exact counted
  | constrainedStore found lowered read =>
    obtain ⟨m, n, rfl, rfl, rfl⟩ := Node.eq_of_operands same
    have asTarget := (repeats m (.head _)).target found
    have asValue := (repeats n (.tail _ (.head _))).value lowered
    have reread := repeats_readBack (inside m (.head _)) (repeats m (.head _)) read
    have constrained : Lowering.Repeats root _ (Operand.constrainedStore span m.operand n.operand) ctx
        _ ctx' := repeats_constrainedStore asTarget asValue reread
    have stores : Operator.constrainedAssign.stores = true := rfl
    have fresh : Operator.constrainedAssign.updates = false := rfl
    rw [Node.introductions_of_stores stores]
    simp only [fresh, Node.introductionsAll_singleton, Bool.false_eq_true, if_false, if_true,
      List.nil_append]
    exact constrained.map Fragment.expr
  | constrain first second =>
    obtain ⟨m, n, rfl, rfl, rfl⟩ := Node.eq_of_operands same
    have left := (repeats m (.head _)).value first
    have right := (repeats n (.tail _ (.head _))).value second
    have demanded : Lowering.Repeats root _ (Operand.constrain m.operand n.operand) ctx _ ctx' :=
      repeats_constrain left right
    rw [Node.introductions_of_not_stores rfl, Node.introductionsAll_pair]
    exact demanded.map Fragment.expr
  | arithmetic lowered combined =>
    subst same
    have plain := Operator.stores_of_isArithmetic (Operator.isArithmetic_of_combine? combined)
    have valued := repeats_values repeats lowered
    rw [Node.introductions_of_not_stores plain]
    exact ⟨valued.declares, fun none whole agrees =>
      runFrom_operate_of_values (valued.again none agrees) combined⟩

end Operand

/-! ### Values and targets -/

section

variable {root : Node}

mutual

/-- Lowering a value repeats what the value introduces. -/
theorem Node.repeats_of_expr {ctx ctx' : Context} {e : Expr} : (n : Node) → root.Contains n →
    runFrom ctx n.lower = (.ok (.expr e), ctx') →
    Lowering.Repeats root (n.introductions []) n.lower ctx (.expr e) ctx'
  | .number _ _, _, ran => by
    rw [Node.lower] at ran ⊢
    obtain ⟨same, rfl⟩ := runFrom_pure_eq_ok.1 ran
    rw [same]
    exact .pure _ _
  | .var span name selectors, inside, ran => by
    rw [Node.lower] at ran ⊢
    simp only [runFrom_bind_eq_ok] at ran
    obtain ⟨symbol, _, resolved, indices, _, lowered, cell, _, stands, done⟩ := ran
    obtain ⟨same, rfl⟩ := runFrom_pure_eq_ok.1 done
    have selected := Node.repeats_of_lowerValues selectors
      (fun m member => inside.child member) lowered
    rw [same]
    exact (Lowering.Repeats.resolve inside rfl resolved).bind
      (selected.andThen ((Lowering.Repeats.cellOf stands).andThen (.pure _ _)))
  | .pin span component componentSelectors name selectors, inside, ran => by
    rw [Node.lower] at ran ⊢
    simp only [runFrom_bind_eq_ok] at ran
    obtain ⟨_, _, resolved, _, _, first, _, _, second, done⟩ := ran
    obtain ⟨same, rfl⟩ := runFrom_pure_eq_ok.1 done
    have outer := Node.repeats_of_lowerValues componentSelectors
      (fun m member => inside.child (List.mem_append_left _ member)) first
    have inner := Node.repeats_of_lowerValues selectors
      (fun m member => inside.child (List.mem_append_right _ member)) second
    rw [same]
    exact (Lowering.Repeats.resolveComponent inside rfl resolved).bind
      (outer.bind (inner.andThen (.pure _ _)))
  | .op span symbol operands, inside, ran => by
    rw [Node.lower] at ran ⊢
    split at ran
    · next op known =>
      obtain rfl := Operator.ofSymbol?_eq_some_iff.1 known
      have each := Node.repeats_of_operands operands fun m member => inside.child member
      exact (Operand.operates_of_runFrom ran).repeats (fun m member => inside.child member) each
    · exact absurd ran runFrom_throw_ne_ok
  | .call _ name args, inside, ran => by
    rw [Node.lower] at ran ⊢
    obtain ⟨_, _, lowered, done⟩ := runFrom_bind_eq_ok.1 ran
    obtain ⟨same, rfl⟩ := runFrom_pure_eq_ok.1 done
    rw [same]
    exact (Node.repeats_of_lowerValues args (fun m member => inside.child member) lowered).andThen
      (.pure _ _)
  | .array _ items, inside, ran => by
    rw [Node.lower] at ran ⊢
    obtain ⟨_, _, lowered, done⟩ := runFrom_bind_eq_ok.1 ran
    obtain ⟨same, rfl⟩ := runFrom_pure_eq_ok.1 done
    rw [same]
    exact (Node.repeats_of_lowerValues items (fun m member => inside.child member) lowered).andThen
      (.pure _ _)
  | .inclusion _ _ (some n), inside, ran => by
    rw [Node.lower, Node.lowerOption] at ran ⊢
    exact Node.repeats_of_expr n (inside.child (by simp [Node.children])) ran
  | .inclusion _ _ none, _, ran => by
    rw [Node.lower, Node.lowerOption] at ran
    exact absurd (runFrom_pure_eq_ok.1 ran).1 nofun
  | .declare .., _, ran | .block .., _, ran | .forLoop .., _, ran | .whileLoop .., _, ran
  | .ret .., _, ran | .template .., _, ran | .function .., _, ran => by
    simp only [Node.lower, runFrom_bind_eq_ok, runFrom_pure_eq_ok] at ran
    grind

theorem Node.repeats_of_lowerValues {ctx ctx' : Context} {es : List Expr} : (ns : List Node) →
    (∀ n ∈ ns, root.Contains n) → runFrom ctx (Node.lowerValues ns) = (.ok es, ctx') →
    Lowering.Repeats root (Node.introductionsAll [] ns) (Node.lowerValues ns) ctx es ctx'
  | [], _, ran => by
    rw [Node.lowerValues] at ran ⊢
    obtain ⟨rfl, rfl⟩ := runFrom_pure_eq_ok.1 ran
    exact .pure _ _
  | n :: ns, inside, ran => by
    obtain ⟨e, ctx₁, rest, first, last, rfl⟩ := runFrom_lowerValues_cons_eq_ok.1 ran
    have head := Node.repeats_of_expr n (inside n (.head _)) first
    have tail := Node.repeats_of_lowerValues ns (fun m member => inside m (.tail _ member)) last
    rw [Node.lowerValues, Node.introductionsAll]
    exact head.valueOf.bind (tail.andThen (.pure _ _))

/-- So does finding the cell of a target. -/
theorem Node.repeats_of_lowerTarget {ctx ctx' : Context} {span : Span} {found : Option Cell} :
    (n : Node) → root.Contains n → runFrom ctx (n.lowerTarget span) = (.ok found, ctx') →
    Lowering.Repeats root (n.introductions []) (n.lowerTarget span) ctx found ctx'
  | .declare at' tag name, inside, ran => by
    rw [Node.lowerTarget] at ran ⊢
    simp only [runFrom_bind_eq_ok] at ran
    obtain ⟨declared, _, first, symbol, _, resolved, stands⟩ := ran
    obtain ⟨kind, place, dimensions, -, rfl, -⟩ := runFrom_declareNode_eq_ok.1 first
    -- The name that is looked up is that of the node below the declaration.
    have child := inside.child (List.mem_singleton_self _)
    exact (Lowering.Repeats.declareNode first).andThen
      ((Lowering.Repeats.resolve child rfl resolved).andThen (.targetOf stands))
  | .pin at' component componentSelectors name selectors, inside, ran => by
    rw [Node.lowerTarget] at ran ⊢
    simp only [runFrom_bind_eq_ok] at ran
    obtain ⟨_, _, resolved, _, _, first, _, _, second, done⟩ := ran
    obtain ⟨same, rfl⟩ := runFrom_pure_eq_ok.1 done
    have outer := Node.repeats_of_lowerValues componentSelectors
      (fun m member => inside.child (List.mem_append_left _ member)) first
    have inner := Node.repeats_of_lowerValues selectors
      (fun m member => inside.child (List.mem_append_right _ member)) second
    rw [same]
    exact (Lowering.Repeats.resolveComponent inside rfl resolved).bind
      (outer.bind (inner.andThen (.pure _ _)))
  | .var at' name selectors, inside, ran => by
    rw [Node.lowerTarget] at ran ⊢
    simp only [runFrom_bind_eq_ok] at ran
    obtain ⟨indices, _, lowered, symbol, _, resolved, stands⟩ := ran
    have selected := Node.repeats_of_lowerValues selectors
      (fun m member => inside.child member) lowered
    exact selected.andThen ((Lowering.Repeats.resolve inside rfl resolved).andThen
      (.targetOf stands))
  | .number .., _, ran | .op .., _, ran | .call .., _, ran | .block .., _, ran
  | .forLoop .., _, ran | .whileLoop .., _, ran | .ret .., _, ran | .template .., _, ran
  | .function .., _, ran | .inclusion .., _, ran | .array .., _, ran => by
    rw [Node.lowerTarget] at ran
    · exact absurd ran runFrom_throw_ne_ok
    all_goals simp

theorem Node.repeats_of_operands : (ns : List Node) → (∀ n ∈ ns, root.Contains n) →
    ∀ n ∈ ns, n.Repeats root
  | [], _ => by simp
  | n :: ns, inside => by
    intro m member
    rcases List.mem_cons.1 member with same | member
    · rw [same]
      exact ⟨fun ran => (Node.repeats_of_expr n (inside n (.head _))
          (runFrom_valueOf_eq_ok.1 ran)).valueOf,
        fun ran => Node.repeats_of_lowerTarget n (inside n (.head _)) ran⟩
    · exact Node.repeats_of_operands ns (fun m member => inside m (.tail _ member)) m member

end

/-! ### Targets that are read -/

variable {n : Node} {ctx ctx₁ ctx₂ ctx' : Context} {span : Span} {cell : Cell} {back : Expr}

theorem Node.exists_get_of_isReference (reference : n.isReference = true)
    (read : runFrom ctx n.lowerValue = (.ok back, ctx')) : ∃ cell, back = .get cell := by
  have lowered := runFrom_valueOf_eq_ok.1 read
  cases n
  case var span name selectors =>
    simp only [Node.lower, runFrom_bind_eq_ok, runFrom_pure_eq_ok] at lowered
    obtain ⟨_, _, _, _, _, _, cell, _, _, same, _⟩ := lowered
    cases same
    exact ⟨cell, rfl⟩
  case pin span component componentSelectors name selectors =>
    simp only [Node.lower, runFrom_bind_eq_ok, runFrom_pure_eq_ok] at lowered
    obtain ⟨_, _, _, componentIndices, _, _, indices, _, _, same, _⟩ := lowered
    cases same
    exact ⟨.pin component componentIndices name indices, rfl⟩
  all_goals cases reference

/-- A reference that introduces nothing has the same cell as a target and as a value. -/
theorem Node.get_of_lowerTarget (reference : n.isReference = true)
    (found : runFrom ctx (n.lowerTarget span) = (.ok (some cell), ctx))
    (read : runFrom ctx n.lowerValue = (.ok back, ctx')) : back = .get cell := by
  have lowered := runFrom_valueOf_eq_ok.1 read
  cases n
  case var place name selectors =>
    simp only [Node.lower, runFrom_bind_eq_ok, runFrom_resolve_eq_ok, runFrom_cellOf_eq_ok,
      runFrom_pure_eq_ok] at lowered
    simp only [Node.lowerTarget, runFrom_bind_eq_ok, runFrom_resolve_eq_ok,
      runFrom_targetOf_some_eq_ok] at found
    obtain ⟨es, _, first, symbol, _, ⟨stands, rfl⟩, cells, rfl⟩ := found
    obtain ⟨symbol', _, ⟨stands', rfl⟩, es', _, first', cell', _, ⟨cells', rfl⟩, same, -⟩ := lowered
    cases first.symm.trans first'
    cases stands.symm.trans stands'
    cases cells.symm.trans cells'
    cases same
    rfl
  case pin place component componentSelectors name selectors =>
    simp only [Node.lower, runFrom_bind_eq_ok, runFrom_resolveComponent_eq_ok,
      runFrom_pure_eq_ok] at lowered
    simp only [Node.lowerTarget, runFrom_bind_eq_ok, runFrom_resolveComponent_eq_ok,
      runFrom_pure_eq_ok] at found
    obtain ⟨_, _, ⟨-, rfl⟩, is, _, outer, js, _, inner, same, -⟩ := found
    obtain ⟨_, _, ⟨-, rfl⟩, is', _, outer', js', _, inner', same', -⟩ := lowered
    cases outer.symm.trans outer'
    cases inner.symm.trans inner'
    cases same
    cases same'
    rfl
  all_goals cases reference

/-- A target that is read after its cell was found introduces nothing, and it is read from that cell
if the names in it stand for the same by then. -/
theorem Node.reread_of_lowerTarget (reference : n.isReference = true)
    (found : runFrom ctx (n.lowerTarget span) = (.ok (some cell), ctx₁))
    (read : runFrom ctx₂ n.lowerValue = (.ok back, ctx'))
    (kept : ctx₁.scope.current.keys ⊆ ctx₂.scope.current.keys) :
    ctx₁ = ctx ∧ ctx' = ctx₂ ∧ (∃ cell', back = .get cell') ∧
      (ctx.Agrees n ctx₂ → back = .get cell) := by
  have target := Node.repeats_of_lowerTarget n .self found
  have value := Node.repeats_of_expr n .self (runFrom_valueOf_eq_ok.1 read)
  have none := target.declares.eq_nil_of_again value.declares kept
  refine ⟨target.declares.same none, value.declares.same none,
    Node.exists_get_of_isReference reference read, fun agrees => ?_⟩
  exact Node.get_of_lowerTarget reference (target.again none agrees) read

end

end ArithCircuit
