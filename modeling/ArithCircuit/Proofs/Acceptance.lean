import ArithCircuit.Proofs.Events
import ArithCircuit.Proofs.Headings

set_option autoImplicit false
set_option relaxedAutoImplicit false

/-!
# What a unit that compiles has been checked for

Lowering comes to every node of a unit but two kinds: the selectors of a name that is declared, and
the value of an assignment whose target is a component. `Node.sites` lists the nodes that it comes to.
If the unit compiles, each of them is well formed, and no level has a name twice. Main statement:
`Node.checked_of_compile`.
-/

namespace ArithCircuit

open Lowering

/-! ### The nodes that lowering comes to -/

/-- Whether an assignment to a node has a component as its target: the node declares one, or its name
stands for one when its selectors are lowered. -/
def Node.isComponent (ctx : Context) : Node → Bool
  | .declare _ tag _ => DeclarationKind.ofTag? tag = some .component
  | .var _ name selectors =>
    ((Node.afterValues ctx selectors).scope.lookup? name).any fun symbol => symbol.kind = .component
  | _ => false

/-- Whether an operator does not look at its value if its target is a component. -/
def Operator.skips : Operator → Bool
  | .assign | .signalAssign | .addAssign | .mulAssign => true
  | _ => false

mutual

/-- The nodes that lowering a node comes to, in order, each with the context that it is lowered from
and as often as it is lowered; those of definitions inside it only if `deep`. -/
def Node.sites (deep : Bool) (ctx : Context) : Node → List Site
  | .number span value => [⟨ctx, .number span value⟩]
  | .var span name selectors =>
    ⟨ctx, .var span name selectors⟩ :: Node.sitesAll deep ctx selectors
  | .pin span component componentSelectors name selectors =>
    ⟨ctx, .pin span component componentSelectors name selectors⟩ ::
      (Node.sitesAll deep ctx componentSelectors ++
        Node.sitesAll deep (Node.afterValues ctx componentSelectors) selectors)
  | .op span symbol operands =>
    ⟨ctx, .op span symbol operands⟩ ::
      match Operator.ofSymbol? symbol with
      | some operator =>
        if operator.stores then Node.storeSites deep ctx span operator operands
        else Node.sitesAll deep ctx operands
      | none => Node.sitesAll deep ctx operands
  | .declare span tag name => [⟨ctx, .declare span tag name⟩, ⟨ctx, name⟩]
  | .call span name args => ⟨ctx, .call span name args⟩ :: Node.sitesAll deep ctx args
  | .block span statements => ⟨ctx, .block span statements⟩ :: Node.sitesAll deep ctx statements
  | .forLoop span init condition step body =>
    let tested := init.after ctx
    let stepped := condition.after tested
    ⟨ctx, .forLoop span init condition step body⟩ ::
      (init.sites deep ctx ++ condition.sites deep tested ++ step.sites deep stepped ++
        body.sites deep (step.after stepped))
  | .whileLoop span condition body =>
    ⟨ctx, .whileLoop span condition body⟩ ::
      (condition.sites deep ctx ++ body.sites deep (condition.after ctx))
  | .ret span value => ⟨ctx, .ret span value⟩ :: value.sites deep ctx
  | .template span name params body =>
    (if deep then body.sites deep (ctx.enter params span) else []) ++
      [⟨ctx, .template span name params body⟩]
  | .function span name params body =>
    (if deep then body.sites deep (ctx.enter params span) else []) ++
      [⟨ctx, .function span name params body⟩]
  | .inclusion span file content =>
    ⟨ctx, .inclusion span file content⟩ :: Node.sitesOption deep ctx content
  | .array span items => ⟨ctx, .array span items⟩ :: Node.sitesAll deep ctx items
termination_by structural n => n

/-- The nodes that are come to in nodes that are lowered one after the other. -/
def Node.sitesAll (deep : Bool) (ctx : Context) : List Node → List Site
  | [] => []
  | n :: ns => n.sites deep ctx ++ Node.sitesAll deep (n.after ctx) ns
termination_by structural ns => ns

/-- The nodes that are come to in a node that may be absent. -/
def Node.sitesOption (deep : Bool) (ctx : Context) : Option Node → List Site
  | none => []
  | some n => n.sites deep ctx
termination_by structural content => content

/-- The nodes that are come to in the operands of an operator that stores in the first one: all of
them, unless that one is a component and the operator skips its value. An update reads its target before
the value, and a constrained assignment reads it back in the end. -/
def Node.storeSites (deep : Bool) (ctx : Context) (span : Span) (op : Operator) :
    List Node → List Site
  | [] => []
  | target :: values =>
    let found := target.afterTarget span ctx
    let current := if op.updates then target.after found else found
    let stored := Node.afterValues current values
    target.sites deep ctx ++
      if op.skips && target.isComponent ctx then []
      else
        (if op.updates then target.sites deep found else []) ++
          Node.sitesAll deep current values ++
          (if op = .constrainedAssign then target.backParts (target.sites deep stored) else [])
termination_by structural operands => operands

end

/-! ### Well-formed nodes -/

/-- The name that a node adds to the level that it is lowered in. -/
def Node.localName? : Node → Option String
  | .declare _ _ (.var _ name _) => some name
  | .function _ name _ _ => some name
  | _ => none

/-- The names that some nodes add to the level that they are lowered in, in order. -/
def Site.localNames (sites : List Site) : List String :=
  sites.filterMap fun site => site.node.localName?

theorem Site.localNames_append (sites sites' : List Site) :
    Site.localNames (sites ++ sites') = Site.localNames sites ++ Site.localNames sites' :=
  List.filterMap_append

theorem Site.localNames_cons {site : Site} (nameless : site.node.localName? = none)
    (sites : List Site) : Site.localNames (site :: sites) = Site.localNames sites :=
  List.filterMap_cons_none nameless

/-- An operator has operands that it can do with. -/
structure Operator.Accepts (op : Operator) (ctx : Context) (operands : List Node) : Prop where
  arity : operands.length = op.arity
  /-- `=`, `<--` and `<==` store in a declaration, a variable or a pin. -/
  assignable : op.stores = true → op.updates = false → ∀ target ∈ operands.head?,
    target.kind ∈ [NodeKind.declare, .var, .pin]
  /-- `+=`, `*=` and increments store in a variable or a pin. -/
  updatable : op.updates = true → ∀ target ∈ operands.head?, target.kind ∈ [NodeKind.var, .pin]
  /-- `<==` and increments do not store in a component. -/
  storable : op.stores = true → op.skips = false → ∀ target ∈ operands.head?,
    target.isComponent ctx = false

/-- The body of a definition is a block, and no name is introduced twice in its level, be it as a
parameter, by a declaration or as a function. -/
structure Context.AcceptsBody (ctx : Context) (params : List String) (span : Span) (body : Node) :
    Prop where
  block : body.kind = .block
  distinct : (params ++ Site.localNames (body.sites false (ctx.enter params span))).Nodup

/-- A node is well formed where it is lowered. -/
def Site.Checked : Site → Prop
  | ⟨ctx, .op _ symbol operands⟩ =>
    ∃ op, Operator.ofSymbol? symbol = some op ∧ op.Accepts ctx operands
  | ⟨_, .declare _ tag name⟩ => (DeclarationKind.ofTag? tag).isSome ∧ name.kind = .var
  | ⟨ctx, .template span _ params body⟩ => ctx.AcceptsBody params span body
  | ⟨ctx, .function span _ params body⟩ => ctx.AcceptsBody params span body
  | _ => True

/-- A step from one context to another comes to some nodes, which are all well formed; some of them
lie outside definitions, and above the global level the names that they add are those that the
innermost table gains. -/
structure Context.Checks (ctx : Context) (all direct : List Site) (ctx' : Context) : Prop where
  checked : ∀ site ∈ all, site.Checked
  depth_eq : ctx'.scope.depth = ctx.scope.depth
  keys_eq : 1 < ctx.scope.depth →
    ctx'.scope.current.keys = ctx.scope.current.keys ++ Site.localNames direct

namespace Context.Checks

variable {ctx ctx₁ ctx₂ : Context} {all direct all' direct' : List Site} {site : Site}

theorem refl (ctx : Context) : ctx.Checks [] [] ctx := ⟨nofun, rfl, fun _ => (List.append_nil _).symm⟩

theorem append (first : ctx.Checks all direct ctx₁) (second : ctx₁.Checks all' direct' ctx₂) :
    ctx.Checks (all ++ all') (direct ++ direct') ctx₂ where
  checked site member := (List.mem_append.1 member).elim (first.checked site) (second.checked site)
  depth_eq := second.depth_eq.trans first.depth_eq
  keys_eq inner := by
    have inner₁ : 1 < ctx₁.scope.depth := by rwa [first.depth_eq]
    rw [second.keys_eq inner₁, first.keys_eq inner, Site.localNames_append, List.append_assoc]

theorem cons (checks : ctx.Checks all direct ctx₁) (wellFormed : site.Checked)
    (nameless : site.node.localName? = none) : ctx.Checks (site :: all) (site :: direct) ctx₁ where
  checked := List.forall_mem_cons.2 ⟨wellFormed, checks.checked⟩
  depth_eq := checks.depth_eq
  keys_eq inner := by
    rw [checks.keys_eq inner, Site.localNames_cons nameless]

theorem tail (checks : ctx.Checks (site :: all) (site :: direct) ctx₁)
    (nameless : site.node.localName? = none) : ctx.Checks all direct ctx₁ where
  checked := (List.forall_mem_cons.1 checks.checked).2
  depth_eq := checks.depth_eq
  keys_eq inner := by
    rw [checks.keys_eq inner, Site.localNames_cons nameless]

/-- A declaration adds its name. -/
theorem declares {span : Span} {tag name : String} {node : Node}
    (ran : runFrom ctx (declareNode tag node span) = (.ok name, ctx₁)) :
    ctx.Checks [⟨ctx, .declare span tag node⟩, ⟨ctx, node⟩]
      [⟨ctx, .declare span tag node⟩, ⟨ctx, node⟩] ctx₁ := by
  obtain ⟨kind, at', selectors, known, rfl, declared⟩ := runFrom_declareNode_eq_ok.1 ran
  obtain ⟨scope, added, rfl⟩ := runFrom_declare_eq_ok.1 declared
  have fresh := (Scope.declare_eq_ok_iff.1 added).1
  have wellFormed : Site.Checked ⟨ctx, .declare span tag (.var at' name selectors)⟩ :=
    ⟨by rw [known]; rfl, rfl⟩
  refine ⟨?_, (Scope.Grows.of_declare added).depth_eq, fun _ => ?_⟩
  · exact List.forall_mem_cons.2 ⟨wellFormed, List.forall_mem_singleton.2 trivial⟩
  · show scope.current.keys = _
    rw [Scope.current_of_declare added, OrderedMap.keys_insert_of_fresh fresh]
    rfl

end Context.Checks

/-! ### Operations -/

/-- Both uses of an operand check the nodes that they come to. -/
structure Operand.Checks (operand : Operand) : Prop where
  value : ∀ {ctx ctx' : Context} {e : Expr}, runFrom ctx operand.value = (.ok e, ctx') →
    ctx.Checks (operand.node.sites true ctx) (operand.node.sites false ctx) ctx'
  target : ∀ {ctx ctx' : Context} {span : Span} {found : Option Cell},
    runFrom ctx (operand.target span) = (.ok found, ctx') →
    ctx.Checks (operand.node.sites true ctx) (operand.node.sites false ctx) ctx'

/-- Only declarations, variables and pins can be assigned to, and there is no cell to store in
exactly for components. -/
theorem Node.isComponent_of_lowerTarget {ctx ctx' : Context} {span : Span} {found : Option Cell} :
    (n : Node) → runFrom ctx (n.lowerTarget span) = (.ok found, ctx') →
      n.kind ∈ [NodeKind.declare, .var, .pin] ∧ n.isComponent ctx = found.isNone := by
  intro n ran
  cases n
  case declare at' tag name =>
    refine ⟨.head _, ?_⟩
    simp only [Node.lowerTarget, runFrom_bind_eq_ok, runFrom_resolve_eq_ok,
      runFrom_targetOf_eq_ok] at ran
    obtain ⟨_, ctx₁, declared, symbol, _, ⟨present, rfl⟩, outcome, rfl⟩ := ran
    obtain ⟨kind, _, _, known, -, declared⟩ := runFrom_declareNode_eq_ok.1 declared
    obtain ⟨scope, added, rfl⟩ := runFrom_declare_eq_ok.1 declared
    rw [Scope.lookup?_of_declare added, if_pos rfl] at present
    cases present
    rw [Node.isComponent, known]
    cases kind <;> simp_all [SymbolKind.ofDeclaration, SymbolKind.cell?]
  case pin at' component componentSelectors name selectors =>
    refine ⟨.tail _ (.tail _ (.head _)), ?_⟩
    simp only [Node.lowerTarget, runFrom_bind_eq_ok, runFrom_pure_eq_ok] at ran
    obtain ⟨_, _, -, is, ctx₁, -, es, _, -, rfl, -⟩ := ran
    rfl
  case var at' name selectors =>
    refine ⟨.tail _ (.head _), ?_⟩
    simp only [Node.lowerTarget, runFrom_bind_eq_ok, runFrom_resolve_eq_ok,
      runFrom_targetOf_eq_ok] at ran
    obtain ⟨es, ctx₁, lowered, symbol, _, ⟨present, rfl⟩, outcome, rfl⟩ := ran
    rw [Node.isComponent, Node.afterValues_eq lowered, present]
    obtain ⟨component, rfl⟩ | ⟨cell, stands, rfl⟩ := outcome
    · simp [component]
    · have other : symbol.kind ≠ .component := by
        rintro component
        rw [component] at stands
        cases stands
      simp [other]
  all_goals
    rw [Node.lowerTarget] at ran
    · exact absurd ran runFrom_throw_ne_ok
    all_goals simp

theorem Node.kind_of_isReference {n : Node} (reference : n.isReference = true) :
    n.kind ∈ [NodeKind.var, .pin] := by
  cases n
  case var => exact .head _
  case pin => exact .tail _ (.head _)
  all_goals cases reference

theorem Operator.arity_of_update? {op : Operator} {combine : Expr → Expr → Expr}
    (updates : op.update? = some combine) : 2 = op.arity := by
  cases op <;> cases updates <;> rfl

theorem Operator.length_of_combine? {op : Operator} {es : List Expr} {e : Expr}
    (combined : op.combine? es = some e) : es.length = op.arity := by
  unfold Operator.combine? at combined
  split at combined
  case h_1 | h_2 => rfl
  case h_3 =>
    obtain ⟨combine, binary, -⟩ := Option.map_eq_some_iff.1 combined
    cases op <;> cases binary <;> rfl
  case h_4 => cases combined

section

variable {ctx ctx₁ ctx₂ ctx' : Context} {span : Span} {op : Operator}

theorem Operand.checks_values {ns : List Node} {es : List Expr}
    (checks : ∀ operand ∈ Node.operands ns, operand.Checks)
    (ran : runFrom ctx (Operand.values (Node.operands ns)) = (.ok es, ctx')) :
    ctx.Checks (Node.sitesAll true ctx ns) (Node.sitesAll false ctx ns) ctx' ∧
      es.length = ns.length := by
  induction ns generalizing ctx es with
  | nil =>
    obtain ⟨rfl, rfl⟩ := runFrom_pure_eq_ok.1 ran
    rw [Node.sitesAll, Node.sitesAll]
    exact ⟨.refl _, rfl⟩
  | cons n ns ih =>
    rw [Node.operands] at ran checks
    obtain ⟨e, ctx₁, es', first, last, rfl⟩ := Operand.runFrom_values_cons_eq_ok.1 ran
    obtain ⟨rest, same⟩ := ih (fun operand member => checks operand (.tail _ member)) last
    rw [Node.sitesAll, Node.sitesAll, Node.after_of_expr (runFrom_valueOf_eq_ok.1 first)]
    exact ⟨((checks _ (.head _)).value first).append rest, by simp [same]⟩

theorem Node.sitesAll_singleton (deep : Bool) (n : Node) :
    Node.sitesAll deep ctx [n] = n.sites deep ctx := by
  rw [Node.sitesAll, Node.sitesAll, List.append_nil]

/-- Reading a target back comes to the nodes that follow a store. -/
theorem Operand.Checks.readBack {target : Node} (checks : target.operand.Checks) {back : Expr}
    (ran : runFrom ctx (Operand.readBack target.operand) = (.ok back, ctx')) :
    ctx.Checks (target.backParts (target.sites true ctx))
      (target.backParts (target.sites false ctx)) ctx' := by
  unfold Operand.readBack at ran
  split at ran
  · next at' tag span name dimensions declaration =>
    simp only [readName, runFrom_bind_eq_ok, runFrom_resolve_eq_ok, runFrom_map_eq_ok,
      runFrom_cellOf_eq_ok] at ran
    obtain ⟨symbol, _, ⟨-, rfl⟩, cell, ⟨-, rfl⟩, -⟩ := ran
    have node : target = .declare at' tag (.var span name dimensions) := declaration
    rw [node, Node.backParts, Node.backParts]
    exact .refl _
  · have read := checks.value ran
    cases target
    case declare at' tag name =>
      have lowered := runFrom_valueOf_eq_ok.1 ran
      simp only [Node.lower, runFrom_bind_eq_ok, runFrom_pure_eq_ok] at lowered
      obtain ⟨_, _, -, same, -⟩ := lowered
      cases same
    all_goals exact read

/-- A store that is not void comes to all operands. -/
theorem Node.storeSites_of_found {deep : Bool} {target : Node} {values : List Node} {cell : Cell}
    (found : runFrom ctx (target.lowerTarget span) = (.ok (some cell), ctx₁)) :
    Node.storeSites deep ctx span op (target :: values) =
      let current := if op.updates then target.after ctx₁ else ctx₁
      let stored := Node.afterValues current values
      target.sites deep ctx ++
        ((if op.updates then target.sites deep ctx₁ else []) ++
          Node.sitesAll deep current values ++
          (if op = .constrainedAssign then target.backParts (target.sites deep stored) else [])) := by
  have cell := (Node.isComponent_of_lowerTarget target found).2
  simp [Node.storeSites, Node.afterTarget, found, cell]

theorem Node.storeSites_of_component {deep : Bool} {target : Node} {values : List Node}
    (found : runFrom ctx (target.lowerTarget span) = (.ok none, ctx₁)) (skips : op.skips = true) :
    Node.storeSites deep ctx span op (target :: values) = target.sites deep ctx := by
  have component := (Node.isComponent_of_lowerTarget target found).2
  simp [Node.storeSites, skips, component]

/-- What is known of the operands once the target is found. -/
theorem Operator.accepts_of_target {target : Node} {values : List Node} {found : Option Cell}
    (ran : runFrom ctx (target.lowerTarget span) = (.ok found, ctx₁))
    (arity : (target :: values).length = op.arity)
    (updates : op.updates = true → target.isReference = true)
    (stores : op.skips = false → found.isSome = true) : op.Accepts ctx (target :: values) := by
  obtain ⟨assignable, component⟩ := Node.isComponent_of_lowerTarget target ran
  have head : ∀ {P : Node → Prop}, P target → ∀ n ∈ (target :: values).head?, P n := by
    intro P holds n member
    cases member
    exact holds
  refine ⟨arity, fun _ _ => head assignable, ?_, ?_⟩
  · exact fun update => head (Node.kind_of_isReference (updates update))
  · intro _ skipped
    apply head
    rw [component, Option.isNone_eq_false_iff]
    exact stores skipped

/-- An operator that does not store only needs its operands. -/
theorem Operator.accepts_of_not_stores {ns : List Node} (arity : ns.length = op.arity)
    (plain : op.stores = false) : op.Accepts ctx ns where
  arity := arity
  assignable stores := by
    rw [plain] at stores
    cases stores
  updatable updates := by cases op <;> cases plain <;> cases updates
  storable stores := by
    rw [plain] at stores
    cases stores

/-- An operation checks the nodes that it comes to if its operands do. -/
theorem Operand.Operates.checks {ns : List Node} {symbol : String} {fragment : Fragment}
    (operates : Operand.Operates span ctx op (Node.operands ns) fragment ctx')
    (known : Operator.ofSymbol? symbol = some op)
    (checks : ∀ operand ∈ Node.operands ns, operand.Checks) :
    ctx.Checks ((Node.op span symbol ns).sites true ctx) ((Node.op span symbol ns).sites false ctx)
      ctx' := by
  rw [Node.sites, Node.sites, known]
  have accepted (accepts : op.Accepts ctx ns) : Site.Checked ⟨ctx, .op span symbol ns⟩ :=
    ⟨op, known, accepts⟩
  generalize same : Node.operands ns = operands at operates checks
  cases operates with
  | store plain found lowered =>
    obtain ⟨m, n, rfl, rfl, rfl⟩ := Node.eq_of_operands same
    have asTarget := (checks _ (.head _)).target found
    have asValue := (checks _ (.tail _ (.head _))).value lowered
    have accepts : op.Accepts ctx [m, n] := by
      rcases plain with rfl | rfl
      all_goals exact Operator.accepts_of_target found rfl nofun fun _ => rfl
    have stores := Operator.stores_of_plain plain
    apply Context.Checks.cons _ (accepted accepts) rfl
    simp only [stores, if_true, Node.storeSites_of_found found, Node.sitesAll_singleton,
      Bool.false_eq_true, if_false, List.nil_append, List.append_nil]
    exact asTarget.append asValue
  | storeComponent plain found =>
    obtain ⟨m, n, rfl, rfl, rfl⟩ := Node.eq_of_operands same
    have asTarget := (checks _ (.head _)).target found
    have accepts : op.Accepts ctx [m, n] := by
      rcases plain with rfl | rfl
      all_goals exact Operator.accepts_of_target found rfl nofun nofun
    have stores : op.stores = true ∧ op.skips = true := by
      rcases plain with rfl | rfl <;> exact ⟨rfl, rfl⟩
    apply Context.Checks.cons _ (accepted accepts) rfl
    simp only [stores, if_true, Node.storeSites_of_component found stores.2]
    exact asTarget
  | update updates reference found first second =>
    obtain ⟨m, n, rfl, rfl, rfl⟩ := Node.eq_of_operands same
    have asTarget := (checks _ (.head _)).target found
    have read := (checks _ (.head _)).value first
    have asValue := (checks _ (.tail _ (.head _))).value second
    have stores := Operator.updates_of_update? updates
    have arity : [m, n].length = op.arity := Operator.arity_of_update? updates
    have accepts : op.Accepts ctx [m, n] :=
      Operator.accepts_of_target found arity (fun _ => reference) fun _ => rfl
    apply Context.Checks.cons _ (accepted accepts) rfl
    simp only [stores, if_true, Node.storeSites_of_found found, Node.sitesAll_singleton,
      Node.after_of_expr (runFrom_valueOf_eq_ok.1 first), if_false, List.append_nil]
    exact asTarget.append (read.append asValue)
  | updateComponent updates reference found =>
    obtain ⟨m, n, rfl, rfl, rfl⟩ := Node.eq_of_operands same
    have asTarget := (checks _ (.head _)).target found
    have skips : op.skips = true := by cases op <;> cases updates <;> rfl
    have arity : [m, n].length = op.arity := Operator.arity_of_update? updates
    have accepts : op.Accepts ctx [m, n] := by
      apply Operator.accepts_of_target found arity fun _ => reference
      intro other
      rw [skips] at other
      cases other
    apply Context.Checks.cons _ (accepted accepts) rfl
    simp only [Operator.updates_of_update? updates, if_true,
      Node.storeSites_of_component found skips]
    exact asTarget
  | @increment post _ cell current _ _ reference found read =>
    obtain ⟨m, rfl, rfl⟩ := Node.eq_of_operands_singleton same
    have asTarget := (checks _ (.head _)).target found
    have asValue := (checks _ (.head _)).value read
    have stores := Operator.stores_of_increment post
    have accepts : (if post then Operator.postIncrement else .preIncrement).Accepts ctx [m] := by
      apply Operator.accepts_of_target found _ (fun _ => reference) fun _ => rfl
      cases post <;> rfl
    apply Context.Checks.cons _ (accepted accepts) rfl
    simp only [stores, if_true, Node.storeSites_of_found found, Node.sitesAll, if_false,
      List.append_nil]
    exact asTarget.append asValue
  | constrainedStore found lowered read =>
    obtain ⟨m, n, rfl, rfl, rfl⟩ := Node.eq_of_operands same
    have asTarget := (checks _ (.head _)).target found
    have asValue := (checks _ (.tail _ (.head _))).value lowered
    have back := (checks _ (.head _)).readBack read
    have stored := Node.afterValues_singleton (runFrom_valueOf_eq_ok.1 lowered)
    have stores : Operator.constrainedAssign.stores = true ∧
        Operator.constrainedAssign.updates = false := ⟨rfl, rfl⟩
    have accepts : Operator.constrainedAssign.Accepts ctx [m, n] :=
      Operator.accepts_of_target found rfl nofun fun _ => rfl
    apply Context.Checks.cons _ (accepted accepts) rfl
    simp only [stores, if_true, Node.storeSites_of_found found, Node.sitesAll_singleton,
      Bool.false_eq_true, if_false, List.nil_append, stored]
    exact asTarget.append (asValue.append back)
  | constrain first second =>
    obtain ⟨m, n, rfl, rfl, rfl⟩ := Node.eq_of_operands same
    have left := (checks _ (.head _)).value first
    have right := (checks _ (.tail _ (.head _))).value second
    have plain : Operator.constrain.stores = false := rfl
    apply Context.Checks.cons _ (accepted (Operator.accepts_of_not_stores rfl plain)) rfl
    simp only [plain, Bool.false_eq_true, if_false, Node.sitesAll, List.append_nil,
      Node.after_of_expr (runFrom_valueOf_eq_ok.1 first)]
    exact left.append right
  | arithmetic lowered combined =>
    subst same
    obtain ⟨values, same⟩ := Operand.checks_values checks lowered
    have plain := Operator.stores_of_isArithmetic (Operator.isArithmetic_of_combine? combined)
    have arity : ns.length = op.arity := same.symm.trans (Operator.length_of_combine? combined)
    apply Context.Checks.cons _ (accepted (Operator.accepts_of_not_stores arity plain)) rfl
    simp only [plain, Bool.false_eq_true, if_false]
    exact values

end

/-! ### Values and targets -/

mutual

/-- A value checks the nodes that it comes to. -/
theorem Node.checks_of_expr {ctx ctx' : Context} {e : Expr} :
    (n : Node) → runFrom ctx n.lower = (.ok (.expr e), ctx') →
      ctx.Checks (n.sites true ctx) (n.sites false ctx) ctx'
  | .number _ _, ran => by
    rw [Node.lower] at ran
    obtain ⟨-, rfl⟩ := runFrom_pure_eq_ok.1 ran
    rw [Node.sites, Node.sites]
    exact (Context.Checks.refl _).cons trivial rfl
  | .var span name selectors, ran => by
    simp only [Node.lower, runFrom_bind_eq_ok, runFrom_resolve_eq_ok, runFrom_cellOf_eq_ok,
      runFrom_pure_eq_ok] at ran
    obtain ⟨symbol, _, ⟨-, rfl⟩, es, ctx₁, lowered, cell, _, ⟨-, rfl⟩, -, rfl⟩ := ran
    rw [Node.sites, Node.sites]
    exact (Node.checks_of_lowerValues selectors lowered).cons trivial rfl
  | .pin span component componentSelectors name selectors, ran => by
    simp only [Node.lower, runFrom_bind_eq_ok, runFrom_resolveComponent_eq_ok,
      runFrom_pure_eq_ok] at ran
    obtain ⟨_, _, ⟨-, rfl⟩, is, ctx₁, first, es, _, second, -, rfl⟩ := ran
    rw [Node.sites, Node.sites, Node.afterValues_eq first]
    exact ((Node.checks_of_lowerValues componentSelectors first).append
      (Node.checks_of_lowerValues selectors second)).cons trivial rfl
  | .op span symbol operands, ran => by
    rw [Node.lower] at ran
    split at ran
    · next operator known =>
      exact (Operand.operates_of_runFrom ran).checks known (Node.checks_operands operands)
    · exact absurd ran runFrom_throw_ne_ok
  | .call _ name args, ran => by
    simp only [Node.lower, runFrom_bind_eq_ok, runFrom_pure_eq_ok] at ran
    obtain ⟨es, _, lowered, -, rfl⟩ := ran
    rw [Node.sites, Node.sites]
    exact (Node.checks_of_lowerValues args lowered).cons trivial rfl
  | .array _ items, ran => by
    simp only [Node.lower, runFrom_bind_eq_ok, runFrom_pure_eq_ok] at ran
    obtain ⟨es, _, lowered, -, rfl⟩ := ran
    rw [Node.sites, Node.sites]
    exact (Node.checks_of_lowerValues items lowered).cons trivial rfl
  | .inclusion _ _ (some n), ran => by
    rw [Node.lower, Node.lowerOption] at ran
    rw [Node.sites, Node.sites, Node.sitesOption, Node.sitesOption]
    exact (Node.checks_of_expr n ran).cons trivial rfl
  | .inclusion _ _ none, ran => by
    rw [Node.lower, Node.lowerOption] at ran
    exact absurd (runFrom_pure_eq_ok.1 ran).1 nofun
  | .declare .., ran | .block .., ran | .forLoop .., ran | .whileLoop .., ran | .ret .., ran
  | .template .., ran | .function .., ran => by
    simp only [Node.lower, runFrom_bind_eq_ok, runFrom_pure_eq_ok] at ran
    grind

theorem Node.checks_of_lowerValues {ctx ctx' : Context} {es : List Expr} :
    (ns : List Node) → runFrom ctx (Node.lowerValues ns) = (.ok es, ctx') →
      ctx.Checks (Node.sitesAll true ctx ns) (Node.sitesAll false ctx ns) ctx'
  | [], ran => by
    rw [Node.lowerValues] at ran
    obtain ⟨-, rfl⟩ := runFrom_pure_eq_ok.1 ran
    rw [Node.sitesAll, Node.sitesAll]
    exact .refl _
  | n :: ns, ran => by
    obtain ⟨e, ctx₁, rest, first, last, -⟩ := runFrom_lowerValues_cons_eq_ok.1 ran
    rw [Node.sitesAll, Node.sitesAll, Node.after_of_expr first]
    exact (Node.checks_of_expr n first).append (Node.checks_of_lowerValues ns last)

/-- So does a target. -/
theorem Node.checks_of_lowerTarget {ctx ctx' : Context} {span : Span} {found : Option Cell} :
    (n : Node) → runFrom ctx (n.lowerTarget span) = (.ok found, ctx') →
      ctx.Checks (n.sites true ctx) (n.sites false ctx) ctx'
  | .declare at' tag name, ran => by
    simp only [Node.lowerTarget, runFrom_bind_eq_ok, runFrom_resolve_eq_ok,
      runFrom_targetOf_eq_ok] at ran
    obtain ⟨_, ctx₁, declared, symbol, _, ⟨-, rfl⟩, -, rfl⟩ := ran
    rw [Node.sites, Node.sites]
    exact .declares declared
  | .pin at' component componentSelectors name selectors, ran => by
    simp only [Node.lowerTarget, runFrom_bind_eq_ok, runFrom_resolveComponent_eq_ok,
      runFrom_pure_eq_ok] at ran
    obtain ⟨_, _, ⟨-, rfl⟩, is, ctx₁, first, es, _, second, -, rfl⟩ := ran
    rw [Node.sites, Node.sites, Node.afterValues_eq first]
    exact ((Node.checks_of_lowerValues componentSelectors first).append
      (Node.checks_of_lowerValues selectors second)).cons trivial rfl
  | .var at' name selectors, ran => by
    simp only [Node.lowerTarget, runFrom_bind_eq_ok, runFrom_resolve_eq_ok,
      runFrom_targetOf_eq_ok] at ran
    obtain ⟨es, ctx₁, lowered, symbol, _, ⟨-, rfl⟩, -, rfl⟩ := ran
    rw [Node.sites, Node.sites]
    exact (Node.checks_of_lowerValues selectors lowered).cons trivial rfl
  | .number .., ran | .op .., ran | .call .., ran | .block .., ran | .forLoop .., ran
  | .whileLoop .., ran | .ret .., ran | .template .., ran | .function .., ran
  | .inclusion .., ran | .array .., ran => by
    rw [Node.lowerTarget] at ran
    · exact absurd ran runFrom_throw_ne_ok
    all_goals simp

theorem Node.checks_operands : (ns : List Node) → ∀ operand ∈ Node.operands ns, operand.Checks
  | [] => by simp [Node.operands]
  | n :: ns => by
    intro operand member
    rw [Node.operands, List.mem_cons] at member
    rcases member with rfl | member
    · exact ⟨fun ran => Node.checks_of_expr n (runFrom_valueOf_eq_ok.1 ran),
        fun ran => Node.checks_of_lowerTarget n ran⟩
    · exact Node.checks_operands ns operand member

end

/-! ### Statements and definitions -/

theorem Node.checks_of_isSimple {n : Node} {ctx ctx' : Context} {fragment : Fragment}
    (simple : n.isSimple = true) (ran : runFrom ctx n.lower = (.ok fragment, ctx')) :
    ctx.Checks (n.sites true ctx) (n.sites false ctx) ctx' := by
  cases Node.lowersSimply_of_runFrom simple ran with
  | operation known operates => exact operates.checks known (Node.checks_operands _)
  | declaration declared =>
    rw [Node.sites, Node.sites]
    exact .declares declared
  | ret lowered =>
    rw [Node.sites, Node.sites]
    exact (Node.checks_of_expr _ lowered).cons trivial rfl
  | value lowered => exact Node.checks_of_expr _ lowered

/-- Parameters that are declared are the names of the new level. -/
theorem Lowering.keys_of_params {params : List String} {span : Span} {ctx ctx' : Context}
    (ran : runFrom ctx (params.forM fun param => Lowering.declare param .var span) = (.ok (), ctx')) :
    ctx'.scope.current.keys = ctx.scope.current.keys ++ params := by
  induction params generalizing ctx with
  | nil =>
    obtain ⟨-, rfl⟩ := runFrom_pure_eq_ok.1 ran
    exact (List.append_nil _).symm
  | cons param params ih =>
    rw [List.forM_eq_forM, List.forM_cons] at ran
    simp only [runFrom_bind_eq_ok, runFrom_declare_eq_ok] at ran
    obtain ⟨_, _, ⟨scope, declared, rfl⟩, rest⟩ := ran
    have fresh : ctx.scope.current.get? param = none := (Scope.declare_eq_ok_iff.1 declared).1
    rw [ih rest, Scope.current_of_declare declared, OrderedMap.keys_insert_of_fresh fresh,
      List.append_assoc, List.singleton_append]

namespace Context.Checks

variable {ctx ctx₁ ctx' : Context} {all : List Site} {site : Site} {name : String} {d : Definition}

/-- The body of a definition is checked with the nodes in it. -/
theorem acceptsBody {params : List String} {span : Span} {body : Node} {ss : List Stmt}
    (inner : (ctx.enter params span).Checks all (body.sites false (ctx.enter params span)) ctx₁)
    (declared : runFrom { ctx with scope := ctx.scope.push }
      (params.forM fun param => Lowering.declare param .var span) =
        (.ok (), ctx.enter params span))
    (lowered : runFrom ctx (Node.lowerBody params span body) = (.ok ss, ctx₁.leave)) :
    ctx.AcceptsBody params span body := by
  obtain ⟨at', statements, _, _, rfl, -⟩ := runFrom_lowerBody_eq_ok.1 lowered
  have opened := Context.discipline_grows.params params span { ctx with scope := ctx.scope.push }
  rw [declared] at opened
  have deeper : 1 < (ctx.enter params span).scope.depth := by
    rw [opened.depth_eq, Scope.depth_push, Scope.depth]
    omega
  have entered : (ctx.enter params span).scope.current.keys = params :=
    Lowering.keys_of_params declared
  have names := inner.keys_eq deeper
  rw [entered] at names
  refine ⟨rfl, ?_⟩
  rw [← names]
  exact ctx₁.scope.current.nodup

/-- Closing a level leaves the names of the innermost table as they were before it. -/
theorem leave (grows : ctx.scope.push.Grows ctx₁.scope) (checked : ∀ site ∈ all, site.Checked) :
    ctx.Checks all [] ctx₁.leave where
  checked := checked
  depth_eq := (Scope.Grows.of_level grows).depth_eq
  keys_eq deeper := by
    have outer : ctx₁.leave.scope.inner = ctx.scope.inner := grows.between
    obtain ⟨⟨_ | ⟨t, rest⟩, global⟩, registry, failure⟩ := ctx
    · exact absurd deeper (Nat.lt_irrefl 1)
    · rw [Scope.current, outer]
      exact (List.append_nil _).symm

/-- A template adds its name to the global table only. -/
theorem registerTemplate (registered : runFrom ctx (Lowering.registerTemplate name d) = (.ok (), ctx'))
    (wellFormed : site.Checked) (nameless : site.node.localName? = none) :
    ctx.Checks [site] [site] ctx' := by
  obtain ⟨scope, declared, rfl⟩ := runFrom_registerTemplate_eq_ok.1 registered
  obtain ⟨fresh, rfl⟩ := Scope.declareGlobal_eq_ok_iff.1 declared
  refine ⟨List.forall_mem_singleton.2 wellFormed, rfl, fun deeper => ?_⟩
  rw [Site.localNames_cons nameless]
  obtain ⟨⟨_ | ⟨t, rest⟩, global⟩, registry, failure⟩ := ctx
  · exact absurd deeper (Nat.lt_irrefl 1)
  · exact (List.append_nil _).symm

/-- A function adds its name to the innermost table. -/
theorem registerFunction (registered : runFrom ctx (Lowering.registerFunction name d) = (.ok (), ctx'))
    (wellFormed : site.Checked) (named : site.node.localName? = some name) :
    ctx.Checks [site] [site] ctx' := by
  obtain ⟨-, scope, declared, rfl⟩ := runFrom_registerFunction_eq_ok.1 registered
  have fresh := (Scope.declare_eq_ok_iff.1 declared).1
  refine ⟨List.forall_mem_singleton.2 wellFormed, (Scope.Grows.of_declare declared).depth_eq, ?_⟩
  intro _
  have names : Site.localNames [site] = [name] := List.filterMap_cons_some named
  show scope.current.keys = _
  rw [Scope.current_of_declare declared, OrderedMap.keys_insert_of_fresh fresh, names]

end Context.Checks

/-- A node that is lowered checks the nodes that it comes to. -/
theorem Node.Lowers.checks {n : Node} {ctx ctx' : Context} {fragment : Fragment}
    (lowers : n.Lowers ctx fragment ctx') :
    ctx.Checks (n.sites true ctx) (n.sites false ctx) ctx' := by
  induction lowers with
  | simple simple ran => exact Node.checks_of_isSimple simple ran
  | blockNil =>
    rw [Node.sites, Node.sites, Node.sitesAll, Node.sitesAll]
    exact (Context.Checks.refl _).cons trivial rfl
  | blockCons first _ ihFirst ihRest =>
    rw [Node.sites, Node.sites] at ihRest
    rw [Node.sites, Node.sites, Node.sitesAll, Node.sitesAll, first.after_eq]
    exact (ihFirst.append (ihRest.tail rfl)).cons trivial rfl
  | forLoop first tested second _ ihInit ihStep ihBody =>
    have condition := Node.checks_of_expr _ tested
    rw [Node.sites, Node.sites, first.after_eq, Node.after_of_expr tested, second.after_eq]
    exact (((ihInit.append condition).append ihStep).append ihBody).cons trivial rfl
  | whileLoop tested _ ihBody =>
    have condition := Node.checks_of_expr _ tested
    rw [Node.sites, Node.sites, Node.after_of_expr tested]
    exact (condition.append ihBody).cons trivial rfl
  | template declared inside lowered registered ihBody =>
    have body := Context.Checks.leave (inside.grows_of_body declared) ihBody.checked
    have accepts := ihBody.acceptsBody declared lowered
    rw [Node.sites, Node.sites, if_pos rfl, if_neg Bool.false_ne_true]
    exact body.append (.registerTemplate registered accepts rfl)
  | function declared inside lowered registered ihBody =>
    have body := Context.Checks.leave (inside.grows_of_body declared) ihBody.checked
    have accepts := ihBody.acceptsBody declared lowered
    rw [Node.sites, Node.sites, if_pos rfl, if_neg Bool.false_ne_true]
    exact body.append (.registerFunction registered accepts rfl)
  | inclusionNone =>
    rw [Node.sites, Node.sites, Node.sitesOption, Node.sitesOption]
    exact (Context.Checks.refl _).cons trivial rfl
  | inclusionSome _ ih =>
    rw [Node.sites, Node.sites, Node.sitesOption, Node.sitesOption]
    exact ih.cons trivial rfl

/-- Acceptance means that everything was checked. If a unit compiles, each node that lowering comes to
is well formed: all nodes but the selectors of declared names and the values of `=`, `<--`, `+=` and
`*=` with components as targets. Each operation has a known operator, the operands that it needs and a
target that the operator can store in; each declaration has a known tag and a plain name; and the body
of each definition is a block in whose level no two names are the same. -/
theorem Node.checked_of_compile {root : Node} {field : Field} {circuit : Circuit}
    (compiled : root.compile field = .ok circuit) :
    ∀ site ∈ root.sites true .empty, site.Checked := by
  obtain ⟨fragment, ctx, lowered, -⟩ := Node.runFrom_of_compile compiled
  exact (Node.lowers_of_runFrom root lowered).checks.checked

/-- The body of `template T(n) { signal input x[?]; component c = ?; var k = n; k += 1; x <== k;
function f(y) { return y; } }`, with an unknown operator in each of the places that lowering does not
come to. -/
def Node.bodyWithBlindSpots : Node :=
  let name (x : String) : Node := .var .unknown x []
  let unknown : Node := .op .unknown "?!" []
  let f : Node := .function .unknown "f" ["y"] (.block .unknown [.ret .unknown (name "y")])
  .block .unknown
    [.declare .unknown "SIGNALIN" (.var .unknown "x" [unknown]),
      .op .unknown "=" [.declare .unknown "COMPONENT" (name "c"), unknown],
      .op .unknown "=" [.declare .unknown "VARIABLE" (name "k"), name "n"],
      .op .unknown "+=" [name "k", .number .unknown 1],
      .op .unknown "<==" [name "x", name "k"], f]

theorem Node.checked_of_compile_blindSpots :
    let root : Node := .template .unknown "T" ["n"] Node.bodyWithBlindSpots
    ∃ circuit, root.compile .bn254 = .ok circuit ∧
      (root.sites true .empty).map (fun site => site.node.kind) =
        [.block, .declare, .var, .op, .declare, .var, .op, .declare, .var, .var, .op, .var, .var,
          .number, .op, .var, .var, .var, .block, .ret, .var, .function, .template] ∧
      (∀ site ∈ root.sites true .empty, site.Checked) ∧
      ["n", "x", "c", "k", "f"].Nodup := by
  intro root
  obtain ⟨circuit, compiled⟩ : ∃ circuit, root.compile .bn254 = .ok circuit := ⟨_, rfl⟩
  have checked := Node.checked_of_compile compiled
  have listed : (⟨.empty, root⟩ : Site) ∈ root.sites true .empty := by
    rw [Node.sites]
    exact List.mem_append_right _ (List.mem_singleton_self _)
  have body : Context.empty.AcceptsBody ["n"] .unknown Node.bodyWithBlindSpots := checked _ listed
  exact ⟨circuit, compiled, rfl, checked, body.distinct⟩

end ArithCircuit
