import ArithCircuit.Proofs.Runs

set_option autoImplicit false
set_option relaxedAutoImplicit false

/-!
# How statements are lowered

`Node.Lowers` tells the parts that the lowering of a statement is made of, one rule for each form of
statement: it holds exactly of the successful runs. What a whole lowering does is shown by induction
on it; nodes that have no statements inside them are taken as they are.
-/

namespace ArithCircuit

open Lowering

/-- The context in which the body of a definition starts: a level of its own with the parameters. -/
def Context.enter (ctx : Context) (params : List String) (span : Span) : Context :=
  (runFrom { ctx with scope := ctx.scope.push }
    (params.forM fun param => Lowering.declare param .var span)).2

/-- The context after the body of a definition: its level is closed. -/
def Context.leave (ctx : Context) : Context := { ctx with scope := ctx.scope.pop }

/-- Whether a node has no statements inside it. -/
def Node.isSimple : Node → Bool
  | .number _ _ | .var _ _ _ | .pin _ _ _ _ _ | .op _ _ _ | .declare _ _ _ | .call _ _ _
  | .ret _ _ | .array _ _ => true
  | _ => false

/-- The successful lowerings of statements. The statements of a block are taken one after the other.
-/
inductive Node.Lowers : Context → Node → Fragment → Context → Prop where
  | simple {ctx ctx' : Context} {n : Node} {fragment : Fragment} :
      n.isSimple = true → runFrom ctx n.lower = (.ok fragment, ctx') → Lowers ctx n fragment ctx'
  | blockNil {ctx : Context} {span : Span} : Lowers ctx (.block span []) (.stmt (.block [])) ctx
  | blockCons {ctx ctx₁ ctx' : Context} {span : Span} {n : Node} {ns : List Node}
      {fragment : Fragment} {ss : List Stmt} :
      Lowers ctx n fragment ctx₁ → Lowers ctx₁ (.block span ns) (.stmt (.block ss)) ctx' →
      Lowers ctx (.block span (n :: ns)) (.stmt (.block (fragment.statement?.toList ++ ss))) ctx'
  | forLoop {ctx ctx₁ ctx₂ ctx₃ ctx' : Context} {span : Span} {init condition step body : Node}
      {f₁ f₂ f₃ : Fragment} {c : Expr} :
      Lowers ctx init f₁ ctx₁ → runFrom ctx₁ condition.lower = (.ok (.expr c), ctx₂) →
      Lowers ctx₂ step f₂ ctx₃ → Lowers ctx₃ body f₃ ctx' →
      Lowers ctx (.forLoop span init condition step body)
        (.stmt (.forLoop f₁.statement? c f₂.statement? (f₃.statement?.getD (.block [])))) ctx'
  | whileLoop {ctx ctx₁ ctx' : Context} {span : Span} {condition body : Node} {f : Fragment}
      {c : Expr} :
      runFrom ctx condition.lower = (.ok (.expr c), ctx₁) → Lowers ctx₁ body f ctx' →
      Lowers ctx (.whileLoop span condition body)
        (.stmt (.whileLoop c (f.statement?.getD (.block [])))) ctx'
  | template {ctx ctx₁ ctx' : Context} {span : Span} {name : String} {params : List String}
      {body : Node} {ss : List Stmt} :
      runFrom { ctx with scope := ctx.scope.push }
        (params.forM fun param => Lowering.declare param .var span) =
          (.ok (), ctx.enter params span) →
      Lowers (ctx.enter params span) body (.stmt (.block ss)) ctx₁ →
      runFrom ctx (Node.lowerBody params span body) = (.ok ss, ctx₁.leave) →
      runFrom ctx₁.leave (registerTemplate name ⟨params, ss, span⟩) = (.ok (), ctx') →
      Lowers ctx (.template span name params body) .nothing ctx'
  | function {ctx ctx₁ ctx' : Context} {span : Span} {name : String} {params : List String}
      {body : Node} {ss : List Stmt} :
      runFrom { ctx with scope := ctx.scope.push }
        (params.forM fun param => Lowering.declare param .var span) =
          (.ok (), ctx.enter params span) →
      Lowers (ctx.enter params span) body (.stmt (.block ss)) ctx₁ →
      runFrom ctx (Node.lowerBody params span body) = (.ok ss, ctx₁.leave) →
      runFrom ctx₁.leave (registerFunction name ⟨params, ss, span⟩) = (.ok (), ctx') →
      Lowers ctx (.function span name params body) .nothing ctx'
  | inclusionNone {ctx : Context} {span : Span} {file : Option String} :
      Lowers ctx (.inclusion span file none) .nothing ctx
  | inclusionSome {ctx ctx' : Context} {span : Span} {file : Option String} {n : Node}
      {fragment : Fragment} :
      Lowers ctx n fragment ctx' → Lowers ctx (.inclusion span file (some n)) fragment ctx'

theorem Node.runFrom_lower_block_eq_ok {ctx ctx' : Context} {span : Span} {ns : List Node}
    {fragment : Fragment} :
    runFrom ctx (Node.block span ns).lower = (.ok fragment, ctx') ↔
      ∃ ss, runFrom ctx (Node.lowerStatements ns) = (.ok ss, ctx') ∧
        fragment = .stmt (.block ss) := by
  simp only [Node.lower, runFrom_bind_eq_ok, runFrom_pure_eq_ok]
  constructor
  · rintro ⟨ss, _, lowered, rfl, rfl⟩
    exact ⟨ss, lowered, rfl⟩
  · rintro ⟨ss, lowered, rfl⟩
    exact ⟨ss, ctx', lowered, rfl, rfl⟩

/-- The body of a definition is lowered as a block between entering and leaving its level. -/
theorem Node.runFrom_lowerBody_enter {ctx ctx' : Context} {params : List String} {span : Span}
    {body : Node} {ss : List Stmt} :
    runFrom ctx (Node.lowerBody params span body) = (.ok ss, ctx') ↔
      ∃ ctx₁, runFrom { ctx with scope := ctx.scope.push }
          (params.forM fun param => Lowering.declare param .var span) =
            (.ok (), ctx.enter params span) ∧
        runFrom (ctx.enter params span) body.lower = (.ok (.stmt (.block ss)), ctx₁) ∧
        (∃ at' statements, body = .block at' statements) ∧ ctx' = ctx₁.leave := by
  rw [runFrom_lowerBody_eq_ok]
  constructor
  · rintro ⟨at', statements, ctx₁, ctx₂, rfl, declared, lowered, rfl⟩
    have entered : ctx.enter params span = ctx₁ := by rw [Context.enter, declared]
    rw [entered]
    exact ⟨ctx₂, declared, runFrom_lower_block_eq_ok.2 ⟨ss, lowered, rfl⟩, ⟨_, _, rfl⟩, rfl⟩
  · rintro ⟨ctx₁, declared, lowered, ⟨at', statements, rfl⟩, rfl⟩
    obtain ⟨ss', lowered, same⟩ := runFrom_lower_block_eq_ok.1 lowered
    cases same
    exact ⟨at', statements, _, ctx₁, rfl, declared, lowered, rfl⟩

mutual

/-- A successful run follows the rules. -/
theorem Node.lowers_of_runFrom {ctx ctx' : Context} {fragment : Fragment} :
    (n : Node) → runFrom ctx n.lower = (.ok fragment, ctx') → n.Lowers ctx fragment ctx'
  | .block span ns, ran => by
    obtain ⟨ss, lowered, rfl⟩ := Node.runFrom_lower_block_eq_ok.1 ran
    exact Node.lowers_of_lowerStatements ns span lowered
  | .forLoop span init condition step body, ran => by
    simp only [Node.lower, runFrom_bind_eq_ok, runFrom_valueOf_eq_ok, runFrom_pure_eq_ok] at ran
    obtain ⟨f₁, ctx₁, first, c, ctx₂, tested, f₂, ctx₃, second, f₃, _, third, rfl, rfl⟩ := ran
    exact .forLoop (Node.lowers_of_runFrom init first) tested (Node.lowers_of_runFrom step second)
      (Node.lowers_of_runFrom body third)
  | .whileLoop span condition body, ran => by
    simp only [Node.lower, runFrom_bind_eq_ok, runFrom_valueOf_eq_ok, runFrom_pure_eq_ok] at ran
    obtain ⟨c, ctx₁, tested, f, _, second, rfl, rfl⟩ := ran
    exact .whileLoop tested (Node.lowers_of_runFrom body second)
  | .template span name params body, ran => by
    obtain ⟨ss, _, lowered, registered, rfl⟩ := runFrom_lower_template_eq_ok.1 ran
    obtain ⟨ctx₁, declared, inner, -, rfl⟩ := Node.runFrom_lowerBody_enter.1 lowered
    exact .template declared (Node.lowers_of_runFrom body inner) lowered registered
  | .function span name params body, ran => by
    obtain ⟨ss, _, lowered, registered, rfl⟩ := runFrom_lower_function_eq_ok.1 ran
    obtain ⟨ctx₁, declared, inner, -, rfl⟩ := Node.runFrom_lowerBody_enter.1 lowered
    exact .function declared (Node.lowers_of_runFrom body inner) lowered registered
  | .inclusion span file none, ran => by
    rw [Node.lower, Node.lowerOption] at ran
    obtain ⟨rfl, rfl⟩ := runFrom_pure_eq_ok.1 ran
    exact .inclusionNone
  | .inclusion span file (some n), ran => by
    rw [Node.lower, Node.lowerOption] at ran
    exact .inclusionSome (Node.lowers_of_runFrom n ran)
  | .number .., ran | .var .., ran | .pin .., ran | .op .., ran | .declare .., ran | .call .., ran
  | .ret .., ran | .array .., ran => .simple rfl ran

theorem Node.lowers_of_lowerStatements {ctx ctx' : Context} {ss : List Stmt} :
    (ns : List Node) → (span : Span) → runFrom ctx (Node.lowerStatements ns) = (.ok ss, ctx') →
      (Node.block span ns).Lowers ctx (.stmt (.block ss)) ctx'
  | [], span, ran => by
    rw [Node.lowerStatements] at ran
    obtain ⟨rfl, rfl⟩ := runFrom_pure_eq_ok.1 ran
    exact .blockNil
  | n :: ns, span, ran => by
    simp only [Node.lowerStatements, runFrom_bind_eq_ok, runFrom_pure_eq_ok] at ran
    obtain ⟨fragment, ctx₁, first, rest, _, last, rfl, rfl⟩ := ran
    exact .blockCons (Node.lowers_of_runFrom n first) (Node.lowers_of_lowerStatements ns span last)

end

/-- The successful lowerings of nodes that have no statements inside them. -/
inductive Node.LowersSimply (ctx : Context) : Node → Fragment → Context → Prop where
  | operation {ctx' : Context} {span : Span} {symbol : String} {op : Operator}
      {operands : List Node} {fragment : Fragment} :
      Operator.ofSymbol? symbol = some op →
      Operand.Operates span ctx op (Node.operands operands) fragment ctx' →
      LowersSimply ctx (.op span symbol operands) fragment ctx'
  | declaration {ctx' : Context} {span : Span} {tag declared : String} {name : Node} :
      runFrom ctx (declareNode tag name span) = (.ok declared, ctx') →
      LowersSimply ctx (.declare span tag name) .nothing ctx'
  | ret {ctx' : Context} {span : Span} {value : Node} {e : Expr} :
      runFrom ctx value.lower = (.ok (.expr e), ctx') →
      LowersSimply ctx (.ret span value) (.stmt (.ret e)) ctx'
  | value {ctx' : Context} {n : Node} {e : Expr} :
      runFrom ctx n.lower = (.ok (.expr e), ctx') → LowersSimply ctx n (.expr e) ctx'

theorem Node.lowersSimply_of_runFrom {ctx ctx' : Context} {n : Node} {fragment : Fragment}
    (simple : n.isSimple = true) (ran : runFrom ctx n.lower = (.ok fragment, ctx')) :
    n.LowersSimply ctx fragment ctx' := by
  cases n
  case op span symbol operands =>
    rw [Node.lower] at ran
    split at ran
    · next op known => exact .operation known (Operand.operates_of_runFrom ran)
    · exact absurd ran runFrom_throw_ne_ok
  case declare span tag name =>
    simp only [Node.lower, runFrom_bind_eq_ok, runFrom_pure_eq_ok] at ran
    obtain ⟨_, _, declared, rfl, rfl⟩ := ran
    exact .declaration declared
  case ret span value =>
    simp only [Node.lower, runFrom_bind_eq_ok, runFrom_valueOf_eq_ok, runFrom_pure_eq_ok] at ran
    obtain ⟨e, _, lowered, rfl, rfl⟩ := ran
    exact .ret lowered
  case number | var | pin | call | array =>
    obtain ⟨e, rfl⟩ : ∃ e, fragment = .expr e := by
      simp only [Node.lower, runFrom_bind_eq_ok, runFrom_pure_eq_ok] at ran
      grind
    exact .value ran
  all_goals cases simple

theorem Operand.Operates.ne_stmt {span : Span} {ctx ctx' : Context} {op : Operator}
    {operands : List Operand} {fragment : Fragment}
    (h : Operand.Operates span ctx op operands fragment ctx') (s : Stmt) : fragment ≠ .stmt s := by
  cases h <;> simp

/-- A node without statements inside it yields no code, a value or, as a return, a statement. -/
theorem Node.fragment_of_isSimple {n : Node} {ctx ctx' : Context} {fragment : Fragment}
    (simple : n.isSimple = true) (ran : runFrom ctx n.lower = (.ok fragment, ctx')) :
    fragment = .nothing ∨ (∃ e, fragment = .expr e) ∨
      ∃ span value e, n = .ret span value ∧ fragment = .stmt (.ret e) ∧
        runFrom ctx value.lower = (.ok (.expr e), ctx') := by
  cases Node.lowersSimply_of_runFrom simple ran with
  | operation _ operates =>
    cases fragment with
    | nothing => exact .inl rfl
    | expr e => exact .inr (.inl ⟨e, rfl⟩)
    | stmt s => exact absurd rfl (operates.ne_stmt s)
  | declaration => exact .inl rfl
  | ret lowered => exact .inr (.inr ⟨_, _, _, rfl, rfl, lowered⟩)
  | value => exact .inr (.inl ⟨_, rfl⟩)

/-- The rules hold of successful runs only. -/
theorem Node.Lowers.runFrom_eq_ok {n : Node} {ctx ctx' : Context} {fragment : Fragment}
    (lowers : n.Lowers ctx fragment ctx') : runFrom ctx n.lower = (.ok fragment, ctx') := by
  induction lowers with
  | simple _ ran => exact ran
  | blockNil => exact Node.runFrom_lower_block_eq_ok.2 ⟨[], by rw [Node.lowerStatements]; rfl, rfl⟩
  | blockCons _ _ ihFirst ihRest =>
    obtain ⟨ss, lowered, same⟩ := Node.runFrom_lower_block_eq_ok.1 ihRest
    cases same
    refine Node.runFrom_lower_block_eq_ok.2 ⟨_, ?_, rfl⟩
    simp only [Node.lowerStatements, runFrom_bind_eq_ok, runFrom_pure_eq_ok]
    exact ⟨_, _, ihFirst, _, _, lowered, rfl, rfl⟩
  | forLoop _ tested _ _ ihInit ihStep ihBody =>
    simp only [Node.lower, runFrom_bind_eq_ok, runFrom_valueOf_eq_ok, runFrom_pure_eq_ok]
    exact ⟨_, _, ihInit, _, _, tested, _, _, ihStep, _, _, ihBody, rfl, rfl⟩
  | whileLoop tested _ ihBody =>
    simp only [Node.lower, runFrom_bind_eq_ok, runFrom_valueOf_eq_ok, runFrom_pure_eq_ok]
    exact ⟨_, _, tested, _, _, ihBody, rfl, rfl⟩
  | template _ _ lowered registered _ =>
    exact runFrom_lower_template_eq_ok.2 ⟨_, _, lowered, registered, rfl⟩
  | function _ _ lowered registered _ =>
    exact runFrom_lower_function_eq_ok.2 ⟨_, _, lowered, registered, rfl⟩
  | inclusionNone =>
    rw [Node.lower, Node.lowerOption]
    rfl
  | inclusionSome _ ih =>
    rw [Node.lower, Node.lowerOption]
    exact ih

/-- The rules hold exactly of the successful runs. -/
theorem Node.lowers_iff {n : Node} {ctx ctx' : Context} {fragment : Fragment} :
    n.Lowers ctx fragment ctx' ↔ runFrom ctx n.lower = (.ok fragment, ctx') :=
  ⟨Node.Lowers.runFrom_eq_ok, Node.lowers_of_runFrom n⟩

end ArithCircuit
