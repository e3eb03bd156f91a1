import ArithCircuit.Proofs.Derivations
import ArithCircuit.Proofs.Simulation

set_option autoImplicit false
set_option relaxedAutoImplicit false

/-!
# Bodies of functions keep their meaning

The code of a body that computes on plain variables simulates the meaning of the body: one step for
each form of statement, and an induction over the body that carries along which names stand for
variables. Main statement: `Node.run_function`, for the code that is registered.
-/

namespace ArithCircuit

open Lowering

/-! ### Values and targets -/

section

variable {machine : Machine} {base : Address → Nat} {known known' : List String}
  {ctx ctx' : Context}

/-- Lowering a plain value leaves the context as it is, and its code yields its value. -/
theorem Node.yields_of_isPlain (large : 1 < machine.field.prime)
    (masked : machine.field.mask < machine.field.prime)
    (baseBelow : CellsBelow base machine.field.prime) (holds : ctx.scope.HasVariables known)
    {n : Node} (plain : n.isPlain machine.field.prime known = true) {e : Expr}
    (lowered : runFrom ctx n.lower = (.ok (.expr e), ctx')) :
    ctx' = ctx ∧ ∀ vars : Variables, vars.Below machine.field.prime →
      ∃ v, v < machine.field.prime ∧ n.value? machine.field vars.environment = some v ∧
        e.Yields machine (.ofNumbers (vars.cells base)) v := by
  have values (vars : Variables) (below : vars.Below machine.field.prime) :=
    Node.yields_of_isArithmetic (Field.closed_lt_prime masked) large (fun _ => Nat.le_of_lt)
      (below.cells baseBelow) n (n.isArithmetic_of_isPlain plain) lowered
  constructor
  · have zeros : Variables.Below (fun _ => 0) machine.field.prime := fun _ => Nat.zero_lt_of_lt large
    exact (values _ zeros).1
  · intro vars below
    obtain ⟨-, _, v, same, small, means, yields⟩ := values vars below
    cases same
    refine ⟨v, small, ?_, yields⟩
    rw [← means]
    exact n.value?_congr (fun name member => (Variables.named_environment holds name member).symm)
      plain

theorem Node.IsPlainTarget.plainTarget?_eq {target : Node} {name : String}
    (plain : target.IsPlainTarget known name known') : target.plainTarget? = some name := by
  cases plain with
  | known => rfl
  | fresh tagged => simp only [Node.plainTarget?, tagged, if_true]

/-- An assignment to a name that stands for a variable stores in the variable's cell. -/
private theorem SymbolKind.target_of_var {name : String} {found : Option Cell}
    (stands : SymbolKind.var = .component ∧ found = none ∨
      ∃ cell, SymbolKind.var.cell? name [] = some cell ∧ found = some cell) :
    found = some (.var name []) := by
  rcases stands with ⟨component, -⟩ | ⟨cell, cellOf, rfl⟩
  · cases component
  · rw [← cellOf]
    rfl

/-- An assignment to a plain target stores in the cell of its name. -/
theorem Node.IsPlainTarget.runFrom_lowerTarget {target : Node} {name : String} (span : Span)
    {found : Option Cell} (plain : target.IsPlainTarget known name known')
    (holds : ctx.scope.HasVariables known)
    (ran : runFrom ctx (target.lowerTarget span) = (.ok found, ctx')) :
    found = some (.var name []) ∧ ctx'.scope.HasVariables known' := by
  cases plain with
  | known member =>
    simp only [Node.lowerTarget, Node.lowerValues, runFrom_bind_eq_ok, runFrom_pure_eq_ok,
      runFrom_resolve_eq_ok, runFrom_targetOf_eq_ok] at ran
    obtain ⟨_, _, ⟨rfl, rfl⟩, ⟨kind, at'⟩, _, ⟨resolved, rfl⟩, stands, rfl⟩ := ran
    have isVariable : kind = .var := by simpa [resolved] using holds name member
    subst isVariable
    exact ⟨SymbolKind.target_of_var stands, holds⟩
  | fresh tagged =>
    simp only [Node.lowerTarget, runFrom_bind_eq_ok, runFrom_declareNode_eq_ok, tagged,
      runFrom_declare_eq_ok, runFrom_resolve_eq_ok, runFrom_targetOf_eq_ok] at ran
    obtain ⟨_, _, ⟨_, _, _, kindIs, nameIs, scope, declared, rfl⟩, symbol, _, ⟨resolved, rfl⟩,
      stands, rfl⟩ := ran
    cases kindIs
    cases nameIs
    rw [Scope.lookup?_of_declare declared, if_pos rfl] at resolved
    cases resolved
    exact ⟨SymbolKind.target_of_var stands, holds.declare declared⟩

end

/-! ### Operations in the place of statements -/

namespace Operand.Operates

variable {span : Span} {ctx ctx' : Context} {op : Operator} {operands : List Operand}
  {fragment : Fragment}

/-- An assignment finds the cell of its target and then lowers the value, or is void. -/
theorem of_assign (h : Operates span ctx op operands fragment ctx') (isAssign : op = .assign) :
    ∃ target value, operands = [target, value] ∧
      ((runFrom ctx (target.target span) = (.ok none, ctx') ∧ fragment = .nothing) ∨
        ∃ cell e ctx₁, runFrom ctx (target.target span) = (.ok (some cell), ctx₁) ∧
          runFrom ctx₁ value.value = (.ok e, ctx') ∧ fragment = .expr (.set cell e)) := by
  cases h with
  | store _ found lowered => exact ⟨_, _, rfl, .inr ⟨_, _, _, found, lowered, rfl⟩⟩
  | storeComponent _ found => exact ⟨_, _, rfl, .inl ⟨found, rfl⟩⟩
  | update updates => subst isAssign; cases updates
  | updateComponent updates => subst isAssign; cases updates
  | increment => split at isAssign <;> cases isAssign
  | constrainedStore => cases isAssign
  | constrain => cases isAssign
  | arithmetic _ combined =>
    have computes := Operator.isArithmetic_of_combine? combined
    subst isAssign
    cases computes

/-- An update in place finds the cell of its target, lowers the target as a value and then the other
operand, or is void. -/
theorem of_update (h : Operates span ctx op operands fragment ctx')
    {combine : Expr → Expr → Expr} (updates : op.update? = some combine) :
    ∃ target value, operands = [target, value] ∧
      ((runFrom ctx (target.target span) = (.ok none, ctx') ∧ fragment = .nothing) ∨
        ∃ cell current e ctx₁ ctx₂, runFrom ctx (target.target span) = (.ok (some cell), ctx₁) ∧
          runFrom ctx₁ target.value = (.ok current, ctx₂) ∧
          runFrom ctx₂ value.value = (.ok e, ctx') ∧
          fragment = .expr (.set cell (combine current e))) := by
  cases h with
  | store plain => rcases plain with rfl | rfl <;> cases updates
  | storeComponent plain => rcases plain with rfl | rfl <;> cases updates
  | update same _ found first second =>
    cases Option.some.inj (updates.symm.trans same)
    exact ⟨_, _, rfl, .inr ⟨_, _, _, _, _, found, first, second, rfl⟩⟩
  | updateComponent _ _ found => exact ⟨_, _, rfl, .inl ⟨found, rfl⟩⟩
  | increment => split at updates <;> cases updates
  | constrainedStore => cases updates
  | constrain => cases updates
  | arithmetic _ combined =>
    have computes := Operator.isArithmetic_of_combine? combined
    cases op <;> cases updates <;> cases computes

/-- An increment finds the cell of its target and then lowers the target as a value. -/
theorem of_increment (h : Operates span ctx op operands fragment ctx')
    (increments : op = .preIncrement ∨ op = .postIncrement) :
    ∃ post target cell current ctx₁, operands = [target] ∧
      runFrom ctx (target.target span) = (.ok (some cell), ctx₁) ∧
      runFrom ctx₁ target.value = (.ok current, ctx') ∧
      fragment = .expr (if post = true then
        Arithmetic.previousValue (.set cell (Arithmetic.increment current))
        else .set cell (Arithmetic.increment current)) := by
  cases h with
  | store plain => rcases plain with rfl | rfl <;> simp at increments
  | storeComponent plain => rcases plain with rfl | rfl <;> simp at increments
  | update updates => rcases increments with rfl | rfl <;> cases updates
  | updateComponent updates => rcases increments with rfl | rfl <;> cases updates
  | increment _ found read => exact ⟨_, _, _, _, _, rfl, found, read, rfl⟩
  | constrainedStore => simp at increments
  | constrain => simp at increments
  | arithmetic _ combined =>
    have computes := Operator.isArithmetic_of_combine? combined
    rcases increments with rfl | rfl <;> cases computes

end Operand.Operates

/-! ### One step for each form of statement, and the run of a body -/

section

variable {machine : Machine} {base : Address → Nat} {turns : Nat} {known known' : List String}
  {ctx ctx' : Context} {fragment : Fragment} {span : Span} {symbol name : String}

private theorem simulates_of_declare (holds : ctx.scope.HasVariables known) {tag : String}
    {at' : Span} {dimensions : List Node} (tagged : DeclarationKind.ofTag? tag = some .var)
    (lowered : runFrom ctx (Node.declare span tag (.var at' name dimensions)).lower =
      (.ok fragment, ctx')) :
    ctx'.scope.HasVariables (name :: known) ∧
      Simulates machine base (Stmt.runOption machine turns fragment.statement?)
        ((Node.declare span tag (.var at' name dimensions)).meaning machine.field turns) := by
  simp only [Node.lower, runFrom_bind_eq_ok, runFrom_declareNode_eq_ok, runFrom_pure_eq_ok,
    runFrom_declare_eq_ok, tagged] at lowered
  obtain ⟨_, _, ⟨_, _, _, kindIs, nameIs, scope, declared, rfl⟩, rfl, rfl⟩ := lowered
  cases kindIs
  cases nameIs
  refine ⟨holds.declare declared, ?_⟩
  have idle : (Node.declare span tag (.var at' name dimensions)).meaning machine.field turns =
      Meaning.skip := by
    funext vars
    simp only [Node.meaning, tagged, if_true, Meaning.skip]
  rw [idle]
  exact Simulates.skip

/-- An update in place computes what the operator's arithmetic computes. -/
private theorem exists_update_value {op : Operator} {combine : Expr → Expr → Expr}
    (updates : op.update? = some combine) (large : 1 < machine.field.prime) {memory : Memory}
    {a b : Expr} {x y : Nat} (ha : a.Yields machine memory x) (hb : b.Yields machine memory y) :
    ∃ v, v < machine.field.prime ∧ (combine a b).Yields machine memory v ∧
      ∀ (target value : Node) (vars : Variables) (name : String),
        target.plainTarget? = some name →
        target.value? machine.field vars.environment = some x →
        value.value? machine.field vars.environment = some y →
        Node.operationMeaning machine.field op [target, value] vars =
          some (.next, vars.assign name v) := by
  have positive : machine.field.prime ≠ 0 := by omega
  cases op <;> cases updates
  case addAssign =>
    refine ⟨_, Nat.mod_lt _ (by omega),
      fun effects => Arithmetic.gives_add positive (ha effects) (hb effects), ?_⟩
    intro target value vars name named means₁ means₂
    simp only [Node.operationMeaning, Node.assignment, named, means₁, means₂, Option.bind_eq_bind,
      Option.bind_some]
    rfl
  case mulAssign =>
    refine ⟨_, Nat.mod_lt _ (by omega),
      fun effects => Arithmetic.gives_mul positive (ha effects) (hb effects), ?_⟩
    intro target value vars name named means₁ means₂
    simp only [Node.operationMeaning, Node.assignment, named, means₁, means₂, Option.bind_eq_bind,
      Option.bind_some]
    rfl

/-- A known name is a plain value. -/
private theorem isPlain_of_mem (bound : Nat) (member : name ∈ known) :
    (Node.var span name []).isPlain bound known = true := by
  simpa [Node.isPlain] using member

variable (large : 1 < machine.field.prime) (masked : machine.field.mask < machine.field.prime)
  (baseBelow : CellsBelow base machine.field.prime)

include large masked baseBelow

private theorem simulates_of_assign (holds : ctx.scope.HasVariables known)
    {target value : Node} (spelled : Operator.ofSymbol? symbol = some .assign)
    (plainTarget : target.IsPlainTarget known name known')
    (plain : value.isPlain machine.field.prime known' = true)
    (lowered : runFrom ctx (Node.op span symbol [target, value]).lower = (.ok fragment, ctx')) :
    ctx'.scope.HasVariables known' ∧
      Simulates machine base (Stmt.runOption machine turns fragment.statement?)
        ((Node.op span symbol [target, value]).meaning machine.field turns) := by
  simp only [Node.lower, spelled] at lowered
  obtain ⟨_, _, same, stored⟩ := (Operand.operates_of_runFrom lowered).of_assign rfl
  cases same
  rcases stored with ⟨found, -⟩ | ⟨cell, e, ctx₁, found, ran, rfl⟩
  · exact absurd (plainTarget.runFrom_lowerTarget span holds found).1 nofun
  obtain ⟨isCell, holds'⟩ := plainTarget.runFrom_lowerTarget span holds found
  cases isCell
  obtain ⟨rfl, yields⟩ := Node.yields_of_isPlain large masked baseBelow holds' plain
    (runFrom_valueOf_eq_ok.1 ran)
  refine ⟨holds', Simulates.assignment name fun vars below => ?_⟩
  obtain ⟨v, small, means, yielded⟩ := yields vars below
  refine ⟨v, small, ?_, fun effects => ⟨v, _, yielded.gives_set name effects⟩⟩
  simp only [Node.meaning, spelled, Node.operationMeaning, Node.assignment,
    plainTarget.plainTarget?_eq, means, Option.bind_eq_bind, Option.bind_some]
  rfl

private theorem simulates_of_update (holds : ctx.scope.HasVariables known)
    {op : Operator} {combine : Expr → Expr → Expr} {at' : Span} {value : Node}
    (spelled : Operator.ofSymbol? symbol = some op) (updates : op.update? = some combine)
    (member : name ∈ known) (plain : value.isPlain machine.field.prime known = true)
    (lowered : runFrom ctx (Node.op span symbol [.var at' name [], value]).lower =
      (.ok fragment, ctx')) :
    ctx'.scope.HasVariables known ∧
      Simulates machine base (Stmt.runOption machine turns fragment.statement?)
        ((Node.op span symbol [.var at' name [], value]).meaning machine.field turns) := by
  simp only [Node.lower, spelled] at lowered
  obtain ⟨_, _, same, stored⟩ := (Operand.operates_of_runFrom lowered).of_update updates
  cases same
  have plainTarget : (Node.var at' name []).IsPlainTarget known name known := .known member
  rcases stored with ⟨found, -⟩ | ⟨cell, current, e, ctx₁, ctx₂, found, first, second, rfl⟩
  · exact absurd (plainTarget.runFrom_lowerTarget span holds found).1 nofun
  obtain ⟨isCell, holds₁⟩ := plainTarget.runFrom_lowerTarget span holds found
  cases isCell
  obtain ⟨rfl, yields₁⟩ := Node.yields_of_isPlain large masked baseBelow holds₁
    (isPlain_of_mem _ member) (runFrom_valueOf_eq_ok.1 first)
  obtain ⟨rfl, yields₂⟩ := Node.yields_of_isPlain large masked baseBelow holds₁ plain
    (runFrom_valueOf_eq_ok.1 second)
  refine ⟨holds₁, Simulates.assignment name fun vars below => ?_⟩
  obtain ⟨x, -, means₁, yielded₁⟩ := yields₁ vars below
  obtain ⟨y, -, means₂, yielded₂⟩ := yields₂ vars below
  obtain ⟨v, small, yielded, means⟩ := exists_update_value updates large yielded₁ yielded₂
  refine ⟨v, small, ?_, fun effects => ⟨v, _, yielded.gives_set name effects⟩⟩
  simp only [Node.meaning, spelled, Option.bind_eq_bind, Option.bind_some]
  exact means _ _ vars name plainTarget.plainTarget?_eq means₁ means₂

private theorem simulates_of_increment (holds : ctx.scope.HasVariables known)
    {op : Operator} {at' : Span} (spelled : Operator.ofSymbol? symbol = some op)
    (increments : op = .preIncrement ∨ op = .postIncrement) (member : name ∈ known)
    (lowered : runFrom ctx (Node.op span symbol [.var at' name []]).lower = (.ok fragment, ctx')) :
    ctx'.scope.HasVariables known ∧
      Simulates machine base (Stmt.runOption machine turns fragment.statement?)
        ((Node.op span symbol [.var at' name []]).meaning machine.field turns) := by
  have positive : machine.field.prime ≠ 0 := by omega
  simp only [Node.lower, spelled] at lowered
  obtain ⟨post, _, cell, current, ctx₁, same, found, read, rfl⟩ :=
    (Operand.operates_of_runFrom lowered).of_increment increments
  cases same
  have plainTarget : (Node.var at' name []).IsPlainTarget known name known := .known member
  obtain ⟨isCell, holds₁⟩ := plainTarget.runFrom_lowerTarget span holds found
  cases isCell
  obtain ⟨rfl, yields⟩ := Node.yields_of_isPlain large masked baseBelow holds₁
    (isPlain_of_mem _ member) (runFrom_valueOf_eq_ok.1 read)
  refine ⟨holds₁, Simulates.assignment name fun vars below => ?_⟩
  obtain ⟨x, -, means, yielded⟩ := yields vars below
  have counted : (Arithmetic.increment current).Yields machine (.ofNumbers (vars.cells base))
      ((x + 1) % machine.field.prime) :=
    fun effects => Arithmetic.gives_add positive (yielded effects) (Expr.gives_ofNat 1)
  refine ⟨(x + 1) % machine.field.prime, Nat.mod_lt _ (by omega), ?_, fun effects => ?_⟩
  · rcases increments with rfl | rfl <;>
      simp only [Node.meaning, spelled, Node.operationMeaning, Node.assignment, means,
        plainTarget.plainTarget?_eq, Option.bind_eq_bind, Option.bind_some] <;> rfl
  · have stored := counted.gives_set name effects
    split
    · -- The old value is computed from the stored one, after the store.
      exact ⟨_, _, Arithmetic.gives_sub positive stored (Expr.gives_ofNat 1) (by omega)⟩
    · exact ⟨_, _, stored⟩

private theorem simulates_of_ret (holds : ctx.scope.HasVariables known)
    {value : Node} (plain : value.isPlain machine.field.prime known = true)
    (lowered : runFrom ctx (Node.ret span value).lower = (.ok fragment, ctx')) :
    ctx'.scope.HasVariables known ∧
      Simulates machine base (Stmt.runOption machine turns fragment.statement?)
        ((Node.ret span value).meaning machine.field turns) := by
  simp only [Node.lower, runFrom_bind_eq_ok, runFrom_valueOf_eq_ok, runFrom_pure_eq_ok] at lowered
  obtain ⟨e, _, ran, rfl, rfl⟩ := lowered
  obtain ⟨rfl, yields⟩ := Node.yields_of_isPlain large masked baseBelow holds plain ran
  refine ⟨holds, fun vars effects below => ?_⟩
  obtain ⟨v, -, means, yielded⟩ := yields vars below
  refine ⟨.returned v, vars, effects, below, ?_, ?_⟩
  · simp only [Node.meaning, means, Option.bind_eq_bind, Option.bind_some]
    rfl
  · rw [Fragment.statement?, Stmt.runOption, Stmt.run, Eval.run_bind_of_ok (yielded effects)]
    rfl

/-- The condition of a loop is tested without an effect. -/
private theorem exists_test (holds : ctx.scope.HasVariables known)
    {condition : Node} (plain : condition.isPlain machine.field.prime known = true) {e : Expr}
    (lowered : runFrom ctx condition.lower = (.ok (.expr e), ctx')) :
    ctx' = ctx ∧ ∀ vars : Variables, vars.Below machine.field.prime →
      ∃ c, condition.value? machine.field vars.environment = some c ∧
        ∀ effects, (e.eval machine >>= Eval.number).run ⟨.ofNumbers (vars.cells base), effects⟩ =
          .ok (c, ⟨.ofNumbers (vars.cells base), effects⟩) := by
  obtain ⟨rfl, yields⟩ := Node.yields_of_isPlain large masked baseBelow holds plain lowered
  refine ⟨rfl, fun vars below => ?_⟩
  obtain ⟨c, -, means, yielded⟩ := yields vars below
  exact ⟨c, means, fun effects => (yielded effects).run_number⟩

/-- The code of a statement simulates its meaning, and the names known after the statement stand for
variables in the scope that it leaves. The induction is on the form of the statement; a loop adds one
on its turns. -/
theorem Node.Computes.simulates (turns : Nat) {n : Node}
    (computes : n.Computes machine.field.prime known known') (holds : ctx.scope.HasVariables known)
    (lowers : n.Lowers ctx fragment ctx') :
    ctx'.scope.HasVariables known' ∧
      Simulates machine base (Stmt.runOption machine turns fragment.statement?)
        (n.meaning machine.field turns) := by
  induction computes generalizing ctx ctx' fragment with
  | declare tagged => exact simulates_of_declare holds tagged lowers.runFrom_eq_ok
  | assign spelled plainTarget plain =>
    exact simulates_of_assign large masked baseBelow holds spelled plainTarget plain
      lowers.runFrom_eq_ok
  | update spelled updates member plain =>
    exact simulates_of_update large masked baseBelow holds spelled updates member plain
      lowers.runFrom_eq_ok
  | increment spelled increments member =>
    exact simulates_of_increment large masked baseBelow holds spelled increments member
      lowers.runFrom_eq_ok
  | ret plain => exact simulates_of_ret large masked baseBelow holds plain lowers.runFrom_eq_ok
  | forLoop _ plain _ _ ihInit ihStep ihBody =>
    cases lowers with
    | simple simple => cases simple
    | forLoop first tested second third =>
      obtain ⟨holds₁, simulatesInit⟩ := ihInit holds first
      obtain ⟨rfl, tests⟩ := exists_test large masked baseBelow holds₁ plain tested
      obtain ⟨holds₂, simulatesStep⟩ := ihStep holds₁ second
      obtain ⟨holds₃, simulatesBody⟩ := ihBody holds₂ third
      refine ⟨holds₃, ?_⟩
      rw [Fragment.statement?, Stmt.runOption, Stmt.run, Stmt.run_getD, Node.meaning]
      exact simulatesInit.andThen ((simulatesBody.andThen simulatesStep).loop tests turns)
  | whileLoop plain _ ihBody =>
    cases lowers with
    | simple simple => cases simple
    | whileLoop tested second =>
      obtain ⟨rfl, tests⟩ := exists_test large masked baseBelow holds plain tested
      obtain ⟨holds₁, simulatesBody⟩ := ihBody holds second
      refine ⟨holds₁, ?_⟩
      rw [Fragment.statement?, Stmt.runOption, Stmt.run, Stmt.run_getD, Node.meaning]
      exact simulatesBody.loop tests turns
  | blockNil =>
    cases lowers with
    | simple simple => cases simple
    | blockNil =>
      refine ⟨holds, ?_⟩
      rw [Fragment.statement?, Stmt.runOption, Stmt.run, Stmt.runAll, Node.meaning, Node.meaningAll]
      exact Simulates.skip
  | blockCons _ _ ihFirst ihRest =>
    cases lowers with
    | simple simple => cases simple
    | blockCons first rest =>
      obtain ⟨holds₁, simulatesFirst⟩ := ihFirst holds first
      obtain ⟨holds₂, simulatesRest⟩ := ihRest holds₁ rest
      refine ⟨holds₂, ?_⟩
      rw [Fragment.statement?, Stmt.runOption, Stmt.run, Stmt.runAll_toList_append, Node.meaning,
        Node.meaningAll]
      rw [Fragment.statement?, Stmt.runOption, Stmt.run, Node.meaning] at simulatesRest
      exact simulatesFirst.andThen simulatesRest

end

/-! ### Definitions of functions -/

/-- The parameters of a definition stand for variables, and variables around it still do. -/
theorem Lowering.hasVariables_of_params {known : List String} {span : Span} {ctx ctx' : Context}
    (params : List String) (holds : ctx.scope.HasVariables known)
    (declared : runFrom ctx (params.forM fun param => Lowering.declare param .var span) =
      (.ok (), ctx')) :
    ctx'.scope.HasVariables (params ++ known) := by
  induction params generalizing ctx known with
  | nil =>
    obtain ⟨-, rfl⟩ := runFrom_pure_eq_ok.1 declared
    exact holds
  | cons param params ih =>
    rw [List.forM_eq_forM, List.forM_cons] at declared
    simp only [runFrom_bind_eq_ok, runFrom_declare_eq_ok] at declared
    obtain ⟨_, _, ⟨scope, first, rfl⟩, rest⟩ := declared
    have all : ctx'.scope.HasVariables (params ++ param :: known) := by
      refine ih ?_ rest
      exact holds.declare first
    intro name member
    apply all name
    simp only [List.mem_append, List.mem_cons] at member ⊢
    tauto

/-- The variables of a call have the values of its arguments, else 0. -/
theorem Variables.below_ofArguments {bound : Nat} (positive : 0 < bound) (params : List String)
    {args : List Nat} (small : ∀ a ∈ args, a < bound) :
    (Variables.ofArguments params args).Below bound := by
  intro name
  unfold Variables.ofArguments
  cases found : (params.zip args).lookup name with
  | none => exact positive
  | some a =>
    have member : (name, a) ∈ params.zip args := by
      obtain ⟨before, after, split, -⟩ := List.lookup_eq_some_iff.1 found
      rw [split]
      simp
    exact small a (List.of_mem_zip member).2

/-- A function that is lowered is registered under its name with code that keeps the meaning of its
body. The body computes on its parameters and on what it declares; it may also use names that stand
for variables around the definition. Whatever the arguments below the modulus and the bound on the
turns of loops, code and meaning end in the same way and leave the same values in the variables, and
no other cell changes. -/
theorem Node.run_function (machine : Machine) (large : 1 < machine.field.prime)
    (masked : machine.field.mask < machine.field.prime) {span : Span} {name : String}
    {params outer known : List String} {body : Node} {ctx ctx' : Context} {fragment : Fragment}
    (computes : body.Computes machine.field.prime (params ++ outer) known)
    (holds : ctx.scope.HasVariables outer)
    (lowered : runFrom ctx (Node.function span name params body).lower = (.ok fragment, ctx')) :
    ∃ d, ctx'.registry.functions.get? name = some d ∧ d.params = params ∧
      ∀ (turns : Nat) (args : List Nat) (base : Address → Nat) (effects : List Effect),
        (∀ a ∈ args, a < machine.field.prime) → CellsBelow base machine.field.prime →
        ∃ exit vars effects',
          body.meaning machine.field turns (.ofArguments params args) = some (exit, vars) ∧
          (Stmt.runAll machine turns d.body).run
              ⟨.ofNumbers ((Variables.ofArguments params args).cells base), effects⟩ =
            .ok (exit.outcome, ⟨.ofNumbers (vars.cells base), effects'⟩) := by
  cases Node.lowers_of_runFrom _ lowered with
  | simple simple => cases simple
  | @function _ ctx₁ _ _ _ _ _ ss declared inner _ registered =>
    obtain ⟨-, scope, -, rfl⟩ := runFrom_registerFunction_eq_ok.1 registered
    refine ⟨⟨params, ss, span⟩, OrderedMap.get?_insert_self .., rfl, ?_⟩
    intro turns args base effects small baseBelow
    have pushed : Scope.HasVariables { ctx with scope := ctx.scope.push }.scope outer := by
      intro name member
      rw [Scope.lookup?_push]
      exact holds name member
    obtain ⟨-, simulates⟩ := computes.simulates large masked baseBelow turns
      (hasVariables_of_params params pushed declared) inner
    obtain ⟨exit, vars, effects', -, means, runs⟩ := simulates (.ofArguments params args) effects
      (Variables.below_ofArguments (by omega) params small)
    rw [Fragment.statement?, Stmt.runOption, Stmt.run] at runs
    exact ⟨exit, vars, effects', means, runs⟩

/-- `var s = 1; for (var i = 0; i < n; i++) { s *= b; while (100 < s) { return i; } } return s;` -/
def Node.boundedPower : Node :=
  let plain (name : String) : Node := .var .unknown name []
  let fresh (name : String) : Node := .declare .unknown "VARIABLE" (plain name)
  .block .unknown
    [.op .unknown "=" [fresh "s", .number .unknown 1],
      .forLoop .unknown (.op .unknown "=" [fresh "i", .number .unknown 0])
        (.op .unknown "<" [plain "i", plain "n"])
        (.op .unknown "PLUSPLUSRIGHT" [plain "i"])
        (.block .unknown
          [.op .unknown "*=" [plain "s", plain "b"],
            .whileLoop .unknown (.op .unknown "<" [.number .unknown 100, plain "s"])
              (.block .unknown [.ret .unknown (plain "i")])]),
      .ret .unknown (plain "s")]

/-- With 3 as `b` the product exceeds 100 in the fifth turn, and both loops are left from within. -/
theorem Node.run_function_boundedPower :
    ∃ d ctx, runFrom .empty (Node.function .unknown "f" ["b", "n"] .boundedPower).lower =
        (.ok .nothing, ctx) ∧
      ctx.registry.functions.get? "f" = some d ∧
      ∃ memory effects,
        (Stmt.runAll (.ofField ⟨997, 511⟩) 10 d.body).run
            ⟨.ofNumbers ((Variables.ofArguments ["b", "n"] [3, 9]).cells fun _ => 0), []⟩ =
          .ok (.returned (.number 4), ⟨memory, effects⟩) ∧
        memory (.var "s" []) = .number 243 := by
  have computes : Node.boundedPower.Computes 997 (["b", "n"] ++ []) ["i", "s", "b", "n"] :=
    .blockCons (.assign rfl (.fresh rfl) rfl) <|
    .blockCons
      (.forLoop (.assign rfl (.fresh rfl) rfl) rfl (.increment rfl (.inr rfl) (by decide))
        (.blockCons (.update rfl rfl (by decide) rfl)
          (.blockCons (.whileLoop rfl (.blockCons (.ret rfl) .blockNil)) .blockNil))) <|
    .blockCons (.ret rfl) .blockNil
  obtain ⟨ctx, lowered⟩ : ∃ ctx, runFrom .empty
      (Node.function .unknown "f" ["b", "n"] .boundedPower).lower = (.ok .nothing, ctx) := ⟨_, rfl⟩
  have holds : Context.empty.scope.HasVariables [] := fun _ member => nomatch member
  obtain ⟨d, registered, -, keeps⟩ := Node.run_function (.ofField ⟨997, 511⟩) (by decide)
    (by decide) computes holds lowered
  have zeros : CellsBelow (fun _ => 0) 997 := fun _ => Nat.zero_lt_succ 996
  obtain ⟨exit, vars, effects, means, runs⟩ := keeps 10 [3, 9] (fun _ => 0) [] (by decide) zeros
  have computed : (Node.boundedPower.meaning ⟨997, 511⟩ 10
      (.ofArguments ["b", "n"] [3, 9])).map (fun result => (result.1, result.2 "s")) =
        some (.returned 4, 243) := by rfl
  have returned : exit = .returned 4 ∧ vars "s" = 243 := by
    rw [Machine.ofField] at means
    simpa [means] using computed
  refine ⟨d, ctx, lowered, registered, .ofNumbers (vars.cells fun _ => 0), effects, ?_, ?_⟩
  · rw [runs, returned.1]
    rfl
  · exact congrArg Datum.number returned.2

end ArithCircuit
