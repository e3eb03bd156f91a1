import ArithCircuit.Proofs.Acceptance
import ArithCircuit.Proofs.InPlaceUpdates

set_option autoImplicit false
set_option relaxedAutoImplicit false

/-!
# Operators that are short for others

Most of the operators that store are short for a plain assignment together with an arithmetic operator
or an equality. Each of them has a lowering of its own; the operation that it is short for is lowered
to the same code, or fails with the same error, and leaves the same context. Main statement:
`Node.Expands.runFrom_lower`.
-/

namespace ArithCircuit

open Lowering

namespace Node

/-- In a context the search for the cell of a target comes upon a component, which has none. -/
def FindsComponent (ctx : Context) (span : Span) (target : Node) : Prop :=
  ∃ ctx', runFrom ctx (target.lowerTarget span) = (.ok none, ctx')

theorem not_findsComponent {ctx : Context} {target : Node} (other : target.isComponent ctx = false)
    (span : Span) : ¬ target.FindsComponent ctx span := by
  rintro ⟨ctx', found⟩
  rw [(isComponent_of_lowerTarget target found).2] at other
  cases other

/-- The operation `target = value`. -/
def assigned (span : Span) (target value : Node) : Node := .op span "=" [target, value]

/-- The operation `n + 1`. -/
def successor (span : Span) (n : Node) : Node := .op span "+" [n, .number span 1]

/-- In a context an operation is short for another one, whose parts that are not in the source have the
span of the operation. -/
inductive Expands (ctx : Context) (span : Span) : Node → Node → Prop where
  | signalAssign (target value : Node) :
      Expands ctx span (.op span "<--" [target, value]) (assigned span target value)
  | addAssign {target : Node} (value : Node) : target.isReference = true →
      Expands ctx span (.op span "+=" [target, value])
        (assigned span target (.op span "+" [target, value]))
  | mulAssign {target : Node} (value : Node) : target.isReference = true →
      Expands ctx span (.op span "*=" [target, value])
        (assigned span target (.op span "*" [target, value]))
  | preIncrement {target : Node} : target.isReference = true → ¬ target.FindsComponent ctx span →
      Expands ctx span (.op span "PLUSPLUSLEFT" [target])
        (assigned span target (successor span target))
  | postIncrement {target : Node} : target.isReference = true → ¬ target.FindsComponent ctx span →
      Expands ctx span (.op span "PLUSPLUSRIGHT" [target])
        (.op span "-" [assigned span target (successor span target), .number span 1])
  | constrainedAssign {target : Node} (value : Node) : target.isReference = true →
      ¬ target.FindsComponent ctx span →
      Expands ctx span (.op span "<==" [target, value])
        (.op span "===" [assigned span target value, target])
  /-- A fresh variable or signal is read back by its plain name, without the array dimensions. -/
  | constrainedDeclaration {tag : String} {kind : DeclarationKind} (place at' : Span) (name : String)
      (dimensions : List Node) (value : Node) :
      DeclarationKind.ofTag? tag = some kind → kind ≠ .component →
      Expands ctx span (.op span "<==" [.declare place tag (.var at' name dimensions), value])
        (.op span "===" [assigned span (.declare place tag (.var at' name dimensions)) value,
          .var at' name []])

end Node

/-! ### Stores and what follows them -/

section

variable {ctx : Context} {span : Span} {target value : Node}

/-- Where a target is no component, what would be done about one does not matter. -/
theorem Node.runFrom_store_bind_congr {α : Type} {next next' : Option Expr → Lowering α}
    (cell : ¬ target.FindsComponent ctx span) (same : ∀ e, next (some e) = next' (some e))
    (value : Lowering Expr) :
    runFrom ctx (Operand.store span target.operand value >>= next) =
      runFrom ctx (Operand.store span target.operand value >>= next') := by
  unfold Operand.store
  simp only [bind_assoc]
  rw [runFrom_bind, runFrom_bind]
  rcases found : runFrom ctx (target.operand.target span) with ⟨_ | _ | _, ctx₁⟩
  · rfl
  · exact absurd ⟨ctx₁, found⟩ cell
  · simp only [bind_assoc, pure_bind, same]

theorem Node.lower_assigned : (assigned span target value).lower =
    Fragment.ofStore <$> Operand.store span target.operand value.lowerValue :=
  Node.lower_op .assign _ _

/-- As a value, an assignment has to store something. -/
theorem Node.lowerValue_assigned : (assigned span target value).lowerValue =
    Operand.store span target.operand value.lowerValue >>= fun stored =>
      stored.elim (throw (.invalidNode .expression .op span)) pure := by
  rw [Node.lowerValue, valueOf, Node.lower_assigned, map_eq_pure_bind, bind_assoc]
  refine bind_congr fun stored => ?_
  cases stored <;> rfl

theorem Node.lowerValue_of_binary (op : Operator) {combine : Expr → Expr → Expr}
    (binary : Arithmetic.binary? op = some combine) (m n : Node) :
    (Node.op span op.symbol [m, n]).lowerValue = do
      let a ← m.lowerValue
      let b ← n.lowerValue
      return combine a b := by
  rw [Node.lowerValue, Node.lower_pair op (Operand.operate_of_binary binary span), valueOf]
  simp only [bind_assoc, pure_bind]

theorem Node.lowerValue_successor :
    (successor span target).lowerValue = Arithmetic.increment <$> target.lowerValue := by
  rw [map_eq_pure_bind]
  exact Node.lowerValue_of_binary .add rfl target (.number span 1)

/-! ### Operators that need a reference -/

theorem Operand.requireReference_of_isReference (reference : target.isReference = true) :
    requireReference span target.operand = pure () := by
  cases target
  case var | pin => rfl
  all_goals cases reference

/-- An update stores the combined value, like the assignment of the operation that combines. -/
theorem Node.lower_update (op update : Operator) {combine : Expr → Expr → Expr}
    (binary : Arithmetic.binary? op = some combine) (updates : update.update? = some combine)
    (reference : target.isReference = true) :
    (Node.op span update.symbol [target, value]).lower =
      (assigned span target (.op span op.symbol [target, value])).lower := by
  have operates : (Node.op span update.symbol [target, value]).lower =
      Operand.update combine span target.operand value.operand := by
    rw [Node.lower_op]
    cases update <;> cases updates <;> rfl
  rw [operates, Operand.update, Operand.requireReference_of_isReference reference, pure_bind,
    Node.lower_assigned, Node.lowerValue_of_binary op binary, map_eq_pure_bind]
  rfl

theorem Node.lower_op_increment (post : Bool) :
    (Node.op span (if post then Operator.postIncrement else .preIncrement).symbol [target]).lower =
      Fragment.expr <$> Operand.increment post span target.operand := by
  rw [Node.lower_op]
  cases post <;> rfl

/-- An increment stores the successor, like the assignment of the successor. -/
theorem Node.lower_increment (reference : target.isReference = true) (post : Bool) :
    (Node.op span (if post then Operator.postIncrement else .preIncrement).symbol [target]).lower =
      Operand.store span target.operand (successor span target).lowerValue >>= fun stored =>
        stored.elim (throw (.invalidAssignment .incrementComponent span)) fun e =>
          pure (.expr (if post then Arithmetic.previousValue e else e)) := by
  rw [Node.lower_op_increment, Operand.increment, Operand.requireReference_of_isReference reference,
    pure_bind, Node.lowerValue_successor, map_eq_pure_bind, bind_assoc]
  refine bind_congr fun stored => ?_
  cases stored <;> rfl

/-- Both ways to store a value and demand it end with the code for the demand. -/
theorem Node.lower_constrainedStore (value : Node) :
    (Node.op span "<==" [target, value]).lower =
      Operand.store span target.operand value.lowerValue >>= fun stored =>
        stored.elim (throw (.invalidAssignment .constrainComponent span)) fun e => do
          let back ← Operand.readBack target.operand
          return .expr (.assertEqual e back) := by
  have operates : (Node.op span "<==" [target, value]).lower =
      Fragment.expr <$> Operand.constrainedStore span target.operand value.operand :=
    Node.lower_op .constrainedAssign _ _
  rw [operates, Operand.constrainedStore, map_eq_pure_bind, bind_assoc]
  refine bind_congr fun stored => ?_
  cases stored
  · rfl
  · simp only [bind_assoc, pure_bind, Option.elim_some]

/-- An operator that combines two values stores first if its first operand is an assignment. -/
theorem Node.lower_of_assigned (op : Operator) {combine : Expr → Expr → Expr}
    (operates : ∀ lhs rhs, Operand.operate span op [lhs, rhs] = do
      let a ← lhs.value
      let b ← rhs.value
      return .expr (combine a b)) (target value n : Node) :
    (Node.op span op.symbol [assigned span target value, n]).lower =
      Operand.store span target.operand value.lowerValue >>= fun stored =>
        stored.elim (throw (.invalidNode .expression .op span)) fun e => do
          let b ← n.lowerValue
          return .expr (combine e b) := by
  rw [Node.lower_pair op operates, Node.lowerValue_assigned, bind_assoc]
  refine bind_congr fun stored => ?_
  cases stored
  · rfl
  · simp only [Option.elim_some, pure_bind]

theorem Operand.operate_constrain (span : Span) (lhs rhs : Operand) :
    operate span .constrain [lhs, rhs] = do
      let a ← lhs.value
      let b ← rhs.value
      return .expr (.assertEqual a b) := by
  rw [operate, constrain, map_eq_pure_bind]
  simp only [bind_assoc, pure_bind]

/-- A fresh variable or signal is read back like a reference by its plain name. -/
theorem Operand.readBack_declaration (place at' : Span) (tag name : String)
    (dimensions : List Node) :
    readBack (Node.declare place tag (.var at' name dimensions)).operand =
      (Node.var at' name []).lowerValue := by
  have read : (Node.var at' name []).lower = do
      let symbol ← Lowering.resolve name at'
      let cell ← cellOf name [] at' symbol.kind
      return .expr (.get cell) := by
    rw [Node.lower]
    simp only [Node.lowerValues, pure_bind]
  rw [Node.lowerValue, read, valueOf]
  simp only [bind_assoc, pure_bind]
  refine bind_congr fun symbol => ?_
  rw [map_eq_pure_bind]

/-- Storing a value and demanding it is the equality of the assignment with a node that is read like the
target is read back. -/
theorem Node.runFrom_lower_constrainedAssign {n : Node} (cell : ¬ target.FindsComponent ctx span)
    (back : Operand.readBack target.operand = n.lowerValue) (value : Node) :
    runFrom ctx (Node.op span "<==" [target, value]).lower =
      runFrom ctx (Node.op span "===" [assigned span target value, n]).lower := by
  have expanded := Node.lower_of_assigned .constrain (Operand.operate_constrain span) target value n
  rw [Node.lower_constrainedStore, back]
  refine Eq.trans ?_ (congrArg (runFrom ctx) expanded.symm)
  apply Node.runFrom_store_bind_congr cell
  exact fun e => rfl

/-! ### The operations and what they are short for -/

/-- Lowering an operation gives the result of lowering what it is short for, code or error, and leaves
the same context. -/
theorem Node.Expands.runFrom_lower {short long : Node} (expands : Expands ctx span short long) :
    runFrom ctx short.lower = runFrom ctx long.lower := by
  cases expands with
  | signalAssign target value =>
    rw [Node.lower_assigned]
    exact congrArg (runFrom ctx) (Node.lower_op .signalAssign _ _)
  | addAssign value reference =>
    exact congrArg (runFrom ctx) (Node.lower_update .add .addAssign rfl rfl reference)
  | mulAssign value reference =>
    exact congrArg (runFrom ctx) (Node.lower_update .mul .mulAssign rfl rfl reference)
  | @preIncrement target reference cell =>
    rw [Node.lower_assigned, map_eq_pure_bind]
    refine Eq.trans (congrArg (runFrom ctx) (Node.lower_increment reference false)) ?_
    apply Node.runFrom_store_bind_congr cell
    exact fun e => rfl
  | @postIncrement target reference cell =>
    have expanded := Node.lower_of_assigned .sub (Operand.operate_of_binary rfl span) target
      (successor span target) (.number span 1)
    refine Eq.trans (congrArg (runFrom ctx) (Node.lower_increment reference true)) ?_
    refine Eq.trans ?_ (congrArg (runFrom ctx) expanded.symm)
    apply Node.runFrom_store_bind_congr cell
    exact fun e => rfl
  | constrainedAssign value reference cell =>
    exact Node.runFrom_lower_constrainedAssign cell (Operand.readBack_of_isReference reference) value
  | @constrainedDeclaration tag kind place at' name dimensions value known plain =>
    have other : (Node.declare place tag (.var at' name dimensions)).isComponent ctx = false := by
      simp [isComponent, known, plain]
    exact Node.runFrom_lower_constrainedAssign (Node.not_findsComponent other span)
      (Operand.readBack_declaration place at' tag name dimensions) value

/-- Both `x++` and `(x = x + 1) - 1` yield the code for the value before. -/
theorem Node.Expands.runFrom_lower_counted :
    let x : Node := .var .unknown "x" []
    let short : Node := .op .unknown "PLUSPLUSRIGHT" [x]
    let long : Node := .op .unknown "-" [assigned .unknown x (successor .unknown x), .number .unknown 1]
    x.isReference = true ∧ ¬ x.FindsComponent .twoVariables .unknown ∧
      Expands .twoVariables .unknown short long ∧
      runFrom .twoVariables short.lower = runFrom .twoVariables long.lower ∧
      runFrom .twoVariables short.lower = (.ok (.expr (Arithmetic.previousValue
        (.set (.var "x" []) (Arithmetic.increment (.get (.var "x" [])))))), .twoVariables) := by
  intro x short long
  have cell : ¬ x.FindsComponent .twoVariables .unknown := Node.not_findsComponent rfl .unknown
  have expands : Expands .twoVariables .unknown short long := .postIncrement rfl cell
  exact ⟨rfl, cell, expands, expands.runFrom_lower, rfl⟩

/-- A component cannot be counted up, but assigning to it is void. -/
example :
    let c : Node := .var .unknown "c" []
    let table : Table := (∅ : Table).insert "c" ⟨.component, .unknown⟩
    let ctx : Context := { Context.empty with scope := ⟨[], table⟩ }
    (runFrom ctx (Node.op .unknown "PLUSPLUSLEFT" [c]).lower).1 =
        .error (.invalidAssignment .incrementComponent .unknown) ∧
      (runFrom ctx (Node.assigned .unknown c (.successor .unknown c)).lower).1 = .ok .nothing :=
  ⟨rfl, rfl⟩

end

end ArithCircuit
