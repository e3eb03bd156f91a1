import ArithCircuit.Proofs.Registrations

set_option autoImplicit false
set_option relaxedAutoImplicit false

/-!
# The literals of lowered code

A literal of a compiled circuit may be any text, but lowering makes literals of numbers only. All
code that a unit compiles to therefore has canonical decimal literals. Main statements:
`Node.isDecimal_of_lower` for values, `Node.allDecimal_of_compile` for the bodies of definitions.
-/

namespace ArithCircuit

open Lowering

mutual

/-- All literals of an expression are canonical decimal texts. -/
def Expr.IsDecimal : Expr → Prop
  | .number text => ∃ n, text = Decimal.text n
  | .prime | .mask => True
  | .binary _ lhs rhs => lhs.IsDecimal ∧ rhs.IsDecimal
  | .modPow base exponent modulus => base.IsDecimal ∧ exponent.IsDecimal ∧ modulus.IsDecimal
  | .select condition whenTrue whenFalse =>
    condition.IsDecimal ∧ whenTrue.IsDecimal ∧ whenFalse.IsDecimal
  | .get cell => cell.IsDecimal
  | .set cell value => cell.IsDecimal ∧ value.IsDecimal
  | .assertEqual lhs rhs => lhs.IsDecimal ∧ rhs.IsDecimal
  | .call _ args => Expr.AllDecimal args
  | .array items => Expr.AllDecimal items

/-- So are those in the indices of a cell. -/
def Cell.IsDecimal : Cell → Prop
  | .var _ indices | .signal _ indices => Expr.AllDecimal indices
  | .pin _ componentIndices _ pinIndices =>
    Expr.AllDecimal componentIndices ∧ Expr.AllDecimal pinIndices

def Expr.AllDecimal : List Expr → Prop
  | [] => True
  | e :: es => e.IsDecimal ∧ Expr.AllDecimal es

end

theorem Expr.allDecimal_iff {es : List Expr} : Expr.AllDecimal es ↔ ∀ e ∈ es, e.IsDecimal := by
  induction es with
  | nil => simp [Expr.AllDecimal]
  | cons e es ih => simp [Expr.AllDecimal, ih]

theorem Expr.isDecimal_ofNat (n : Nat) : (Expr.ofNat n).IsDecimal := ⟨n, rfl⟩

mutual

/-- All literals of a statement are canonical decimal texts. -/
def Stmt.IsDecimal : Stmt → Prop
  | .expr e => e.IsDecimal
  | .block body => Stmt.AllDecimal body
  | .forLoop init condition step body =>
    Stmt.OptionDecimal init ∧ condition.IsDecimal ∧ Stmt.OptionDecimal step ∧ body.IsDecimal
  | .whileLoop condition body => condition.IsDecimal ∧ body.IsDecimal
  | .ret e => e.IsDecimal

def Stmt.OptionDecimal : Option Stmt → Prop
  | none => True
  | some s => s.IsDecimal

def Stmt.AllDecimal : List Stmt → Prop
  | [] => True
  | s :: ss => s.IsDecimal ∧ Stmt.AllDecimal ss

end

theorem Stmt.isDecimal_getD {s : Option Stmt} (decimal : Stmt.OptionDecimal s) :
    (s.getD (.block [])).IsDecimal := by
  cases s with
  | none => trivial
  | some s => exact decimal

theorem Stmt.allDecimal_toList_append {s : Option Stmt} {ss : List Stmt}
    (first : Stmt.OptionDecimal s) (rest : Stmt.AllDecimal ss) :
    Stmt.AllDecimal (s.toList ++ ss) := by
  cases s with
  | none => exact rest
  | some s => exact ⟨first, rest⟩

/-! ### Arithmetic -/

section

variable {op : Operator} {combine : Expr → Expr → Expr} {a b : Expr}

theorem Arithmetic.binary?_isDecimal (binary : Arithmetic.binary? op = some combine)
    (left : a.IsDecimal) (right : b.IsDecimal) : (combine a b).IsDecimal := by
  cases op <;> cases binary <;>
    simp [Arithmetic.add, Arithmetic.sub, Arithmetic.mul, Arithmetic.pow, Arithmetic.bitAnd,
      Arithmetic.shl, Arithmetic.shr, Arithmetic.lt, Arithmetic.eq, Arithmetic.boundedShift,
      Arithmetic.reduce, Arithmetic.masked, Expr.IsDecimal, Expr.isDecimal_ofNat, left, right]

theorem Operator.combine?_isDecimal {es : List Expr} {e : Expr}
    (combined : op.combine? es = some e) (decimal : Expr.AllDecimal es) : e.IsDecimal := by
  unfold Operator.combine? at combined
  split at combined
  case h_1 a =>
    cases combined
    simpa [Expr.AllDecimal, Arithmetic.neg, Arithmetic.reduce, Expr.IsDecimal] using decimal
  case h_2 c a b =>
    cases combined
    simpa [Expr.AllDecimal, Arithmetic.ternary, Expr.isDecimal_ofNat, Expr.IsDecimal] using decimal
  case h_3 _ _ a b =>
    obtain ⟨combine, binary, rfl⟩ := Option.map_eq_some_iff.1 combined
    exact Arithmetic.binary?_isDecimal binary decimal.1 decimal.2.1
  case h_4 => cases combined

theorem Operator.update?_isDecimal (updates : op.update? = some combine)
    (left : a.IsDecimal) (right : b.IsDecimal) : (combine a b).IsDecimal := by
  cases op <;> cases updates
  case addAssign =>
    have binary : Arithmetic.binary? .add = some Arithmetic.add := rfl
    exact Arithmetic.binary?_isDecimal binary left right
  case mulAssign =>
    have binary : Arithmetic.binary? .mul = some Arithmetic.mul := rfl
    exact Arithmetic.binary?_isDecimal binary left right

end

/-! ### Values -/

/-- All uses of an operand yield code with decimal literals. -/
structure Operand.YieldsDecimal (operand : Operand) : Prop where
  value : ∀ {ctx ctx' : Context} {e : Expr},
    runFrom ctx operand.value = (.ok e, ctx') → e.IsDecimal
  target : ∀ {ctx ctx' : Context} {span : Span} {cell : Cell},
    runFrom ctx (operand.target span) = (.ok (some cell), ctx') → cell.IsDecimal

section

variable {ctx ctx' : Context} {span : Span} {op : Operator} {operands : List Operand}
  {fragment : Fragment}

theorem SymbolKind.isDecimal_of_cell? {kind : SymbolKind} {name : String} {indices : List Expr}
    {cell : Cell} (stands : kind.cell? name indices = some cell)
    (decimal : Expr.AllDecimal indices) : cell.IsDecimal := by
  cases kind <;> cases stands <;> exact decimal

theorem Operand.YieldsDecimal.readBack {operand : Operand} (yields : operand.YieldsDecimal)
    {back : Expr} (ran : runFrom ctx (Operand.readBack operand) = (.ok back, ctx')) :
    back.IsDecimal := by
  unfold Operand.readBack at ran
  split at ran
  · simp only [readName, runFrom_bind_eq_ok, runFrom_resolve_eq_ok, runFrom_map_eq_ok,
      runFrom_cellOf_eq_ok] at ran
    obtain ⟨symbol, _, ⟨-, rfl⟩, cell, ⟨stands, rfl⟩, rfl⟩ := ran
    exact SymbolKind.isDecimal_of_cell? stands trivial
  · exact yields.value ran

theorem Operand.allDecimal_values {operands : List Operand}
    (yield : ∀ operand ∈ operands, operand.YieldsDecimal) {es : List Expr}
    (ran : runFrom ctx (Operand.values operands) = (.ok es, ctx')) : Expr.AllDecimal es := by
  induction operands generalizing ctx es with
  | nil =>
    obtain ⟨rfl, -⟩ := runFrom_pure_eq_ok.1 ran
    trivial
  | cons operand rest ih =>
    obtain ⟨e, ctx₁, es', first, last, rfl⟩ := Operand.runFrom_values_cons_eq_ok.1 ran
    have head : e.IsDecimal := (yield operand (by simp)).value first
    have tail : Expr.AllDecimal es' := ih (fun o member => yield o (by simp [member])) last
    exact ⟨head, tail⟩

theorem Operand.Operates.isDecimal (h : Operand.Operates span ctx op operands fragment ctx')
    (yield : ∀ operand ∈ operands, operand.YieldsDecimal) :
    Stmt.OptionDecimal fragment.statement? := by
  cases h with
  | store _ found lowered =>
    exact ⟨(yield _ (.head _)).target found, (yield _ (.tail _ (.head _))).value lowered⟩
  | storeComponent | updateComponent => trivial
  | update updates _ found first second =>
    have current := (yield _ (.head _)).value first
    have operand := (yield _ (.tail _ (.head _))).value second
    exact ⟨(yield _ (.head _)).target found, Operator.update?_isDecimal updates current operand⟩
  | @increment post target cell current _ _ _ found read =>
    have cellDecimal := (yield _ (.head _)).target found
    have currentDecimal := (yield _ (.head _)).value read
    cases post <;> simp [Fragment.statement?, Stmt.OptionDecimal, Stmt.IsDecimal,
      Arithmetic.previousValue, Arithmetic.increment, Arithmetic.add, Arithmetic.sub,
      Arithmetic.reduce, Expr.isDecimal_ofNat, Expr.IsDecimal, cellDecimal, currentDecimal]
  | constrainedStore found lowered read =>
    have stored := (yield _ (.tail _ (.head _))).value lowered
    exact ⟨⟨(yield _ (.head _)).target found, stored⟩, (yield _ (.head _)).readBack read⟩
  | constrain first second =>
    exact ⟨(yield _ (.head _)).value first, (yield _ (.tail _ (.head _))).value second⟩
  | arithmetic lowered combined =>
    exact Operator.combine?_isDecimal combined (Operand.allDecimal_values yield lowered)

end

mutual

/-- The code of a value has decimal literals. -/
theorem Node.isDecimal_of_lower {ctx ctx' : Context} {e : Expr} :
    (n : Node) → runFrom ctx n.lower = (.ok (.expr e), ctx') → e.IsDecimal
  | .number _ value, ran => by
    rw [Node.lower] at ran
    obtain ⟨same, -⟩ := runFrom_pure_eq_ok.1 ran
    cases same
    exact Expr.isDecimal_ofNat value
  | .var span name selectors, ran => by
    simp only [Node.lower, runFrom_bind_eq_ok, runFrom_resolve_eq_ok, runFrom_cellOf_eq_ok,
      runFrom_pure_eq_ok] at ran
    obtain ⟨symbol, _, ⟨-, rfl⟩, es, ctx₁, lowered, cell, _, ⟨stands, rfl⟩, same, rfl⟩ := ran
    cases same
    exact SymbolKind.isDecimal_of_cell? stands (Node.allDecimal_of_lowerValues selectors lowered)
  | .pin span component componentSelectors name selectors, ran => by
    simp only [Node.lower, runFrom_bind_eq_ok, runFrom_resolveComponent_eq_ok,
      runFrom_pure_eq_ok] at ran
    obtain ⟨_, _, ⟨-, rfl⟩, is, ctx₁, first, es, _, second, same, rfl⟩ := ran
    cases same
    exact ⟨Node.allDecimal_of_lowerValues componentSelectors first,
      Node.allDecimal_of_lowerValues selectors second⟩
  | .op span symbol operands, ran => by
    rw [Node.lower] at ran
    split at ran
    · exact (Operand.operates_of_runFrom ran).isDecimal (Node.yieldsDecimal_operands operands)
    · exact absurd ran runFrom_throw_ne_ok
  | .call _ name args, ran => by
    simp only [Node.lower, runFrom_bind_eq_ok, runFrom_pure_eq_ok] at ran
    obtain ⟨es, _, lowered, same, rfl⟩ := ran
    cases same
    exact Node.allDecimal_of_lowerValues args lowered
  | .array _ items, ran => by
    simp only [Node.lower, runFrom_bind_eq_ok, runFrom_pure_eq_ok] at ran
    obtain ⟨es, _, lowered, same, rfl⟩ := ran
    cases same
    exact Node.allDecimal_of_lowerValues items lowered
  | .inclusion _ _ (some n), ran => by
    rw [Node.lower, Node.lowerOption] at ran
    exact Node.isDecimal_of_lower n ran
  | .inclusion _ _ none, ran => by
    rw [Node.lower, Node.lowerOption] at ran
    exact absurd (runFrom_pure_eq_ok.1 ran).1 nofun
  | .declare .., ran | .block .., ran | .forLoop .., ran | .whileLoop .., ran
  | .ret .., ran | .template .., ran | .function .., ran => by
    simp only [Node.lower, runFrom_bind_eq_ok, runFrom_pure_eq_ok] at ran
    grind

theorem Node.allDecimal_of_lowerValues {ctx ctx' : Context} {es : List Expr} :
    (ns : List Node) → runFrom ctx (Node.lowerValues ns) = (.ok es, ctx') → Expr.AllDecimal es
  | [], ran => by
    rw [Node.lowerValues] at ran
    obtain ⟨rfl, -⟩ := runFrom_pure_eq_ok.1 ran
    trivial
  | n :: ns, ran => by
    obtain ⟨e, ctx₁, rest, first, last, rfl⟩ := runFrom_lowerValues_cons_eq_ok.1 ran
    exact ⟨Node.isDecimal_of_lower n first, Node.allDecimal_of_lowerValues ns last⟩

theorem Node.isDecimal_of_lowerTarget {ctx ctx' : Context} {span : Span} {cell : Cell} :
    (n : Node) → runFrom ctx (n.lowerTarget span) = (.ok (some cell), ctx') → cell.IsDecimal
  | .declare at' tag name, ran => by
    simp only [Node.lowerTarget, runFrom_bind_eq_ok, runFrom_resolve_eq_ok,
      runFrom_targetOf_some_eq_ok] at ran
    obtain ⟨_, ctx₁, -, symbol, _, ⟨-, rfl⟩, stands, rfl⟩ := ran
    exact SymbolKind.isDecimal_of_cell? stands trivial
  | .pin at' component componentSelectors name selectors, ran => by
    simp only [Node.lowerTarget, runFrom_bind_eq_ok, runFrom_resolveComponent_eq_ok,
      runFrom_pure_eq_ok] at ran
    obtain ⟨_, _, ⟨-, rfl⟩, is, ctx₁, first, es, _, second, same, rfl⟩ := ran
    cases same
    exact ⟨Node.allDecimal_of_lowerValues componentSelectors first,
      Node.allDecimal_of_lowerValues selectors second⟩
  | .var at' name selectors, ran => by
    simp only [Node.lowerTarget, runFrom_bind_eq_ok, runFrom_resolve_eq_ok,
      runFrom_targetOf_some_eq_ok] at ran
    obtain ⟨es, ctx₁, lowered, symbol, _, ⟨-, rfl⟩, stands, rfl⟩ := ran
    exact SymbolKind.isDecimal_of_cell? stands (Node.allDecimal_of_lowerValues selectors lowered)
  | .number .., ran | .op .., ran | .call .., ran | .block .., ran
  | .forLoop .., ran | .whileLoop .., ran | .ret .., ran | .template .., ran
  | .function .., ran | .inclusion .., ran | .array .., ran => by
    rw [Node.lowerTarget] at ran
    · exact absurd ran runFrom_throw_ne_ok
    all_goals simp

theorem Node.yieldsDecimal_operands :
    (ns : List Node) → ∀ operand ∈ Node.operands ns, operand.YieldsDecimal
  | [] => by simp [Node.operands]
  | n :: ns => by
    intro operand member
    rw [Node.operands, List.mem_cons] at member
    rcases member with rfl | member
    · exact ⟨fun ran => Node.isDecimal_of_lower n (runFrom_valueOf_eq_ok.1 ran),
        fun ran => Node.isDecimal_of_lowerTarget n ran⟩
    · exact Node.yieldsDecimal_operands ns operand member

end

/-! ### Statements -/

/-- So has the code of a statement. -/
theorem Node.Lowers.isDecimal {n : Node} {ctx ctx' : Context} {fragment : Fragment}
    (lowers : n.Lowers ctx fragment ctx') : Stmt.OptionDecimal fragment.statement? := by
  induction lowers with
  | @simple ctx ctx' n fragment simple ran =>
    cases Node.lowersSimply_of_runFrom simple ran with
    | operation _ operates => exact operates.isDecimal (Node.yieldsDecimal_operands _)
    | declaration => trivial
    | ret lowered => exact Node.isDecimal_of_lower _ lowered
    | value lowered => exact Node.isDecimal_of_lower n lowered
  | blockNil => trivial
  | blockCons _ _ ihFirst ihRest => exact Stmt.allDecimal_toList_append ihFirst ihRest
  | forLoop _ tested _ _ ihInit ihStep ihBody =>
    exact ⟨ihInit, Node.isDecimal_of_lower _ tested, ihStep, Stmt.isDecimal_getD ihBody⟩
  | whileLoop tested _ ihBody =>
    exact ⟨Node.isDecimal_of_lower _ tested, Stmt.isDecimal_getD ihBody⟩
  | template | function | inclusionNone => trivial
  | inclusionSome _ ih => exact ih

theorem Node.allDecimal_of_lowerBody {ctx ctx' : Context} {params : List String} {span : Span}
    {body : Node} {ss : List Stmt}
    (lowered : runFrom ctx (Node.lowerBody params span body) = (.ok ss, ctx')) :
    Stmt.AllDecimal ss := by
  obtain ⟨_, -, inner, -, -⟩ := Node.runFrom_lowerBody_enter.1 lowered
  exact (Node.lowers_of_runFrom body inner).isDecimal

/-- The bodies of all definitions of a compiled unit have decimal literals. -/
theorem Node.allDecimal_of_compile {root : Node} {field : Field} {circuit : Circuit}
    (compiled : root.compile field = .ok circuit) {kind : SymbolKind} {name : String}
    {d : Definition} (found : circuit.registry.definition? name kind = some d) :
    Stmt.AllDecimal d.body := by
  obtain ⟨site, -, defines⟩ := (Node.definition?_of_compile compiled kind name d).1 found
  cases defines with
  | template lowered => exact Node.allDecimal_of_lowerBody lowered
  | function lowered => exact Node.allDecimal_of_lowerBody lowered

end ArithCircuit
