import ArithCircuit.Proofs.Runs

set_option autoImplicit false
set_option relaxedAutoImplicit false

/-!
# The cells that code uses

Code uses the cells that it reads or writes, at every depth: in operands and arguments, in the indices
of other cells, in the clauses and bodies of loops. Arithmetic uses no cells but those of its operands.
-/

namespace ArithCircuit

open Lowering

mutual

/-- The cells that an expression reads or writes, at every depth. -/
def Expr.cells : Expr → List Cell
  | .number _ | .prime | .mask => []
  | .binary _ lhs rhs => lhs.cells ++ rhs.cells
  | .modPow base exponent modulus => base.cells ++ exponent.cells ++ modulus.cells
  | .select condition whenTrue whenFalse => condition.cells ++ whenTrue.cells ++ whenFalse.cells
  | .get cell => cell.cells
  | .set cell value => cell.cells ++ value.cells
  | .assertEqual lhs rhs => lhs.cells ++ rhs.cells
  | .call _ args => Expr.allCells args
  | .array items => Expr.allCells items

/-- A cell with the cells that its indices use. -/
def Cell.cells : Cell → List Cell
  | .var name indices => .var name indices :: Expr.allCells indices
  | .signal name indices => .signal name indices :: Expr.allCells indices
  | .pin component componentIndices pin pinIndices =>
    .pin component componentIndices pin pinIndices ::
      (Expr.allCells componentIndices ++ Expr.allCells pinIndices)

/-- The cells that expressions use. -/
def Expr.allCells : List Expr → List Cell
  | [] => []
  | e :: es => e.cells ++ Expr.allCells es

end

mutual

/-- The cells that a statement uses, at every depth. -/
def Stmt.cells : Stmt → List Cell
  | .expr e => e.cells
  | .block body => Stmt.allCells body
  | .forLoop init condition step body =>
    Stmt.optionCells init ++ condition.cells ++ Stmt.optionCells step ++ body.cells
  | .whileLoop condition body => condition.cells ++ body.cells
  | .ret e => e.cells

/-- The cells that a clause uses, if there is one. -/
def Stmt.optionCells : Option Stmt → List Cell
  | none => []
  | some s => s.cells

/-- The cells that statements use. -/
def Stmt.allCells : List Stmt → List Cell
  | [] => []
  | s :: ss => s.cells ++ Stmt.allCells ss

end

namespace Cell

/-- The name that stands for a cell; for a pin it is that of the component. -/
def name : Cell → String
  | .var name _ | .signal name _ => name
  | .pin component _ _ _ => component

/-- What the name of a cell has to stand for. -/
def kind : Cell → SymbolKind
  | .var _ _ => .var
  | .signal _ _ => .signal
  | .pin _ _ _ _ => .component

/-- The cells of a target that may be a component, which has none. -/
def optionCells : Option Cell → List Cell
  | none => []
  | some cell => cell.cells

end Cell

/-- The cells of the code that a node yields. -/
def Fragment.cells (fragment : Fragment) : List Cell := Stmt.optionCells fragment.statement?

theorem Stmt.cells_getD (s : Option Stmt) :
    (s.getD (.block [])).cells = Stmt.optionCells s := by
  cases s <;> simp only [Option.getD_none, Option.getD_some, Stmt.cells, Stmt.allCells,
    Stmt.optionCells]

theorem Stmt.allCells_toList_append (s : Option Stmt) (ss : List Stmt) :
    Stmt.allCells (s.toList ++ ss) = Stmt.optionCells s ++ Stmt.allCells ss := by
  cases s <;> simp only [Option.toList_none, Option.toList_some, List.nil_append,
    List.singleton_append, Stmt.allCells, Stmt.optionCells]

section

variable {kind : SymbolKind} {name : String} {indices : List Expr} {cell : Cell}

/-- The cell of a name has this name, and is of the kind that the name stands for. -/
theorem SymbolKind.name_and_kind_of_cell? (stands : kind.cell? name indices = some cell) :
    cell.name = name ∧ cell.kind = kind := by
  cases kind <;> cases stands <;> exact ⟨rfl, rfl⟩

theorem SymbolKind.cells_of_cell? (stands : kind.cell? name indices = some cell) :
    cell.cells = cell :: Expr.allCells indices := by
  cases kind <;> cases stands <;> rfl

end

/-! ### Arithmetic -/

section

variable {op : Operator} {combine : Expr → Expr → Expr} {a b : Expr}

theorem Arithmetic.binary?_cells (binary : Arithmetic.binary? op = some combine) :
    (combine a b).cells ⊆ a.cells ++ b.cells := by
  intro cell member
  rw [List.mem_append]
  cases op <;> cases binary <;>
    simp only [Arithmetic.add, Arithmetic.sub, Arithmetic.mul, Arithmetic.pow, Arithmetic.bitAnd,
      Arithmetic.shl, Arithmetic.shr, Arithmetic.lt, Arithmetic.eq, Arithmetic.boundedShift,
      Arithmetic.reduce, Arithmetic.masked, Expr.ofNat, Expr.cells, List.mem_append,
      List.not_mem_nil, or_false] at member <;>
    grind

theorem Operator.combine?_cells {es : List Expr} {e : Expr} (combined : op.combine? es = some e) :
    e.cells ⊆ Expr.allCells es := by
  unfold Operator.combine? at combined
  split at combined
  case h_1 a =>
    cases combined
    simp [Expr.allCells, Arithmetic.neg, Arithmetic.reduce, Expr.cells]
  case h_2 c a b =>
    cases combined
    simp [Expr.allCells, Arithmetic.ternary, Expr.ofNat, Expr.cells]
  case h_3 _ _ a b =>
    obtain ⟨combine, binary, rfl⟩ := Option.map_eq_some_iff.1 combined
    rw [Expr.allCells, Expr.allCells, Expr.allCells, List.append_nil]
    exact Arithmetic.binary?_cells binary
  case h_4 => cases combined

theorem Operator.update?_cells (updates : op.update? = some combine) :
    (combine a b).cells ⊆ a.cells ++ b.cells := by
  cases op <;> cases updates
  case addAssign =>
    have binary : Arithmetic.binary? .add = some Arithmetic.add := rfl
    exact Arithmetic.binary?_cells binary
  case mulAssign =>
    have binary : Arithmetic.binary? .mul = some Arithmetic.mul := rfl
    exact Arithmetic.binary?_cells binary

theorem Arithmetic.increment_cells : (Arithmetic.increment a).cells = a.cells := by
  simp [Arithmetic.increment, Arithmetic.add, Arithmetic.reduce, Expr.ofNat, Expr.cells]

theorem Arithmetic.previousValue_cells : (Arithmetic.previousValue a).cells = a.cells := by
  simp [Arithmetic.previousValue, Arithmetic.sub, Arithmetic.reduce, Expr.ofNat, Expr.cells]

end

end ArithCircuit
