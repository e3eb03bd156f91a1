import ArithCircuit.Proofs.Visits

set_option autoImplicit false
set_option relaxedAutoImplicit false

/-!
# Where demands stand in lowered code

The demands of a piece of code, in the order of its tree, and those of them that are statements or
clauses of loops of their own. A node that contains no constraint is lowered to code without demands;
a constraint over such nodes is lowered to one demand, over code without any.
-/

namespace ArithCircuit

open Lowering

/-! ### Demands in code -/

mutual

/-- The demands in an expression, in the order of the tree. -/
def Expr.assertions : Expr → List Expr
  | .number _ | .prime | .mask => []
  | .binary _ lhs rhs => lhs.assertions ++ rhs.assertions
  | .modPow base exponent modulus =>
    base.assertions ++ exponent.assertions ++ modulus.assertions
  | .select condition whenTrue whenFalse =>
    condition.assertions ++ whenTrue.assertions ++ whenFalse.assertions
  | .get cell => cell.assertions
  | .set cell value => cell.assertions ++ value.assertions
  | .assertEqual lhs rhs => .assertEqual lhs rhs :: (lhs.assertions ++ rhs.assertions)
  | .call _ args => Expr.allAssertions args
  | .array items => Expr.allAssertions items

/-- The demands in the indices of a cell. -/
def Cell.assertions : Cell → List Expr
  | .var _ indices | .signal _ indices => Expr.allAssertions indices
  | .pin _ componentIndices _ pinIndices =>
    Expr.allAssertions componentIndices ++ Expr.allAssertions pinIndices

/-- The demands in expressions. -/
def Expr.allAssertions : List Expr → List Expr
  | [] => []
  | e :: es => e.assertions ++ Expr.allAssertions es

end

mutual

/-- The demands in a statement, in the order of the tree. -/
def Stmt.assertions : Stmt → List Expr
  | .expr e => e.assertions
  | .block body => Stmt.allAssertions body
  | .forLoop init condition step body =>
    Stmt.optionAssertions init ++ condition.assertions ++ Stmt.optionAssertions step ++
      body.assertions
  | .whileLoop condition body => condition.assertions ++ body.assertions
  | .ret e => e.assertions

/-- The demands in a clause that may be absent. -/
def Stmt.optionAssertions : Option Stmt → List Expr
  | none => []
  | some s => s.assertions

/-- The demands in statements. -/
def Stmt.allAssertions : List Stmt → List Expr
  | [] => []
  | s :: ss => s.assertions ++ Stmt.allAssertions ss

end

/-- Whether an expression is a demand. -/
def Expr.isAssertion : Expr → Bool
  | .assertEqual _ _ => true
  | _ => false

mutual

/-- The demands that are statements or clauses of loops of their own, in the order of the tree. -/
def Stmt.ownAssertions : Stmt → List Expr
  | .expr e => if e.isAssertion then [e] else []
  | .block body => Stmt.allOwnAssertions body
  | .forLoop init _ step body =>
    Stmt.optionOwnAssertions init ++ Stmt.optionOwnAssertions step ++ body.ownAssertions
  | .whileLoop _ body => body.ownAssertions
  | .ret _ => []

/-- Such demands in a clause that may be absent. -/
def Stmt.optionOwnAssertions : Option Stmt → List Expr
  | none => []
  | some s => s.ownAssertions

/-- Such demands in statements. -/
def Stmt.allOwnAssertions : List Stmt → List Expr
  | [] => []
  | s :: ss => s.ownAssertions ++ Stmt.allOwnAssertions ss

end

theorem Stmt.assertions_getD (s : Option Stmt) :
    (s.getD (.block [])).assertions = Stmt.optionAssertions s := by
  cases s <;> simp only [Option.getD_none, Option.getD_some, Stmt.assertions, Stmt.allAssertions,
    Stmt.optionAssertions]

theorem Stmt.ownAssertions_getD (s : Option Stmt) :
    (s.getD (.block [])).ownAssertions = Stmt.optionOwnAssertions s := by
  cases s <;> simp only [Option.getD_none, Option.getD_some, Stmt.ownAssertions,
    Stmt.allOwnAssertions, Stmt.optionOwnAssertions]

theorem Stmt.allAssertions_toList_append (s : Option Stmt) (ss : List Stmt) :
    Stmt.allAssertions (s.toList ++ ss) = Stmt.optionAssertions s ++ Stmt.allAssertions ss := by
  cases s <;> simp only [Option.toList_none, Option.toList_some, List.nil_append,
    List.singleton_append, Stmt.allAssertions, Stmt.optionAssertions]

theorem Stmt.allOwnAssertions_toList_append (s : Option Stmt) (ss : List Stmt) :
    Stmt.allOwnAssertions (s.toList ++ ss) =
      Stmt.optionOwnAssertions s ++ Stmt.allOwnAssertions ss := by
  cases s <;> simp only [Option.toList_none, Option.toList_some, List.nil_append,
    List.singleton_append, Stmt.allOwnAssertions, Stmt.optionOwnAssertions]

/-- An expression without demands is none itself. -/
theorem Expr.isAssertion_eq_false {e : Expr} (clean : e.assertions = []) :
    e.isAssertion = false := by
  cases e
  case assertEqual => simp [Expr.assertions] at clean
  all_goals rfl

/-! ### Arithmetic over code without demands -/

theorem Arithmetic.binary?_assertions {op : Operator} {combine : Expr → Expr → Expr}
    (binary : Arithmetic.binary? op = some combine) {a b : Expr} (left : a.assertions = [])
    (right : b.assertions = []) : (combine a b).assertions = [] := by
  cases op <;> cases binary <;>
    simp [Arithmetic.add, Arithmetic.sub, Arithmetic.mul, Arithmetic.pow, Arithmetic.bitAnd,
      Arithmetic.shl, Arithmetic.shr, Arithmetic.lt, Arithmetic.eq, Arithmetic.boundedShift,
      Arithmetic.reduce, Arithmetic.masked, Expr.ofNat, Expr.assertions, left, right]

theorem Operator.combine?_assertions {op : Operator} {es : List Expr} {e : Expr}
    (combined : op.combine? es = some e) (clean : Expr.allAssertions es = []) :
    e.assertions = [] := by
  unfold Operator.combine? at combined
  split at combined
  case h_1 a =>
    cases combined
    simpa [Expr.allAssertions, Arithmetic.neg, Arithmetic.reduce, Expr.assertions] using clean
  case h_2 c a b =>
    cases combined
    simpa [Expr.allAssertions, Arithmetic.ternary, Expr.ofNat, Expr.assertions, and_assoc]
      using clean
  case h_3 _ _ a b =>
    obtain ⟨combine, binary, rfl⟩ := Option.map_eq_some_iff.1 combined
    have both : a.assertions = [] ∧ b.assertions = [] := by
      simpa [Expr.allAssertions] using clean
    exact Arithmetic.binary?_assertions binary both.1 both.2
  case h_4 => cases combined

theorem Operator.update?_assertions {op : Operator} {combine : Expr → Expr → Expr}
    (updates : op.update? = some combine) {a b : Expr} (left : a.assertions = [])
    (right : b.assertions = []) : (combine a b).assertions = [] := by
  cases op <;> cases updates
  case addAssign =>
    have binary : Arithmetic.binary? .add = some Arithmetic.add := rfl
    exact Arithmetic.binary?_assertions binary left right
  case mulAssign =>
    have binary : Arithmetic.binary? .mul = some Arithmetic.mul := rfl
    exact Arithmetic.binary?_assertions binary left right

/-! ### Nodes without constraints -/

mutual

/-- Whether a node contains no constraint at all. -/
def Node.isFree : Node → Bool
  | .number _ _ => true
  | .var _ _ selectors => Node.allFree selectors
  | .pin _ _ componentSelectors _ selectors =>
    Node.allFree componentSelectors && Node.allFree selectors
  | .op _ symbol operands => !Operator.isDemand symbol && Node.allFree operands
  | .declare _ _ name => name.isFree
  | .call _ _ args => Node.allFree args
  | .block _ statements => Node.allFree statements
  | .forLoop _ init condition step body =>
    init.isFree && condition.isFree && step.isFree && body.isFree
  | .whileLoop _ condition body => condition.isFree && body.isFree
  | .ret _ value => value.isFree
  | .template _ _ _ body => body.isFree
  | .function _ _ _ body => body.isFree
  | .inclusion _ _ content => Node.optionFree content
  | .array _ items => Node.allFree items

/-- Whether nodes contain no constraint. -/
def Node.allFree : List Node → Bool
  | [] => true
  | n :: ns => n.isFree && Node.allFree ns

/-- Whether a node that may be absent contains no constraint. -/
def Node.optionFree : Option Node → Bool
  | none => true
  | some n => n.isFree

end

/-- All uses of an operand yield code without demands. -/
structure Operand.Clean (operand : Operand) : Prop where
  value : ∀ {ctx ctx' : Context} {e : Expr},
    runFrom ctx operand.value = (.ok e, ctx') → e.assertions = []
  target : ∀ {ctx ctx' : Context} {span : Span} {cell : Cell},
    runFrom ctx (operand.target span) = (.ok (some cell), ctx') → cell.assertions = []

section

variable {ctx ctx' : Context} {span : Span} {op : Operator} {operands : List Operand}
  {fragment : Fragment}

theorem SymbolKind.cell?_assertions {kind : SymbolKind} {name : String} {indices : List Expr}
    {cell : Cell} (stands : kind.cell? name indices = some cell)
    (clean : Expr.allAssertions indices = []) : cell.assertions = [] := by
  cases kind <;> cases stands <;> exact clean

theorem Operand.Clean.readBack {operand : Operand} (clean : operand.Clean) {back : Expr}
    (ran : runFrom ctx (Operand.readBack operand) = (.ok back, ctx')) : back.assertions = [] := by
  unfold Operand.readBack at ran
  split at ran
  · simp only [readName, runFrom_bind_eq_ok, runFrom_resolve_eq_ok, runFrom_map_eq_ok,
      runFrom_cellOf_eq_ok] at ran
    obtain ⟨symbol, _, ⟨-, rfl⟩, cell, ⟨stands, rfl⟩, rfl⟩ := ran
    exact SymbolKind.cell?_assertions stands rfl
  · exact clean.value ran

theorem Operand.values_assertions {operands : List Operand}
    (clean : ∀ operand ∈ operands, operand.Clean) {es : List Expr}
    (ran : runFrom ctx (Operand.values operands) = (.ok es, ctx')) :
    Expr.allAssertions es = [] := by
  induction operands generalizing ctx es with
  | nil =>
    obtain ⟨rfl, -⟩ := runFrom_pure_eq_ok.1 ran
    rfl
  | cons operand rest ih =>
    obtain ⟨e, ctx₁, es', first, last, rfl⟩ := Operand.runFrom_values_cons_eq_ok.1 ran
    have head : e.assertions = [] := (clean operand (by simp)).value first
    have tail : Expr.allAssertions es' = [] := ih (fun o member => clean o (by simp [member])) last
    rw [Expr.allAssertions, head, tail]
    rfl

/-- An operation other than a constraint yields code without demands. -/
theorem Operand.Operates.assertions (h : Operand.Operates span ctx op operands fragment ctx')
    (clean : ∀ operand ∈ operands, operand.Clean) (other : op.demands = false) {e : Expr}
    (yields : fragment = .expr e) : e.assertions = [] := by
  cases h with
  | store _ found lowered =>
    cases yields
    rw [Expr.assertions, (clean _ (.head _)).target found,
      (clean _ (.tail _ (.head _))).value lowered]
    rfl
  | storeComponent => cases yields
  | update updates _ found first second =>
    cases yields
    rw [Expr.assertions, (clean _ (.head _)).target found,
      Operator.update?_assertions updates ((clean _ (.head _)).value first)
        ((clean _ (.tail _ (.head _))).value second)]
    rfl
  | updateComponent => cases yields
  | @increment post target cell current _ _ _ found read =>
    cases yields
    have cellClean := (clean _ (.head _)).target found
    have currentClean := (clean _ (.head _)).value read
    split <;> simp [Arithmetic.previousValue, Arithmetic.increment, Arithmetic.add, Arithmetic.sub,
      Arithmetic.reduce, Expr.ofNat, Expr.assertions, cellClean, currentClean]
  | constrainedStore => cases other
  | constrain => cases other
  | arithmetic lowered combined =>
    cases yields
    exact Operator.combine?_assertions combined (Operand.values_assertions clean lowered)

end

mutual

/-- The code of a value that contains no constraint is without demands. -/
theorem Node.assertions_of_isFree {ctx ctx' : Context} {e : Expr} :
    (n : Node) → n.isFree = true → runFrom ctx n.lower = (.ok (.expr e), ctx') → e.assertions = []
  | .number _ n, _, ran => by
    rw [Node.lower] at ran
    obtain ⟨same, -⟩ := runFrom_pure_eq_ok.1 ran
    cases same
    rfl
  | .var span name selectors, free, ran => by
    simp only [Node.lower, runFrom_bind_eq_ok, runFrom_resolve_eq_ok, runFrom_cellOf_eq_ok,
      runFrom_pure_eq_ok] at ran
    obtain ⟨symbol, _, ⟨-, rfl⟩, es, ctx₁, lowered, cell, _, ⟨stands, rfl⟩, same, rfl⟩ := ran
    cases same
    exact SymbolKind.cell?_assertions stands (Node.allAssertions_of_allFree selectors free lowered)
  | .pin span component componentSelectors name selectors, free, ran => by
    simp only [Node.isFree, Bool.and_eq_true] at free
    simp only [Node.lower, runFrom_bind_eq_ok, runFrom_resolveComponent_eq_ok,
      runFrom_pure_eq_ok] at ran
    obtain ⟨_, _, ⟨-, rfl⟩, is, ctx₁, first, es, _, second, same, rfl⟩ := ran
    cases same
    rw [Expr.assertions, Cell.assertions,
      Node.allAssertions_of_allFree componentSelectors free.1 first,
      Node.allAssertions_of_allFree selectors free.2 second]
    rfl
  | .op span symbol operands, free, ran => by
    simp only [Node.isFree, Bool.and_eq_true, Bool.not_eq_true'] at free
    rw [Node.lower] at ran
    split at ran
    · next op known =>
      have other : op.demands = false := by simpa [Operator.isDemand, known] using free.1
      exact (Operand.operates_of_runFrom ran).assertions
        (Node.clean_operands operands free.2) other rfl
    · exact absurd ran runFrom_throw_ne_ok
  | .call _ name args, free, ran => by
    simp only [Node.lower, runFrom_bind_eq_ok, runFrom_pure_eq_ok] at ran
    obtain ⟨es, _, lowered, same, rfl⟩ := ran
    cases same
    exact Node.allAssertions_of_allFree args free lowered
  | .array _ items, free, ran => by
    simp only [Node.lower, runFrom_bind_eq_ok, runFrom_pure_eq_ok] at ran
    obtain ⟨es, _, lowered, same, rfl⟩ := ran
    cases same
    exact Node.allAssertions_of_allFree items free lowered
  | .inclusion _ _ (some n), free, ran => by
    rw [Node.lower, Node.lowerOption] at ran
    exact Node.assertions_of_isFree n free ran
  | .inclusion _ _ none, _, ran => by
    rw [Node.lower, Node.lowerOption] at ran
    exact absurd (runFrom_pure_eq_ok.1 ran).1 nofun
  | .declare .., _, ran | .block .., _, ran | .forLoop .., _, ran | .whileLoop .., _, ran
  | .ret .., _, ran | .template .., _, ran | .function .., _, ran => by
    simp only [Node.lower, runFrom_bind_eq_ok, runFrom_pure_eq_ok] at ran
    grind

theorem Node.allAssertions_of_allFree {ctx ctx' : Context} {es : List Expr} :
    (ns : List Node) → Node.allFree ns = true → runFrom ctx (Node.lowerValues ns) = (.ok es, ctx') →
      Expr.allAssertions es = []
  | [], _, ran => by
    rw [Node.lowerValues] at ran
    obtain ⟨rfl, -⟩ := runFrom_pure_eq_ok.1 ran
    rfl
  | n :: ns, free, ran => by
    simp only [Node.allFree, Bool.and_eq_true] at free
    obtain ⟨e, ctx₁, rest, first, last, rfl⟩ := runFrom_lowerValues_cons_eq_ok.1 ran
    rw [Expr.allAssertions, Node.assertions_of_isFree n free.1 first,
      Node.allAssertions_of_allFree ns free.2 last]
    rfl

/-- So is the cell of a target. -/
theorem Node.assertions_of_lowerTarget {ctx ctx' : Context} {span : Span} {cell : Cell} :
    (n : Node) → n.isFree = true → runFrom ctx (n.lowerTarget span) = (.ok (some cell), ctx') →
      cell.assertions = []
  | .declare at' tag name, _, ran => by
    simp only [Node.lowerTarget, runFrom_bind_eq_ok, runFrom_resolve_eq_ok,
      runFrom_targetOf_some_eq_ok] at ran
    obtain ⟨_, ctx₁, -, symbol, _, ⟨-, rfl⟩, stands, rfl⟩ := ran
    exact SymbolKind.cell?_assertions stands rfl
  | .pin at' component componentSelectors name selectors, free, ran => by
    simp only [Node.isFree, Bool.and_eq_true] at free
    simp only [Node.lowerTarget, runFrom_bind_eq_ok, runFrom_resolveComponent_eq_ok,
      runFrom_pure_eq_ok] at ran
    obtain ⟨_, _, ⟨-, rfl⟩, is, ctx₁, first, es, _, second, same, rfl⟩ := ran
    cases same
    rw [Cell.assertions, Node.allAssertions_of_allFree componentSelectors free.1 first,
      Node.allAssertions_of_allFree selectors free.2 second]
    rfl
  | .var at' name selectors, free, ran => by
    simp only [Node.lowerTarget, runFrom_bind_eq_ok, runFrom_resolve_eq_ok,
      runFrom_targetOf_some_eq_ok] at ran
    obtain ⟨es, ctx₁, lowered, symbol, _, ⟨-, rfl⟩, stands, rfl⟩ := ran
    exact SymbolKind.cell?_assertions stands (Node.allAssertions_of_allFree selectors free lowered)
  | .number .., _, ran | .op .., _, ran | .call .., _, ran | .block .., _, ran
  | .forLoop .., _, ran | .whileLoop .., _, ran | .ret .., _, ran | .template .., _, ran
  | .function .., _, ran | .inclusion .., _, ran | .array .., _, ran => by
    rw [Node.lowerTarget] at ran
    · exact absurd ran runFrom_throw_ne_ok
    all_goals simp

theorem Node.clean_operands :
    (ns : List Node) → Node.allFree ns = true → ∀ operand ∈ Node.operands ns, operand.Clean
  | [], _ => by simp [Node.operands]
  | n :: ns, free => by
    simp only [Node.allFree, Bool.and_eq_true] at free
    intro operand member
    rw [Node.operands, List.mem_cons] at member
    rcases member with rfl | member
    · exact ⟨fun ran => Node.assertions_of_isFree n free.1 (runFrom_valueOf_eq_ok.1 ran),
        fun ran => Node.assertions_of_lowerTarget n free.1 ran⟩
    · exact Node.clean_operands ns free.2 operand member

end

end ArithCircuit
