import ArithCircuit.Proofs.Derivations

set_option autoImplicit false
set_option relaxedAutoImplicit false

/-!
# What lowering a value cannot change

The only change of a context that comes from lowering a value is the declaration of names. A relation
between contexts that is reflexive, transitive and kept by declarations therefore holds between the
contexts before and after the lowering of any value, of any target and of any operation; and only the
declarations in the value matter. Main statements: `Node.keeps_of_expr` and `Node.frame_of_expr`.
-/

namespace ArithCircuit

open Lowering

/-! ### Nodes of a tree -/

namespace Node

/-- The nodes right below a node. -/
def children : Node → List Node
  | .number _ _ => []
  | .var _ _ selectors => selectors
  | .pin _ _ componentSelectors _ selectors => componentSelectors ++ selectors
  | .op _ _ operands => operands
  | .declare _ _ name => [name]
  | .call _ _ args => args
  | .block _ statements => statements
  | .forLoop _ init condition step body => [init, condition, step, body]
  | .whileLoop _ condition body => [condition, body]
  | .ret _ value => [value]
  | .template _ _ _ body => [body]
  | .function _ _ _ body => [body]
  | .inclusion _ _ content => content.toList
  | .array _ items => items

/-- The nodes of a tree. -/
inductive Contains (root : Node) : Node → Prop where
  | self : Contains root root
  | child {n m : Node} : Contains root n → m ∈ n.children → Contains root m

/-- Below the root a tree consists of the trees right below it. -/
theorem Contains.eq_or_below {root n : Node} (inside : root.Contains n) :
    n = root ∨ ∃ m ∈ root.children, m.Contains n := by
  induction inside with
  | self => exact .inl rfl
  | child _ member ih =>
    rcases ih with rfl | ⟨m, first, below⟩
    · exact .inr ⟨_, member, .self⟩
    · exact .inr ⟨m, first, below.child member⟩

theorem forall_contains {P : Node → Prop} {root : Node} (own : P root)
    (below : ∀ m ∈ root.children, ∀ n, m.Contains n → P n) : ∀ n, root.Contains n → P n := by
  intro n inside
  rcases inside.eq_or_below with rfl | ⟨m, member, inside⟩
  · exact own
  · exact below m member n inside

end Node

/-! ### Frames -/

/-- Whether declarations and parameters introduce names of this kind. -/
def SymbolKind.isDeclared : SymbolKind → Bool
  | .var | .signal | .component => true
  | .template | .function => false

theorem SymbolKind.isDeclared_ofDeclaration (kind : DeclarationKind) :
    (SymbolKind.ofDeclaration kind).isDeclared = true := by
  cases kind <;> rfl

theorem SymbolKind.ne_of_isDeclared {kind : SymbolKind} (plain : kind.isDeclared = true) :
    kind ≠ .template ∧ kind ≠ .function := by
  cases kind <;> cases plain <;> exact ⟨nofun, nofun⟩

/-- A relation between the contexts before and after a step that declarations keep to. -/
structure Context.Frame (R : Context → Context → Prop) : Prop where
  refl : ∀ ctx, R ctx ctx
  trans : ∀ {ctx₁ ctx₂ ctx₃}, R ctx₁ ctx₂ → R ctx₂ ctx₃ → R ctx₁ ctx₃
  declare : ∀ {ctx : Context} {name : String} {symbol : Symbol} {scope : Scope},
    symbol.kind.isDeclared = true → ctx.scope.declare name symbol = .ok scope →
      R ctx { ctx with scope }

/-- All successful runs of a step keep to a relation. -/
def Lowering.Keeps {α : Type} (R : Context → Context → Prop) (step : Lowering α) : Prop :=
  ∀ ctx a ctx', runFrom ctx step = (.ok a, ctx') → R ctx ctx'

/-- A relation between the contexts before and after a step that the declarations in a tree keep to. -/
structure Context.FrameOf (root : Node) (R : Context → Context → Prop) : Prop where
  refl : ∀ ctx, R ctx ctx
  trans : ∀ {ctx₁ ctx₂ ctx₃}, R ctx₁ ctx₂ → R ctx₂ ctx₃ → R ctx₁ ctx₃
  declare : ∀ {span : Span} {tag : String} {name : Node}, root.Contains (.declare span tag name) →
    Lowering.Keeps R (declareNode tag name span)

section

variable {root : Node} {R : Context → Context → Prop} {ctx ctx' : Context}

/-- A declaration keeps to a frame. -/
theorem keeps_declareNode (frame : Context.Frame R) (tag : String) (name : Node) (span : Span) :
    Lowering.Keeps R (declareNode tag name span) := by
  intro ctx a ctx' ran
  obtain ⟨kind, _, _, -, -, declared⟩ := runFrom_declareNode_eq_ok.1 ran
  obtain ⟨scope, added, rfl⟩ := runFrom_declare_eq_ok.1 declared
  exact frame.declare (SymbolKind.isDeclared_ofDeclaration kind) added

theorem Context.Frame.frameOf (frame : Context.Frame R) (root : Node) : Context.FrameOf root R :=
  ⟨frame.refl, frame.trans, fun {span tag name} _ => keeps_declareNode frame tag name span⟩

/-- Where a tree declares nothing, its values leave the context as it is. -/
theorem Context.frameOf_eq (plain : ∀ n, root.Contains n → n.kind ≠ .declare) :
    Context.FrameOf root fun ctx ctx' => ctx' = ctx where
  refl _ := rfl
  trans first second := second.trans first
  declare inside := absurd rfl (plain _ inside)

/-- Both uses of an operand keep to a relation. -/
structure Operand.Keeps (R : Context → Context → Prop) (operand : Operand) : Prop where
  value : Lowering.Keeps R operand.value
  target : ∀ span, Lowering.Keeps R (operand.target span)

theorem Operand.Keeps.readBack (frame : Context.FrameOf root R) {operand : Operand}
    (keeps : operand.Keeps R) : Lowering.Keeps R (Operand.readBack operand) := by
  intro ctx back ctx' ran
  unfold Operand.readBack at ran
  split at ran
  · simp only [readName, runFrom_bind_eq_ok, runFrom_resolve_eq_ok, runFrom_map_eq_ok,
      runFrom_cellOf_eq_ok] at ran
    obtain ⟨symbol, _, ⟨-, rfl⟩, cell, ⟨-, rfl⟩, -⟩ := ran
    exact frame.refl _
  · exact keeps.value _ _ _ ran

theorem Operand.keeps_values (frame : Context.FrameOf root R) {operands : List Operand}
    (keeps : ∀ operand ∈ operands, operand.Keeps R) : Lowering.Keeps R (Operand.values operands) := by
  induction operands with
  | nil =>
    intro ctx es ctx' ran
    obtain ⟨-, rfl⟩ := runFrom_pure_eq_ok.1 ran
    exact frame.refl _
  | cons operand rest ih =>
    intro ctx es ctx' ran
    obtain ⟨e, ctx₁, es', first, last, -⟩ := Operand.runFrom_values_cons_eq_ok.1 ran
    have kept := (keeps operand (by simp)).value _ _ _ first
    exact frame.trans kept (ih (fun o member => keeps o (by simp [member])) _ _ _ last)

/-- An operation over operands that keep to a relation keeps to it. -/
theorem Operand.Operates.frame (frame : Context.FrameOf root R) {span : Span} {op : Operator}
    {operands : List Operand} {fragment : Fragment}
    (h : Operand.Operates span ctx op operands fragment ctx')
    (keeps : ∀ operand ∈ operands, operand.Keeps R) : R ctx ctx' := by
  cases h with
  | store _ found lowered =>
    have kept := (keeps _ (.head _)).target _ _ _ _ found
    exact frame.trans kept ((keeps _ (.tail _ (.head _))).value _ _ _ lowered)
  | storeComponent _ found => exact (keeps _ (.head _)).target _ _ _ _ found
  | update _ _ found first second =>
    have kept := (keeps _ (.head _)).target _ _ _ _ found
    have read := (keeps _ (.head _)).value _ _ _ first
    exact frame.trans (frame.trans kept read) ((keeps _ (.tail _ (.head _))).value _ _ _ second)
  | updateComponent _ _ found => exact (keeps _ (.head _)).target _ _ _ _ found
  | increment _ found read =>
    have kept := (keeps _ (.head _)).target _ _ _ _ found
    exact frame.trans kept ((keeps _ (.head _)).value _ _ _ read)
  | constrainedStore found lowered read =>
    have kept := (keeps _ (.head _)).target _ _ _ _ found
    have stored := (keeps _ (.tail _ (.head _))).value _ _ _ lowered
    exact frame.trans (frame.trans kept stored) ((keeps _ (.head _)).readBack frame _ _ _ read)
  | constrain first second =>
    have kept := (keeps _ (.head _)).value _ _ _ first
    exact frame.trans kept ((keeps _ (.tail _ (.head _))).value _ _ _ second)
  | arithmetic lowered _ => exact Operand.keeps_values frame keeps _ _ _ lowered

mutual

/-- Lowering a value relates the contexts before and after it by every relation that the declarations
in it keep to. -/
theorem Node.keeps_of_expr (frame : Context.FrameOf root R) {ctx ctx' : Context} {e : Expr} :
    (n : Node) → root.Contains n → runFrom ctx n.lower = (.ok (.expr e), ctx') → R ctx ctx'
  | .number _ _, _, ran => by
    rw [Node.lower] at ran
    obtain ⟨-, rfl⟩ := runFrom_pure_eq_ok.1 ran
    exact frame.refl _
  | .var span name selectors, inside, ran => by
    simp only [Node.lower, runFrom_bind_eq_ok, runFrom_resolve_eq_ok, runFrom_cellOf_eq_ok,
      runFrom_pure_eq_ok] at ran
    obtain ⟨symbol, _, ⟨-, rfl⟩, es, ctx₁, lowered, cell, _, ⟨-, rfl⟩, -, rfl⟩ := ran
    exact Node.keeps_of_lowerValues frame selectors (fun _ member => inside.child member) lowered
  | .pin span component componentSelectors name selectors, inside, ran => by
    simp only [Node.lower, runFrom_bind_eq_ok, runFrom_resolveComponent_eq_ok,
      runFrom_pure_eq_ok] at ran
    obtain ⟨_, _, ⟨-, rfl⟩, is, ctx₁, first, es, _, second, -, rfl⟩ := ran
    exact frame.trans
      (Node.keeps_of_lowerValues frame componentSelectors
        (fun _ member => inside.child (List.mem_append_left _ member)) first)
      (Node.keeps_of_lowerValues frame selectors
        (fun _ member => inside.child (List.mem_append_right _ member)) second)
  | .op span symbol operands, inside, ran => by
    rw [Node.lower] at ran
    split at ran
    · next operator known =>
      exact (Operand.operates_of_runFrom ran).frame frame
        (Node.keeps_operands frame operands fun _ member => inside.child member)
    · exact absurd ran runFrom_throw_ne_ok
  | .call _ name args, inside, ran => by
    simp only [Node.lower, runFrom_bind_eq_ok, runFrom_pure_eq_ok] at ran
    obtain ⟨es, _, lowered, -, rfl⟩ := ran
    exact Node.keeps_of_lowerValues frame args (fun _ member => inside.child member) lowered
  | .array _ items, inside, ran => by
    simp only [Node.lower, runFrom_bind_eq_ok, runFrom_pure_eq_ok] at ran
    obtain ⟨es, _, lowered, -, rfl⟩ := ran
    exact Node.keeps_of_lowerValues frame items (fun _ member => inside.child member) lowered
  | .inclusion _ _ (some n), inside, ran => by
    rw [Node.lower, Node.lowerOption] at ran
    exact Node.keeps_of_expr frame n (inside.child (by simp [Node.children])) ran
  | .inclusion _ _ none, _, ran => by
    rw [Node.lower, Node.lowerOption] at ran
    exact absurd (runFrom_pure_eq_ok.1 ran).1 nofun
  | .declare .., _, ran | .block .., _, ran | .forLoop .., _, ran | .whileLoop .., _, ran
  | .ret .., _, ran | .template .., _, ran | .function .., _, ran => by
    simp only [Node.lower, runFrom_bind_eq_ok, runFrom_pure_eq_ok] at ran
    grind

theorem Node.keeps_of_lowerValues (frame : Context.FrameOf root R) {ctx ctx' : Context}
    {es : List Expr} :
    (ns : List Node) → (∀ n ∈ ns, root.Contains n) →
      runFrom ctx (Node.lowerValues ns) = (.ok es, ctx') → R ctx ctx'
  | [], _, ran => by
    rw [Node.lowerValues] at ran
    obtain ⟨-, rfl⟩ := runFrom_pure_eq_ok.1 ran
    exact frame.refl _
  | n :: ns, inside, ran => by
    obtain ⟨e, ctx₁, rest, first, last, -⟩ := runFrom_lowerValues_cons_eq_ok.1 ran
    exact frame.trans (Node.keeps_of_expr frame n (inside n (.head _)) first)
      (Node.keeps_of_lowerValues frame ns (fun m member => inside m (.tail _ member)) last)

/-- So does finding the cell of a target. -/
theorem Node.keeps_of_lowerTarget (frame : Context.FrameOf root R) {ctx ctx' : Context} {span : Span}
    {found : Option Cell} :
    (n : Node) → root.Contains n → runFrom ctx (n.lowerTarget span) = (.ok found, ctx') → R ctx ctx'
  | .declare at' tag name, inside, ran => by
    simp only [Node.lowerTarget, runFrom_bind_eq_ok, runFrom_resolve_eq_ok,
      runFrom_targetOf_eq_ok] at ran
    obtain ⟨_, ctx₁, declared, symbol, _, ⟨-, rfl⟩, -, rfl⟩ := ran
    exact frame.declare inside _ _ _ declared
  | .pin at' component componentSelectors name selectors, inside, ran => by
    simp only [Node.lowerTarget, runFrom_bind_eq_ok, runFrom_resolveComponent_eq_ok,
      runFrom_pure_eq_ok] at ran
    obtain ⟨_, _, ⟨-, rfl⟩, is, ctx₁, first, es, _, second, -, rfl⟩ := ran
    exact frame.trans
      (Node.keeps_of_lowerValues frame componentSelectors
        (fun _ member => inside.child (List.mem_append_left _ member)) first)
      (Node.keeps_of_lowerValues frame selectors
        (fun _ member => inside.child (List.mem_append_right _ member)) second)
  | .var at' name selectors, inside, ran => by
    simp only [Node.lowerTarget, runFrom_bind_eq_ok, runFrom_resolve_eq_ok,
      runFrom_targetOf_eq_ok] at ran
    obtain ⟨es, ctx₁, lowered, symbol, _, ⟨-, rfl⟩, -, rfl⟩ := ran
    exact Node.keeps_of_lowerValues frame selectors (fun _ member => inside.child member) lowered
  | .number .., _, ran | .op .., _, ran | .call .., _, ran | .block .., _, ran
  | .forLoop .., _, ran | .whileLoop .., _, ran | .ret .., _, ran | .template .., _, ran
  | .function .., _, ran | .inclusion .., _, ran | .array .., _, ran => by
    rw [Node.lowerTarget] at ran
    · exact absurd ran runFrom_throw_ne_ok
    all_goals simp

theorem Node.keeps_operands (frame : Context.FrameOf root R) :
    (ns : List Node) → (∀ n ∈ ns, root.Contains n) → ∀ operand ∈ Node.operands ns, operand.Keeps R
  | [], _ => by simp [Node.operands]
  | n :: ns, inside => by
    intro operand member
    rw [Node.operands, List.mem_cons] at member
    rcases member with rfl | member
    · have own := inside n (.head _)
      exact ⟨fun ctx e ctx' ran => Node.keeps_of_expr frame n own (runFrom_valueOf_eq_ok.1 ran),
        fun span ctx found ctx' ran => Node.keeps_of_lowerTarget frame n own ran⟩
    · exact Node.keeps_operands frame ns (fun m member => inside m (.tail _ member)) operand member

end

/-- Lowering a value relates the contexts before and after it by every frame. -/
theorem Node.frame_of_expr (frame : Context.Frame R) {e : Expr} (n : Node)
    (ran : runFrom ctx n.lower = (.ok (.expr e), ctx')) : R ctx ctx' :=
  Node.keeps_of_expr (frame.frameOf n) n .self ran

/-- A node without statements inside it changes a context only by declarations. -/
theorem Node.frame_of_isSimple (frame : Context.Frame R) {n : Node} {fragment : Fragment}
    (simple : n.isSimple = true) (ran : runFrom ctx n.lower = (.ok fragment, ctx')) : R ctx ctx' := by
  cases Node.lowersSimply_of_runFrom simple ran with
  | @operation _ span symbol _ operands _ _ operates =>
    have own : (Node.op span symbol operands).Contains (.op span symbol operands) := .self
    have within := frame.frameOf (.op span symbol operands)
    exact operates.frame within (Node.keeps_operands within operands fun _ => own.child)
  | declaration declared => exact keeps_declareNode frame _ _ _ _ _ _ declared
  | ret lowered => exact Node.frame_of_expr frame _ lowered
  | value lowered => exact Node.frame_of_expr frame _ lowered

theorem Lowering.keeps_params (frame : Context.Frame R) (span : Span) (params : List String) :
    Lowering.Keeps R (params.forM fun param => Lowering.declare param .var span) := by
  induction params with
  | nil =>
    intro ctx u ctx' ran
    obtain ⟨-, rfl⟩ := runFrom_pure_eq_ok.1 ran
    exact frame.refl _
  | cons param params ih =>
    intro ctx u ctx' ran
    rw [List.forM_eq_forM, List.forM_cons] at ran
    simp only [runFrom_bind_eq_ok, runFrom_declare_eq_ok] at ran
    obtain ⟨_, _, ⟨scope, declared, rfl⟩, rest⟩ := ran
    exact frame.trans (frame.declare rfl declared) (ih _ _ _ rest)

end

end ArithCircuit
