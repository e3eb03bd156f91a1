import ArithCircuit.Proofs.FieldSemantics

set_option autoImplicit false
set_option relaxedAutoImplicit false

/-!
# Bodies that compute on plain variables

The statements of a function that computes on variables without indices: declarations, assignments,
updates, increments, loops and returns over arithmetic values. A name may be used once it is known: as
a parameter, as a variable around the function, or from its declaration on.
-/

namespace ArithCircuit

/-! ### Names that stand for variables -/

namespace Scope

/-- The names of a list all stand for variables. -/
def HasVariables (scope : Scope) (names : List String) : Prop :=
  ∀ name ∈ names, (scope.lookup? name).map Symbol.kind = some .var

/-- Declaring a variable keeps all variables and adds one. -/
theorem HasVariables.declare {scope scope' : Scope} {names : List String} {name : String}
    {span : Span} (holds : scope.HasVariables names)
    (declared : scope.declare name ⟨.var, span⟩ = .ok scope') :
    scope'.HasVariables (name :: names) := by
  intro other member
  rw [lookup?_of_declare declared]
  split
  · rfl
  · next different =>
    exact holds other ((List.mem_cons.1 member).resolve_left different)

end Scope

/-! ### The bodies that compute on plain variables -/

mutual

/-- Whether a node is made of literals below a bound, plain names that are known and operators that
compute a value. -/
def Node.isPlain (bound : Nat) (known : List String) : Node → Bool
  | .number _ n => n < bound
  | .var _ name [] => name ∈ known
  | .op _ symbol operands =>
    (Operator.ofSymbol? symbol).any Operator.isArithmetic && Node.allPlain bound known operands
  | _ => false

/-- Whether all nodes are plain values. -/
def Node.allPlain (bound : Nat) (known : List String) : List Node → Bool
  | [] => true
  | n :: ns => n.isPlain bound known && Node.allPlain bound known ns

end

/-- The targets of assignments: a known name, or the declaration of a variable. With the names that
are known before go the name that is stored under and the names that are known from then on. -/
inductive Node.IsPlainTarget : List String → Node → String → List String → Prop where
  | known {known : List String} {name : String} {span : Span} :
      name ∈ known → IsPlainTarget known (.var span name []) name known
  | fresh {known : List String} {name tag : String} {span at' : Span} {dimensions : List Node} :
      DeclarationKind.ofTag? tag = some .var →
      IsPlainTarget known (.declare span tag (.var at' name dimensions)) name (name :: known)

/-- The statements that compute on plain variables. With the names that are known before go those
that are known afterwards, in the order in which the parts of a loop are lowered. -/
inductive Node.Computes (bound : Nat) : List String → Node → List String → Prop where
  | declare {known : List String} {name tag : String} {span at' : Span} {dimensions : List Node} :
      DeclarationKind.ofTag? tag = some .var →
      Computes bound known (.declare span tag (.var at' name dimensions)) (name :: known)
  | assign {known known' : List String} {name symbol : String} {span : Span} {target value : Node} :
      Operator.ofSymbol? symbol = some .assign → target.IsPlainTarget known name known' →
      value.isPlain bound known' = true →
      Computes bound known (.op span symbol [target, value]) known'
  | update {known : List String} {op : Operator} {combine : Expr → Expr → Expr}
      {name symbol : String} {span at' : Span} {value : Node} :
      Operator.ofSymbol? symbol = some op → op.update? = some combine → name ∈ known →
      value.isPlain bound known = true →
      Computes bound known (.op span symbol [.var at' name [], value]) known
  | increment {known : List String} {op : Operator} {name symbol : String} {span at' : Span} :
      Operator.ofSymbol? symbol = some op → op = .preIncrement ∨ op = .postIncrement →
      name ∈ known → Computes bound known (.op span symbol [.var at' name []]) known
  | forLoop {known known₁ known₂ known₃ : List String} {span : Span}
      {init condition step body : Node} :
      Computes bound known init known₁ → condition.isPlain bound known₁ = true →
      Computes bound known₁ step known₂ → Computes bound known₂ body known₃ →
      Computes bound known (.forLoop span init condition step body) known₃
  | whileLoop {known known' : List String} {span : Span} {condition body : Node} :
      condition.isPlain bound known = true → Computes bound known body known' →
      Computes bound known (.whileLoop span condition body) known'
  | ret {known : List String} {span : Span} {value : Node} :
      value.isPlain bound known = true → Computes bound known (.ret span value) known
  | blockNil {known : List String} {span : Span} : Computes bound known (.block span []) known
  | blockCons {known known₁ known₂ : List String} {span : Span} {n : Node} {ns : List Node} :
      Computes bound known n known₁ → Computes bound known₁ (.block span ns) known₂ →
      Computes bound known (.block span (n :: ns)) known₂

mutual

/-- Plain values are arithmetic. -/
theorem Node.isArithmetic_of_isPlain {bound : Nat} {known : List String} :
    (n : Node) → n.isPlain bound known = true → n.isArithmetic bound = true
  | .number _ n, plain => plain
  | .var _ name [], _ => rfl
  | .op _ symbol operands, plain => by
    simp only [Node.isPlain, Bool.and_eq_true] at plain
    simp only [Node.isArithmetic, Bool.and_eq_true]
    exact ⟨plain.1, Node.allArithmetic_of_allPlain operands plain.2⟩
  | .var _ _ (_ :: _), plain | .pin .., plain | .declare .., plain | .call .., plain
  | .block .., plain | .forLoop .., plain | .whileLoop .., plain | .ret .., plain
  | .template .., plain | .function .., plain | .inclusion .., plain | .array .., plain => by
    simp [Node.isPlain] at plain

theorem Node.allArithmetic_of_allPlain {bound : Nat} {known : List String} :
    (ns : List Node) → Node.allPlain bound known ns = true → Node.allArithmetic bound ns = true
  | [], _ => rfl
  | n :: ns, plain => by
    simp only [Node.allPlain, Bool.and_eq_true] at plain
    simp only [Node.allArithmetic, Bool.and_eq_true]
    exact ⟨n.isArithmetic_of_isPlain plain.1, Node.allArithmetic_of_allPlain ns plain.2⟩

end

section

variable {field : Field} {bound : Nat} {known : List String} {env env' : Environment}

mutual

/-- The value of a plain node depends on the known names only. -/
theorem Node.value?_congr (same : ∀ name ∈ known, env.named name [] = env'.named name []) :
    (n : Node) → n.isPlain bound known = true → n.value? field env = n.value? field env'
  | .number _ n, _ => by rw [Node.value?, Node.value?]
  | .var _ name [], plain => by
    have member : name ∈ known := by simpa [Node.isPlain] using plain
    simp only [Node.value?, Node.values?, Option.bind_eq_bind, Option.bind_some, same name member]
  | .op _ symbol operands, plain => by
    simp only [Node.isPlain, Bool.and_eq_true] at plain
    rw [Node.value?, Node.value?, Node.values?_congr same operands plain.2]
  | .var _ _ (_ :: _), plain | .pin .., plain | .declare .., plain | .call .., plain
  | .block .., plain | .forLoop .., plain | .whileLoop .., plain | .ret .., plain
  | .template .., plain | .function .., plain | .inclusion .., plain | .array .., plain => by
    simp [Node.isPlain] at plain

theorem Node.values?_congr (same : ∀ name ∈ known, env.named name [] = env'.named name []) :
    (ns : List Node) → Node.allPlain bound known ns = true →
      Node.values? field env ns = Node.values? field env' ns
  | [], _ => by rw [Node.values?, Node.values?]
  | n :: ns, plain => by
    simp only [Node.allPlain, Bool.and_eq_true] at plain
    rw [Node.values?, Node.values?, n.value?_congr same plain.1,
      Node.values?_congr same ns plain.2]

end

end

end ArithCircuit
