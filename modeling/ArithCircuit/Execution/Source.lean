import ArithCircuit.Ast.Node
import ArithCircuit.Field

set_option autoImplicit false
set_option relaxedAutoImplicit false

/-!
# What source trees mean

The meaning of the two parts of the source language that can be told without the compiled code: the
arithmetic on values, by the table of the operators, and the bodies of functions that compute on
plain variables. Nodes beyond these parts have no meaning here.
-/

namespace ArithCircuit

/-- The table of the arithmetic operators. Field operators reduce by the modulus; bitwise operators
are bounded by the mask; a shift by more than 256 leaves nothing. -/
def Operator.value? (field : Field) : Operator → List Nat → Option Nat
  | .add, [a, b] => some ((a + b) % field.prime)
  | .sub, [a, b] => some ((a + field.prime - b) % field.prime)
  | .neg, [a] => some ((field.prime - a) % field.prime)
  | .mul, [a, b] => some (a * b % field.prime)
  | .pow, [a, b] => some (Nat.pow a b % field.prime)
  | .bitAnd, [a, b] => some (a &&& b &&& field.mask)
  | .shl, [a, b] => some (if 256 < b then 0 else a <<< b &&& field.mask)
  | .shr, [a, b] => some (if 256 < b then 0 else a >>> b &&& field.mask)
  | .lt, [a, b] => some (if a < b then 1 else 0)
  | .eq, [a, b] => some (if a = b then 1 else 0)
  | .ternary, [c, a, b] => some (if c = 0 then b else a)
  | _, _ => none

/-- The contents of what references can name, given the indices. -/
structure Environment where
  named : String → List Nat → Nat
  pin : String → List Nat → String → List Nat → Nat

mutual

/-- The value of an arithmetic node. -/
def Node.value? (field : Field) (env : Environment) : Node → Option Nat
  | .number _ n => some n
  | .var _ name selectors => do
    let indices ← Node.values? field env selectors
    return env.named name indices
  | .pin _ component componentSelectors name selectors => do
    let componentIndices ← Node.values? field env componentSelectors
    let indices ← Node.values? field env selectors
    return env.pin component componentIndices name indices
  | .op _ symbol operands => do
    let op ← Operator.ofSymbol? symbol
    let values ← Node.values? field env operands
    op.value? field values
  | _ => none

/-- The values of arithmetic nodes. -/
def Node.values? (field : Field) (env : Environment) : List Node → Option (List Nat)
  | [] => some []
  | n :: ns => do
    let v ← n.value? field env
    let vs ← Node.values? field env ns
    return v :: vs

end

/-! ### Bodies of functions -/

/-- The values of plain variables. -/
abbrev Variables := String → Nat

namespace Variables

/-- The environment in which a plain name has its value and nothing else has any. -/
def environment (vars : Variables) : Environment :=
  ⟨fun name indices => if indices = [] then vars name else 0, fun _ _ _ _ => 0⟩

/-- The variables after an assignment. -/
def assign (vars : Variables) (name : String) (value : Nat) : Variables :=
  fun other => if other = name then value else vars other

/-- The variables at the beginning of a call. -/
def ofArguments (params : List String) (args : List Nat) : Variables :=
  fun name => ((params.zip args).lookup name).getD 0

end Variables

/-- How a part of a body ends. -/
inductive Exit where
  /-- What follows is due. -/
  | next
  | returned (value : Nat)
  /-- A loop has taken all the turns that it may take. -/
  | exhausted
  deriving DecidableEq, Repr

/-- The effect of a part of a body on the variables, if the part has a meaning. -/
abbrev Meaning := Variables → Option (Exit × Variables)

namespace Meaning

/-- The part that does nothing. -/
def skip : Meaning := fun vars => some (.next, vars)

/-- One part after another, unless the first one ends the execution. -/
def andThen (first second : Meaning) : Meaning := fun vars =>
  match first vars with
  | some (.next, vars) => second vars
  | ended => ended

/-- Take turns as long as a condition is not 0, but no more than a number of them. -/
def loop (condition : Variables → Option Nat) (turn : Meaning) : Nat → Meaning
  | 0, vars => do
    let c ← condition vars
    return (if c = 0 then .next else .exhausted, vars)
  | turns + 1, vars => do
    let c ← condition vars
    if c = 0 then return (.next, vars)
    else turn.andThen (loop condition turn turns) vars

end Meaning

namespace Node

/-- The name of a plain or freshly declared variable. -/
def plainTarget? : Node → Option String
  | .var _ name [] => some name
  | .declare _ tag (.var _ name _) =>
    if DeclarationKind.ofTag? tag = some .var then some name else none
  | _ => none

/-- What an assignment does: the target gets a value computed from the variables. -/
def assignment (target : Node) (value : Variables → Option Nat) : Meaning := fun vars => do
  let name ← target.plainTarget?
  let v ← value vars
  return (.next, vars.assign name v)

/-- What an operation does where its own value is not used. -/
def operationMeaning (field : Field) : Operator → List Node → Meaning
  | .assign, [target, value] =>
    assignment target fun vars => value.value? field vars.environment
  | .addAssign, [target, value] =>
    assignment target fun vars => do
      let a ← target.value? field vars.environment
      let b ← value.value? field vars.environment
      return (a + b) % field.prime
  | .mulAssign, [target, value] =>
    assignment target fun vars => do
      let a ← target.value? field vars.environment
      let b ← value.value? field vars.environment
      return a * b % field.prime
  | .preIncrement, [target] =>
    assignment target fun vars => do
      let a ← target.value? field vars.environment
      return (a + 1) % field.prime
  | .postIncrement, [target] =>
    assignment target fun vars => do
      let a ← target.value? field vars.environment
      return (a + 1) % field.prime
  | _, _ => fun _ => none

mutual

/-- What a statement in the body of a function does. -/
def meaning (field : Field) (turns : Nat) : Node → Meaning
  | .block _ statements => meaningAll field turns statements
  | .declare _ tag _ => fun vars =>
    if DeclarationKind.ofTag? tag = some .var then some (.next, vars) else none
  | .op _ symbol operands => fun vars => do
    let op ← Operator.ofSymbol? symbol
    operationMeaning field op operands vars
  | .forLoop _ init condition step body =>
    (meaning field turns init).andThen <|
      Meaning.loop (fun vars => condition.value? field vars.environment)
        ((meaning field turns body).andThen (meaning field turns step)) turns
  | .whileLoop _ condition body =>
    Meaning.loop (fun vars => condition.value? field vars.environment)
      (meaning field turns body) turns
  | .ret _ value => fun vars => do
    let v ← value.value? field vars.environment
    return (.returned v, vars)
  | _ => fun _ => none

/-- What statements do one after the other. -/
def meaningAll (field : Field) (turns : Nat) : List Node → Meaning
  | [] => Meaning.skip
  | n :: ns => (meaning field turns n).andThen (meaningAll field turns ns)

end

end Node

end ArithCircuit
