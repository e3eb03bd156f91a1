import ArithCircuit.Execution.Machine
import ArithCircuit.Program.Circuit

set_option autoImplicit false
set_option relaxedAutoImplicit false

/-!
# Running compiled code

`Expr.eval` gives the value of an expression: operands from left to right, indices before the value
that is stored, and of a choice only the chosen part. `Stmt.run` executes a statement; the number of
turns of each loop is bounded, and a run that reaches the bound says so.
-/

namespace ArithCircuit

/-- The number of a truth value. -/
def flag (b : Bool) : Nat := if b then 1 else 0

/-- The result of an operation on naturals. Differences have to be natural, too. -/
def BigIntOp.apply : BigIntOp → Nat → Nat → Except EvalError Nat
  | .add, a, b => .ok (a + b)
  | .sub, a, b => if a < b then .error .negative else .ok (a - b)
  | .mul, a, b => .ok (a * b)
  | .mod, a, b => if b = 0 then .error .zeroModulus else .ok (a % b)
  | .bitAnd, a, b => .ok (a &&& b)
  | .shl, a, b => .ok (a <<< b)
  | .shr, a, b => .ok (a >>> b)
  | .lt, a, b => .ok (flag (a < b))
  | .gt, a, b => .ok (flag (b < a))
  | .eq, a, b => .ok (flag (a = b))
  | .ne, a, b => .ok (flag (a ≠ b))

mutual

/-- The value of an expression. -/
def Expr.eval (machine : Machine) : Expr → Eval Datum
  | .number text =>
    match Decimal.value? text with
    | some n => return .number n
    | none => throw (.badLiteral text)
  | .prime => return .number machine.field.prime
  | .mask => return .number machine.field.mask
  | .binary op lhs rhs => do
    let a ← (lhs.eval machine) >>= Eval.number
    let b ← (rhs.eval machine) >>= Eval.number
    let n ← op.apply a b
    return .number n
  | .modPow base exponent modulus => do
    let a ← (base.eval machine) >>= Eval.number
    let b ← (exponent.eval machine) >>= Eval.number
    let m ← (modulus.eval machine) >>= Eval.number
    if m = 0 then throw .zeroModulus
    else return .number (Nat.pow a b % m)
  | .select condition whenTrue whenFalse => do
    let c ← (condition.eval machine) >>= Eval.number
    if c = 0 then whenFalse.eval machine else whenTrue.eval machine
  | .get cell => do
    let address ← cell.address machine
    Eval.load address
  | .set cell value => do
    let address ← cell.address machine
    let v ← value.eval machine
    Eval.store address v
    return v
  | .assertEqual lhs rhs => do
    let a ← lhs.eval machine
    let b ← rhs.eval machine
    Eval.demandEqual a b
    return a
  | .call name args => do
    let values ← Expr.evalAll machine args
    Eval.call machine name values
  | .array items => do
    let values ← Expr.evalAll machine items
    return .array values

/-- The address of a cell. -/
def Cell.address (machine : Machine) : Cell → Eval Address
  | .var name indices => do
    let is ← Expr.evalIndices machine indices
    return .var name is
  | .signal name indices => do
    let is ← Expr.evalIndices machine indices
    return .signal name is
  | .pin component componentIndices pin pinIndices => do
    let is ← Expr.evalIndices machine componentIndices
    let js ← Expr.evalIndices machine pinIndices
    return .pin component is pin js

/-- The values of expressions. -/
def Expr.evalAll (machine : Machine) : List Expr → Eval (List Datum)
  | [] => return []
  | e :: es => do
    let v ← e.eval machine
    let vs ← Expr.evalAll machine es
    return v :: vs

/-- The values of indices. -/
def Expr.evalIndices (machine : Machine) : List Expr → Eval (List Nat)
  | [] => return []
  | e :: es => do
    let i ← (e.eval machine) >>= Eval.number
    let is ← Expr.evalIndices machine es
    return i :: is

end

/-- How the execution of a statement ends. -/
inductive Outcome where
  /-- The next statement is due. -/
  | next
  | returned (value : Datum)
  /-- A loop has taken all the turns that it may take. -/
  | exhausted

/-- One run after another, unless the first one ends the execution. -/
def Eval.andThen (first second : Eval Outcome) : Eval Outcome := do
  match ← first with
  | .next => second
  | .returned value => return .returned value
  | .exhausted => return .exhausted

/-- Take turns as long as a condition is not 0, but no more than a number of them. -/
def Eval.loop (condition : Eval Nat) (turn : Eval Outcome) : Nat → Eval Outcome
  | 0 => do
    let c ← condition
    return if c = 0 then .next else .exhausted
  | turns + 1 => do
    let c ← condition
    if c = 0 then return .next
    else turn.andThen (Eval.loop condition turn turns)

mutual

/-- Execute a statement. -/
def Stmt.run (machine : Machine) (turns : Nat) : Stmt → Eval Outcome
  | .expr e => do
    let _ ← e.eval machine
    return .next
  | .block body => Stmt.runAll machine turns body
  | .forLoop init condition step body =>
    (Stmt.runOption machine turns init).andThen <|
      Eval.loop (condition.eval machine >>= Eval.number)
        ((body.run machine turns).andThen (Stmt.runOption machine turns step)) turns
  | .whileLoop condition body =>
    Eval.loop (condition.eval machine >>= Eval.number) (body.run machine turns) turns
  | .ret e => do
    let v ← e.eval machine
    return .returned v

/-- Execute a loop clause, which may be absent. -/
def Stmt.runOption (machine : Machine) (turns : Nat) : Option Stmt → Eval Outcome
  | none => return .next
  | some s => s.run machine turns

/-- Execute statements one after the other. -/
def Stmt.runAll (machine : Machine) (turns : Nat) : List Stmt → Eval Outcome
  | [] => return .next
  | s :: ss => (s.run machine turns).andThen (Stmt.runAll machine turns ss)

end

end ArithCircuit
