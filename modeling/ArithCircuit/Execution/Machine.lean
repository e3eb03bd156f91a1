import ArithCircuit.Field
import ArithCircuit.Program.Expr

set_option autoImplicit false
set_option relaxedAutoImplicit false

/-!
# Machines that run circuits

The library compiles circuits and does not run them; what compiled code means is said here. A
machine supplies the numbers behind the field constants and the answers to calls. Evaluation works
on a memory of addressed cells and keeps a record of its effects in their order, so that statements
about code can speak of what it stores, demands and calls, and in which order.
-/

namespace ArithCircuit

/-- What an expression evaluates to. -/
inductive Datum where
  | number (n : Nat)
  | array (items : List Datum)

instance : Inhabited Datum := ⟨.number 0⟩

/-- A cell whose indices have been evaluated. -/
inductive Address where
  | var (name : String) (indices : List Nat)
  | signal (name : String) (indices : List Nat)
  | pin (component : String) (componentIndices : List Nat) (pin : String) (pinIndices : List Nat)
  deriving DecidableEq, Repr

/-- The contents of all cells. A cell that nothing was stored in holds 0. -/
abbrev Memory := Address → Datum

namespace Memory

/-- The memory in which nothing was stored. -/
def empty : Memory := fun _ => .number 0

/-- The memory after a store. -/
def write (memory : Memory) (address : Address) (value : Datum) : Memory :=
  fun other => if other = address then value else memory other

@[simp] theorem write_self (memory : Memory) (address : Address) (value : Datum) :
    memory.write address value address = value := by
  simp [write]

theorem write_of_ne (memory : Memory) {address other : Address} (h : other ≠ address)
    (value : Datum) : memory.write address value other = memory other := by
  simp [write, h]

end Memory

/-- What code does besides yielding a value. -/
inductive Effect where
  | store (address : Address) (value : Datum)
  /-- A demand that two values are equal. -/
  | equality (lhs rhs : Datum)
  | call (name : String) (args : List Datum)

/-- Why code has no value. -/
inductive EvalError where
  /-- A difference would be negative. -/
  | negative
  /-- A remainder by zero. -/
  | zeroModulus
  /-- An array where a number is wanted. -/
  | notNumber
  /-- A literal that is no decimal number. -/
  | badLiteral (text : String)
  /-- A call that the machine does not answer. -/
  | noAnswer (name : String)
  deriving DecidableEq, Repr

/-- What a circuit runs on. -/
structure Machine where
  field : Field
  /-- The answer to a call, and the memory after it. -/
  answer : String → List Datum → Memory → Except EvalError (Datum × Memory)

namespace Machine

/-- The machine of a field that answers no call. -/
def ofField (field : Field) : Machine := ⟨field, fun name _ _ => .error (.noAnswer name)⟩

/-- The state of a run: the memory and the effects so far, oldest first. -/
structure State where
  memory : Memory
  effects : List Effect

end Machine

/-- A computation on the state of a run. -/
abbrev Eval := StateT Machine.State (Except EvalError)

namespace Eval

/-- The number that a value has to be. -/
def number : Datum → Eval Nat
  | .number n => pure n
  | .array _ => throw .notNumber

/-- The contents of a cell. -/
def load (address : Address) : Eval Datum := do
  let state ← get
  return state.memory address

/-- Store a value in a cell. -/
def store (address : Address) (value : Datum) : Eval Unit :=
  modify fun state =>
    ⟨state.memory.write address value, state.effects ++ [.store address value]⟩

/-- Demand that two values are equal. -/
def demandEqual (lhs rhs : Datum) : Eval Unit :=
  modify fun state => { state with effects := state.effects ++ [.equality lhs rhs] }

/-- Call a function of the machine. -/
def call (machine : Machine) (name : String) (args : List Datum) : Eval Datum := do
  let state ← get
  match machine.answer name args state.memory with
  | .error e => throw e
  | .ok (value, memory) =>
    set (⟨memory, state.effects ++ [.call name args]⟩ : Machine.State)
    return value

end Eval

end ArithCircuit
