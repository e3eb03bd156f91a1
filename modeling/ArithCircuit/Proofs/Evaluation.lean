import ArithCircuit.Execution.Code
import Mathlib.Data.List.Forall2
import ArithCircuit.Execution.Source
import ArithCircuit.Proofs.Runs

set_option autoImplicit false
set_option relaxedAutoImplicit false

/-!
# Values of lowered arithmetic

`Expr.Yields` says that an expression has a number as its value and that evaluating it does nothing
else. The arithmetic of each operator yields what the table of the operators says, provided that no
operand exceeds the modulus: this is what keeps differences natural. Main statement:
`Operator.combine?_yields`.
-/

namespace ArithCircuit

namespace Eval

variable {α β : Type} {s s' : Machine.State}

theorem run_bind_of_ok {step : Eval α} {next : α → Eval β} {a : α}
    (h : step.run s = .ok (a, s')) : (step >>= next).run s = (next a).run s' := by
  rw [StateT.run_bind, h]
  rfl

end Eval

/-- Evaluating an expression from a state gives a number and leads to another state. -/
def Expr.Gives (machine : Machine) (s : Machine.State) (e : Expr) (v : Nat) (s' : Machine.State) :
    Prop :=
  (e.eval machine).run s = .ok (.number v, s')

/-- Evaluating an expression over a memory yields a number and changes nothing. -/
def Expr.Yields (machine : Machine) (memory : Memory) (e : Expr) (v : Nat) : Prop :=
  ∀ effects, e.Gives machine ⟨memory, effects⟩ v ⟨memory, effects⟩

/-- Finding the address of a cell over a memory succeeds and changes nothing. -/
def Cell.Finds (machine : Machine) (memory : Memory) (cell : Cell) (address : Address) : Prop :=
  ∀ effects, (cell.address machine).run ⟨memory, effects⟩ = .ok (address, ⟨memory, effects⟩)

section

variable {machine : Machine} {memory : Memory} {s s₁ s₂ s₃ : Machine.State}

namespace Expr

variable {a b c e : Expr} {x y z v : Nat}

/-- As a step of an evaluation, an expression that gives a number supplies this number. -/
theorem Gives.run_number (h : a.Gives machine s x s₁) :
    (a.eval machine >>= Eval.number).run s = .ok (x, s₁) := by
  rw [Eval.run_bind_of_ok h]
  rfl

theorem gives_ofNat (n : Nat) : (ofNat n).Gives machine s n s := by
  simp only [Gives, ofNat, eval, Decimal.value?_text]
  rfl

theorem gives_prime : Expr.prime.Gives machine s machine.field.prime s := by
  rw [Gives, eval]
  rfl

theorem gives_mask : Expr.mask.Gives machine s machine.field.mask s := by
  rw [Gives, eval]
  rfl

theorem Gives.binary {op : BigIntOp} (ha : a.Gives machine s x s₁) (hb : b.Gives machine s₁ y s₂)
    (applied : op.apply x y = .ok v) : (Expr.binary op a b).Gives machine s v s₂ := by
  rw [Gives, eval, Eval.run_bind_of_ok ha.run_number, Eval.run_bind_of_ok hb.run_number, applied]
  rfl

theorem Gives.modPow (ha : a.Gives machine s x s₁) (hb : b.Gives machine s₁ y s₂)
    (hc : c.Gives machine s₂ z s₃) (nonzero : z ≠ 0) :
    (Expr.modPow a b c).Gives machine s (Nat.pow x y % z) s₃ := by
  rw [Gives, eval, Eval.run_bind_of_ok ha.run_number, Eval.run_bind_of_ok hb.run_number,
    Eval.run_bind_of_ok hc.run_number, if_neg nonzero]
  rfl

/-- Of a choice only the chosen part matters. -/
theorem Gives.select (hc : c.Gives machine s z s₁)
    (chosen : (if z = 0 then b else a).Gives machine s₁ v s₂) :
    (Expr.select c a b).Gives machine s v s₂ := by
  rw [Gives, eval, Eval.run_bind_of_ok hc.run_number]
  split
  · next zero => rwa [if_pos zero] at chosen
  · next nonzero => rwa [if_neg nonzero] at chosen

/-- A store gives the value stored. -/
theorem Gives.set {cell : Cell} {address : Address} (found : cell.Finds machine memory address)
    {effects : List Effect} (he : e.Gives machine ⟨memory, effects⟩ v s) :
    (Expr.set cell e).Gives machine ⟨memory, effects⟩ v
      ⟨s.memory.write address (.number v), s.effects ++ [.store address (.number v)]⟩ := by
  rw [Gives, eval, Eval.run_bind_of_ok (found effects), Eval.run_bind_of_ok he]
  rfl

/-- Indices that yield numbers are evaluated to them. -/
theorem run_evalIndices {es : List Expr} {vs : List Nat}
    (each : List.Forall₂ (Yields machine memory) es vs) (effects : List Effect) :
    (evalIndices machine es).run ⟨memory, effects⟩ = .ok (vs, ⟨memory, effects⟩) := by
  induction each with
  | nil => rw [evalIndices]; rfl
  | cons first _ ih =>
    rw [evalIndices, Eval.run_bind_of_ok (first effects).run_number, Eval.run_bind_of_ok ih]
    rfl

end Expr

namespace Cell

/-- Reading a cell yields the number that its address holds. -/
theorem Finds.yields_get {cell : Cell} {address : Address} {v : Nat}
    (found : cell.Finds machine memory address) (held : memory address = .number v) :
    (Expr.get cell).Yields machine memory v := by
  intro effects
  rw [Expr.Gives, Expr.eval, Eval.run_bind_of_ok (found effects), ← held]
  rfl

variable {es is : List Expr} {vs ws : List Nat}

theorem finds_var (name : String) (each : List.Forall₂ (Expr.Yields machine memory) es vs) :
    (Cell.var name es).Finds machine memory (.var name vs) := by
  intro effects
  rw [address, Eval.run_bind_of_ok (Expr.run_evalIndices each effects)]
  rfl

theorem finds_signal (name : String) (each : List.Forall₂ (Expr.Yields machine memory) es vs) :
    (Cell.signal name es).Finds machine memory (.signal name vs) := by
  intro effects
  rw [address, Eval.run_bind_of_ok (Expr.run_evalIndices each effects)]
  rfl

theorem finds_pin (component pin : String)
    (first : List.Forall₂ (Expr.Yields machine memory) is ws)
    (second : List.Forall₂ (Expr.Yields machine memory) es vs) :
    (Cell.pin component is pin es).Finds machine memory (.pin component ws pin vs) := by
  intro effects
  rw [address, Eval.run_bind_of_ok (Expr.run_evalIndices first effects),
    Eval.run_bind_of_ok (Expr.run_evalIndices second effects)]
  rfl

end Cell

end

/-! ### The arithmetic of the operators -/

namespace Arithmetic

open ArithCircuit.Expr

section

variable {machine : Machine} {s s₁ s₂ : Machine.State} {a b : Expr} {x y : Nat}

theorem gives_reduce (nonzero : machine.field.prime ≠ 0) (ha : a.Gives machine s x s₁) :
    (reduce a).Gives machine s (x % machine.field.prime) s₁ :=
  ha.binary gives_prime (by simp only [BigIntOp.apply, if_neg nonzero])

theorem gives_masked (ha : a.Gives machine s x s₁) :
    (masked a).Gives machine s (x &&& machine.field.mask) s₁ :=
  ha.binary gives_mask rfl

theorem gives_add (nonzero : machine.field.prime ≠ 0) (ha : a.Gives machine s x s₁)
    (hb : b.Gives machine s₁ y s₂) :
    (add a b).Gives machine s ((x + y) % machine.field.prime) s₂ :=
  gives_reduce nonzero (ha.binary hb rfl)

/-- A difference has a value as long as the number taken away is no larger than what is there. -/
theorem gives_sub (nonzero : machine.field.prime ≠ 0) (ha : a.Gives machine s x s₁)
    (hb : b.Gives machine s₁ y s₂) (fits : y ≤ x + machine.field.prime) :
    (sub a b).Gives machine s ((x + machine.field.prime - y) % machine.field.prime) s₂ := by
  have raised : (Expr.binary .add a .prime).Gives machine s (x + machine.field.prime) s₁ :=
    ha.binary gives_prime rfl
  refine gives_reduce nonzero (raised.binary hb ?_)
  simp only [BigIntOp.apply, if_neg (Nat.not_lt.2 fits)]

theorem gives_neg (nonzero : machine.field.prime ≠ 0) (ha : a.Gives machine s x s₁)
    (fits : x ≤ machine.field.prime) :
    (neg a).Gives machine s ((machine.field.prime - x) % machine.field.prime) s₁ := by
  refine gives_reduce nonzero (gives_prime.binary ha ?_)
  simp only [BigIntOp.apply, if_neg (Nat.not_lt.2 fits)]

theorem gives_mul (nonzero : machine.field.prime ≠ 0) (ha : a.Gives machine s x s₁)
    (hb : b.Gives machine s₁ y s₂) :
    (mul a b).Gives machine s (x * y % machine.field.prime) s₂ :=
  gives_reduce nonzero (ha.binary hb rfl)

theorem gives_pow (nonzero : machine.field.prime ≠ 0) (ha : a.Gives machine s x s₁)
    (hb : b.Gives machine s₁ y s₂) :
    (pow a b).Gives machine s (Nat.pow x y % machine.field.prime) s₂ :=
  ha.modPow hb gives_prime nonzero

theorem gives_bitAnd (ha : a.Gives machine s x s₁) (hb : b.Gives machine s₁ y s₂) :
    (bitAnd a b).Gives machine s (x &&& y &&& machine.field.mask) s₂ :=
  gives_masked (ha.binary hb rfl)

theorem gives_lt (ha : a.Gives machine s x s₁) (hb : b.Gives machine s₁ y s₂) :
    (lt a b).Gives machine s (if x < y then 1 else 0) s₂ :=
  ha.binary hb (by simp [BigIntOp.apply, flag])

theorem gives_eq (ha : a.Gives machine s x s₁) (hb : b.Gives machine s₁ y s₂) :
    (eq a b).Gives machine s (if x = y then 1 else 0) s₂ :=
  ha.binary hb (by simp [BigIntOp.apply, flag])

end

section

variable {machine : Machine} {memory : Memory} {a b c : Expr} {x y z : Nat}

/-- A shift leaves nothing beyond the limit and is masked up to it. The amount is evaluated a second
time up to the limit, so it must not have effects. -/
theorem yields_boundedShift {op : BigIntOp} {shifted : Nat} (ha : a.Yields machine memory x)
    (hb : b.Yields machine memory y) (applied : op.apply x y = .ok shifted) :
    (boundedShift op a b).Yields machine memory
      (if 256 < y then 0 else shifted &&& machine.field.mask) := by
  intro effects
  have tooFar : (Expr.binary .gt b (.ofNat shiftLimit)).Gives machine ⟨memory, effects⟩
      (flag (256 < y)) ⟨memory, effects⟩ := (hb effects).binary (gives_ofNat shiftLimit) rfl
  apply tooFar.select
  by_cases far : 256 < y
  · simpa [far, flag] using gives_ofNat 0
  · simpa [far, flag] using gives_masked ((ha effects).binary (hb effects) applied)

theorem yields_shl (ha : a.Yields machine memory x) (hb : b.Yields machine memory y) :
    (shl a b).Yields machine memory (if 256 < y then 0 else x <<< y &&& machine.field.mask) :=
  yields_boundedShift ha hb rfl

theorem yields_shr (ha : a.Yields machine memory x) (hb : b.Yields machine memory y) :
    (shr a b).Yields machine memory (if 256 < y then 0 else x >>> y &&& machine.field.mask) :=
  yields_boundedShift ha hb rfl

theorem yields_ternary (hc : c.Yields machine memory z) (ha : a.Yields machine memory x)
    (hb : b.Yields machine memory y) :
    (ternary c a b).Yields machine memory (if z = 0 then y else x) := by
  intro effects
  have truthy : (Expr.binary .ne c (.ofNat 0)).Gives machine ⟨memory, effects⟩
      (flag (z ≠ 0)) ⟨memory, effects⟩ := (hc effects).binary (gives_ofNat 0) rfl
  apply truthy.select
  by_cases zero : z = 0
  · simpa [zero, flag] using hb effects
  · simpa [zero, flag] using ha effects

end

end Arithmetic

namespace Operator

open Arithmetic

variable {machine : Machine} {memory : Memory}

/-- The code of an operator on two values yields what the table says, if the second value does not
exceed the modulus. -/
theorem binary?_yields {op : Operator} {combine : Expr → Expr → Expr} {a b : Expr} {x y : Nat}
    (binary : Arithmetic.binary? op = some combine) (nonzero : machine.field.prime ≠ 0)
    (ha : a.Yields machine memory x) (hb : b.Yields machine memory y)
    (fits : y ≤ machine.field.prime) :
    ∃ v, op.value? machine.field [x, y] = some v ∧ (combine a b).Yields machine memory v := by
  cases op <;> cases binary
  case add => exact ⟨_, rfl, fun effects => gives_add nonzero (ha effects) (hb effects)⟩
  case sub =>
    exact ⟨_, rfl, fun effects => gives_sub nonzero (ha effects) (hb effects) (by omega)⟩
  case mul => exact ⟨_, rfl, fun effects => gives_mul nonzero (ha effects) (hb effects)⟩
  case pow => exact ⟨_, rfl, fun effects => gives_pow nonzero (ha effects) (hb effects)⟩
  case bitAnd => exact ⟨_, rfl, fun effects => gives_bitAnd (ha effects) (hb effects)⟩
  case shl => exact ⟨_, rfl, yields_shl ha hb⟩
  case shr => exact ⟨_, rfl, yields_shr ha hb⟩
  case lt => exact ⟨_, rfl, fun effects => gives_lt (ha effects) (hb effects)⟩
  case eq => exact ⟨_, rfl, fun effects => gives_eq (ha effects) (hb effects)⟩

/-- The code of an arithmetic operator yields what the table says, if no operand exceeds the
modulus. -/
theorem combine?_yields {op : Operator} {es : List Expr} {e : Expr} {vs : List Nat}
    (combined : op.combine? es = some e) (nonzero : machine.field.prime ≠ 0)
    (each : List.Forall₂ (Expr.Yields machine memory) es vs)
    (fits : ∀ v ∈ vs, v ≤ machine.field.prime) :
    ∃ v, op.value? machine.field vs = some v ∧ e.Yields machine memory v := by
  unfold combine? at combined
  split at combined
  case h_1 a =>
    cases combined
    obtain _ | ⟨ha, ⟨⟩⟩ := each
    exact ⟨_, rfl, fun effects => gives_neg nonzero (ha effects) (fits _ (by simp))⟩
  case h_2 c a b =>
    cases combined
    obtain _ | ⟨hc, _ | ⟨ha, _ | ⟨hb, ⟨⟩⟩⟩⟩ := each
    exact ⟨_, rfl, yields_ternary hc ha hb⟩
  case h_3 a b _ _ =>
    obtain ⟨combine, binary, rfl⟩ := Option.map_eq_some_iff.1 combined
    obtain _ | ⟨ha, _ | ⟨hb, ⟨⟩⟩⟩ := each
    exact binary?_yields binary nonzero ha hb (fits _ (by simp))
  case h_4 => cases combined

end Operator

end ArithCircuit
