import ArithCircuit.Proofs.Derivations
import ArithCircuit.Proofs.Traces

set_option autoImplicit false
set_option relaxedAutoImplicit false

/-!
# The order in which operands are evaluated

The operators of two values evaluate the left operand and then the right one, each once, with two
exceptions. A shift evaluates its amount first, to compare it with the limit, and goes on to the value
and once more to the amount only within the limit. Main statement: `Node.performs_iff_of_lower`.
-/

namespace ArithCircuit

open Lowering

/-! ### Two numbers in order -/

namespace Eval

/-- Take two numbers, the left one first, and combine them. -/
def inOrder (left right : Eval Nat) (result : Nat → Nat → Except EvalError Nat) : Eval Datum := do
  let x ← left
  let y ← right
  let n ← result x y
  return .number n

/-- Take the right number first. Beyond the limit this is all, and the result is 0; otherwise both
numbers are taken in order, the right one a second time. -/
def boundedInOrder (left right : Eval Nat) (result : Nat → Nat → Except EvalError Nat) :
    Eval Datum := do
  let amount ← right
  if Arithmetic.shiftLimit < amount then return .number 0 else inOrder left right result

variable {left right : Eval Nat} {result : Nat → Nat → Except EvalError Nat} {s s' : Machine.State}
  {effects : List Effect} {v : Datum}

theorem appends_inOrder (first : left.Appends) (second : right.Appends) :
    (inOrder left right result).Appends :=
  first.bind fun _ => second.bind fun _ => (appends_lift _).bind fun _ => appends_pure _

theorem performs_inOrder_iff (first : left.Appends) (second : right.Appends) :
    (inOrder left right result).Performs s effects v s' ↔
      ∃ x s₁ y before after n, left.Performs s before x s₁ ∧ right.Performs s₁ after y s' ∧
        effects = before ++ after ∧ result x y = .ok n ∧ v = .number n := by
  have combined : ∀ x y s₂ s' rest v, Performs (do
      let n ← (liftM (result x y) : Eval Nat)
      return Datum.number n) s₂ rest v s' ↔
        ∃ n, result x y = .ok n ∧ rest = [] ∧ v = .number n ∧ s' = s₂ := by
    intro x y s₂ s' rest v
    cases result x y with
    | error e =>
      constructor
      · rintro ⟨⟨⟩, -⟩
      · rintro ⟨n, ⟨⟩, -⟩
    | ok n =>
      have done : (do
        let n ← (liftM (Except.ok n : Except EvalError Nat) : Eval Nat)
        return Datum.number n) = (pure (.number n) : Eval Datum) := rfl
      rw [done, performs_pure_iff]
      simp
  have last : ∀ x y, Appends (do
      let n ← (liftM (result x y) : Eval Nat)
      return Datum.number n) := fun x y => (appends_lift _).bind fun _ => appends_pure _
  rw [inOrder, performs_bind_iff first fun x => second.bind (last x)]
  constructor
  · rintro ⟨x, s₁, before, rest, taken, others, rfl⟩
    obtain ⟨y, s₂, after, nothing, taken', done, rfl⟩ :=
      (performs_bind_iff second (last x)).1 others
    obtain ⟨n, defined, rfl, rfl, rfl⟩ := (combined x y s₂ s' nothing v).1 done
    exact ⟨x, s₁, y, before, after, n, taken, taken', by rw [List.append_nil], defined, rfl⟩
  · rintro ⟨x, s₁, y, before, after, n, taken, taken', rfl, defined, rfl⟩
    refine ⟨x, s₁, before, after, taken, (performs_bind_iff second (last x)).2 ?_, rfl⟩
    exact ⟨y, s', after, [], taken', (combined x y s' s' [] _).2 ⟨n, defined, rfl, rfl, rfl⟩,
      (List.append_nil _).symm⟩

theorem performs_boundedInOrder_iff (first : left.Appends) (second : right.Appends) :
    (boundedInOrder left right result).Performs s effects v s' ↔
      ∃ y s₁ before, right.Performs s before y s₁ ∧
        (Arithmetic.shiftLimit < y ∧ effects = before ∧ v = .number 0 ∧ s' = s₁ ∨
          y ≤ Arithmetic.shiftLimit ∧
            ∃ after, (inOrder left right result).Performs s₁ after v s' ∧
              effects = before ++ after) := by
  have rest : ∀ amount, Appends (if Arithmetic.shiftLimit < amount then pure (Datum.number 0)
      else inOrder left right result) := by
    intro amount
    split
    · exact appends_pure _
    · exact appends_inOrder first second
  rw [boundedInOrder, performs_bind_iff second rest]
  constructor
  · rintro ⟨y, s₁, before, after, taken, others, rfl⟩
    refine ⟨y, s₁, before, taken, ?_⟩
    split at others
    · next beyond =>
      obtain ⟨rfl, rfl, rfl⟩ := performs_pure_iff.1 others
      exact .inl ⟨beyond, List.append_nil _, rfl, rfl⟩
    · next within => exact .inr ⟨Nat.not_lt.1 within, after, others, rfl⟩
  · rintro ⟨y, s₁, before, taken, ⟨beyond, rfl, rfl, rfl⟩ | ⟨within, after, others, rfl⟩⟩
    · refine ⟨y, s', effects, [], taken, ?_, (List.append_nil _).symm⟩
      rw [if_pos beyond]
      exact performs_pure_iff.2 ⟨rfl, rfl, rfl⟩
    · refine ⟨y, s₁, before, after, taken, ?_, rfl⟩
      rwa [if_neg (Nat.not_lt.2 within)]

end Eval

/-! ### The code of the operators -/

/-- The value of an expression, which has to be a number. -/
def Expr.evalNumber (machine : Machine) (e : Expr) : Eval Nat := e.eval machine >>= Eval.number

theorem Expr.appends_evalNumber (machine : Machine) (e : Expr) : (e.evalNumber machine).Appends :=
  (e.appends_eval machine).bind Eval.appends_number

theorem Expr.performs_evalNumber_iff {machine : Machine} {e : Expr} {s s' : Machine.State}
    {effects : List Effect} {x : Nat} :
    (e.evalNumber machine).Performs s effects x s' ↔
      (e.eval machine).Performs s effects (.number x) s' := by
  rw [evalNumber, Eval.performs_bind_iff (e.appends_eval machine) Eval.appends_number]
  constructor
  · rintro ⟨v, s₁, before, after, performed, done, rfl⟩
    cases v with
    | number n =>
      obtain ⟨rfl, rfl, rfl⟩ := Eval.performs_pure_iff.1 done
      rwa [List.append_nil]
    | array items => exact absurd done.1 nofun
  · intro performed
    exact ⟨_, s', effects, [], performed, Eval.performs_pure_iff.2 ⟨rfl, rfl, rfl⟩,
      (List.append_nil _).symm⟩

namespace Arithmetic

open Eval (inOrder boundedInOrder)

variable {machine : Machine} {a b c k : Expr} {left right : Eval Nat} {m : Nat}
  {result : Nat → Nat → Except EvalError Nat}

theorem evalNumber_prime : Expr.prime.evalNumber machine = pure machine.field.prime := by
  rw [Expr.evalNumber, Expr.eval]
  rfl

theorem evalNumber_mask : Expr.mask.evalNumber machine = pure machine.field.mask := by
  rw [Expr.evalNumber, Expr.eval]
  rfl

theorem evalNumber_ofNat (n : Nat) : (Expr.ofNat n).evalNumber machine = pure n := by
  rw [Expr.evalNumber, Expr.ofNat, Expr.eval, Decimal.value?_text]
  rfl

theorem eval_binary (op : BigIntOp) :
    (Expr.binary op a b).eval machine =
      inOrder (a.evalNumber machine) (b.evalNumber machine) op.apply := by
  rw [Expr.eval]
  rfl

/-- An operation on the result of two operands and a constant takes the operands in their order. -/
theorem eval_binary_constant (op : BigIntOp) (taken : c.eval machine = inOrder left right result)
    (constant : k.evalNumber machine = pure m) :
    (Expr.binary op c k).eval machine =
      inOrder left right fun x y => result x y >>= fun n => op.apply n m := by
  rw [eval_binary, constant, Expr.evalNumber, taken]
  simp only [inOrder, bind_assoc, pure_bind, Eval.number, liftM_bind]

theorem eval_add : (add a b).eval machine = inOrder (a.evalNumber machine) (b.evalNumber machine)
    fun x y => BigIntOp.mod.apply (x + y) machine.field.prime :=
  eval_binary_constant .mod (eval_binary .add) evalNumber_prime

theorem eval_mul : (mul a b).eval machine = inOrder (a.evalNumber machine) (b.evalNumber machine)
    fun x y => BigIntOp.mod.apply (x * y) machine.field.prime :=
  eval_binary_constant .mod (eval_binary .mul) evalNumber_prime

theorem eval_sub : (sub a b).eval machine = inOrder (a.evalNumber machine) (b.evalNumber machine)
    fun x y => BigIntOp.sub.apply (x + machine.field.prime) y >>= fun n =>
      BigIntOp.mod.apply n machine.field.prime := by
  have raised : (Expr.binary .add a .prime).evalNumber machine = do
      let x ← a.evalNumber machine
      return x + machine.field.prime := by
    rw [Expr.evalNumber, eval_binary, evalNumber_prime]
    simp only [inOrder, bind_assoc, pure_bind, Eval.number]
    rfl
  have difference : (Expr.binary .sub (.binary .add a .prime) b).eval machine =
      inOrder (a.evalNumber machine) (b.evalNumber machine)
        fun x y => BigIntOp.sub.apply (x + machine.field.prime) y := by
    rw [eval_binary, raised]
    simp only [inOrder, bind_assoc, pure_bind]
  exact eval_binary_constant .mod difference evalNumber_prime

theorem eval_pow : (pow a b).eval machine = inOrder (a.evalNumber machine) (b.evalNumber machine)
    fun x y => if machine.field.prime = 0 then .error .zeroModulus
      else .ok (Nat.pow x y % machine.field.prime) := by
  have modulus : Expr.prime.eval machine >>= Eval.number = pure machine.field.prime :=
    evalNumber_prime
  rw [pow, Expr.eval, modulus]
  simp only [pure_bind]
  refine bind_congr fun x => bind_congr fun y => ?_
  split
  · rfl
  · rfl

theorem eval_bitAnd : (bitAnd a b).eval machine =
    inOrder (a.evalNumber machine) (b.evalNumber machine)
      fun x y => .ok (x &&& y &&& machine.field.mask) :=
  eval_binary_constant .bitAnd (eval_binary .bitAnd) evalNumber_mask

/-- The amount of a shift is evaluated twice, unless it exceeds the limit. -/
theorem eval_boundedShift (op : BigIntOp) : (boundedShift op a b).eval machine =
    boundedInOrder (a.evalNumber machine) (b.evalNumber machine)
      fun x y => op.apply x y >>= fun n => .ok (n &&& machine.field.mask) := by
  have tested : (Expr.binary .gt b (.ofNat shiftLimit)).eval machine >>= Eval.number = do
      let y ← b.evalNumber machine
      return flag (shiftLimit < y) := by
    rw [eval_binary, evalNumber_ofNat]
    simp only [inOrder, bind_assoc, pure_bind, Eval.number]
    rfl
  have zero : (Expr.ofNat 0).eval machine = pure (.number 0) := by
    rw [Expr.ofNat, Expr.eval, Decimal.value?_text]
  have shifted : (masked (.binary op a b)).eval machine =
      inOrder (a.evalNumber machine) (b.evalNumber machine)
        fun x y => op.apply x y >>= fun n => .ok (n &&& machine.field.mask) :=
    eval_binary_constant .bitAnd (eval_binary op) evalNumber_mask
  rw [boundedShift, Expr.eval, tested, shifted, zero, boundedInOrder]
  simp only [bind_assoc, pure_bind]
  refine bind_congr fun y => ?_
  by_cases beyond : shiftLimit < y
  · rw [if_pos beyond, flag, if_pos (decide_eq_true beyond)]
    rfl
  · rw [if_neg beyond, flag, decide_eq_false beyond]
    rfl

end Arithmetic

/-- Whether an operator shifts its left operand by its right one. -/
def Operator.isShift : Operator → Bool
  | .shl => true
  | .shr => true
  | _ => false

/-- How an operator of two values evaluates them, given how each of them is evaluated. -/
def Operator.evaluation (op : Operator) (left right : Eval Nat)
    (result : Nat → Nat → Except EvalError Nat) : Eval Datum :=
  if op.isShift then Eval.boundedInOrder left right result else Eval.inOrder left right result

theorem Arithmetic.exists_eval_of_binary? {op : Operator} {combine : Expr → Expr → Expr}
    (binary : Arithmetic.binary? op = some combine) (machine : Machine) (a b : Expr) :
    ∃ result, (combine a b).eval machine =
      op.evaluation (a.evalNumber machine) (b.evalNumber machine) result := by
  cases op <;> cases binary
  case add => exact ⟨_, eval_add⟩
  case sub => exact ⟨_, eval_sub⟩
  case mul => exact ⟨_, eval_mul⟩
  case pow => exact ⟨_, eval_pow⟩
  case bitAnd => exact ⟨_, eval_bitAnd⟩
  case shl => exact ⟨_, eval_boundedShift .shl⟩
  case shr => exact ⟨_, eval_boundedShift .shr⟩
  case lt => exact ⟨_, eval_binary .lt⟩
  case eq => exact ⟨_, eval_binary .eq⟩

/-! ### Operations of the source -/

theorem Node.runFrom_lower_arithmetic {span : Span} {symbol : String} {op : Operator}
    {combine : Expr → Expr → Expr} {lhs rhs : Node} {fragment : Fragment} {ctx ctx' : Context}
    (known : Operator.ofSymbol? symbol = some op) (binary : Arithmetic.binary? op = some combine)
    (lowered : runFrom ctx (Node.op span symbol [lhs, rhs]).lower = (.ok fragment, ctx')) :
    ∃ a b ctx₁, runFrom ctx lhs.lowerValue = (.ok a, ctx₁) ∧
      runFrom ctx₁ rhs.lowerValue = (.ok b, ctx') ∧ fragment = .expr (combine a b) := by
  obtain rfl := Operator.ofSymbol?_eq_some_iff.1 known
  rw [Node.lower_pair op (Operand.operate_of_binary binary span)] at lowered
  simp only [runFrom_bind_eq_ok, runFrom_pure_eq_ok] at lowered
  obtain ⟨a, ctx₁, first, b, _, second, rfl, rfl⟩ := lowered
  exact ⟨a, b, ctx₁, first, second, rfl⟩

/-- An operation of two values evaluates the code of its operands, which are lowered one after the
other, in their order and each once; but a shift evaluates its amount first, and then the value and the
amount again only if the amount does not exceed the limit. What it does is therefore what the operands
do in this order, each from the state that the one before leaves. -/
theorem Node.performs_iff_of_lower {span : Span} {symbol : String} {op : Operator} {lhs rhs : Node}
    {fragment : Fragment} {ctx ctx' : Context} (known : Operator.ofSymbol? symbol = some op)
    (binary : (Arithmetic.binary? op).isSome = true)
    (lowered : runFrom ctx (Node.op span symbol [lhs, rhs]).lower = (.ok fragment, ctx')) :
    ∃ e a b ctx₁, fragment = .expr e ∧ runFrom ctx lhs.lowerValue = (.ok a, ctx₁) ∧
      runFrom ctx₁ rhs.lowerValue = (.ok b, ctx') ∧
      ∀ machine, ∃ result,
        e.eval machine = op.evaluation (a.evalNumber machine) (b.evalNumber machine) result ∧
        ∀ s effects v s', (e.eval machine).Performs s effects v s' ↔
          if op.isShift then
            ∃ y s₁ first, (b.eval machine).Performs s first (.number y) s₁ ∧
              (256 < y ∧ effects = first ∧ v = .number 0 ∧ s' = s₁ ∨
                y ≤ 256 ∧ ∃ x s₂ z second third n,
                  (a.eval machine).Performs s₁ second (.number x) s₂ ∧
                  (b.eval machine).Performs s₂ third (.number z) s' ∧
                  effects = first ++ (second ++ third) ∧ result x z = .ok n ∧ v = .number n)
          else
            ∃ x s₁ y first second n, (a.eval machine).Performs s first (.number x) s₁ ∧
              (b.eval machine).Performs s₁ second (.number y) s' ∧
              effects = first ++ second ∧ result x y = .ok n ∧ v = .number n := by
  obtain ⟨combine, binary⟩ := Option.isSome_iff_exists.1 binary
  obtain ⟨a, b, ctx₁, first, second, rfl⟩ := runFrom_lower_arithmetic known binary lowered
  refine ⟨combine a b, a, b, ctx₁, rfl, first, second, fun machine => ?_⟩
  obtain ⟨result, evaluated⟩ := Arithmetic.exists_eval_of_binary? binary machine a b
  refine ⟨result, evaluated, fun s effects v s' => ?_⟩
  have left := a.appends_evalNumber machine
  have right := b.appends_evalNumber machine
  rw [evaluated, Operator.evaluation]
  cases op.isShift with
  | false =>
    simp only [Bool.false_eq_true, if_false, Eval.performs_inOrder_iff left right,
      Expr.performs_evalNumber_iff]
  | true =>
    simp only [if_true, Eval.performs_boundedInOrder_iff left right,
      Eval.performs_inOrder_iff left right, Expr.performs_evalNumber_iff, Arithmetic.shiftLimit]
    constructor
    · rintro ⟨y, s₁, first, amount, beyond | ⟨within, _, again, rfl⟩⟩
      · exact ⟨y, s₁, first, amount, .inl beyond⟩
      · obtain ⟨x, s₂, z, second, third, n, value, amount', rfl, outcome⟩ := again
        exact ⟨y, s₁, first, amount,
          .inr ⟨within, x, s₂, z, second, third, n, value, amount', rfl, outcome⟩⟩
    · rintro ⟨y, s₁, first, amount, beyond | ⟨within, again⟩⟩
      · exact ⟨y, s₁, first, amount, .inl beyond⟩
      · obtain ⟨x, s₂, z, second, third, n, value, amount', rfl, outcome⟩ := again
        exact ⟨y, s₁, first, amount,
          .inr ⟨within, _, ⟨x, s₂, z, second, third, n, value, amount', rfl, outcome⟩, rfl⟩⟩

/-- The context of a body with two parameters. -/
def Context.twoVariables : Context := Context.empty.enter ["x", "i"] .unknown

/-- The operation `(x = 3) op i++`. -/
def Node.assignedAndCounted (symbol : String) : Node :=
  .op .unknown symbol [.op .unknown "=" [.var .unknown "x" [], .number .unknown 3],
    .op .unknown "PLUSPLUSRIGHT" [.var .unknown "i" []]]

theorem Node.performs_iff_of_lower_assignedAndCounted :
    let machine := Machine.ofField .bn254
    let start : Machine.State := ⟨.empty, []⟩
    let stores (name : String) (n : Nat) : Effect := .store (.var name []) (.number n)
    ∃ e s', runFrom .twoVariables (assignedAndCounted "+").lower =
        (.ok (.expr e), .twoVariables) ∧
      (e.eval machine).Performs start [stores "x" 3, stores "i" 1] (.number 3) s' ∧
      ∃ (a b : Expr) (x y : Nat) (s₁ : Machine.State) (first second : List Effect),
        (a.eval machine).Performs start first (.number x) s₁ ∧
        (b.eval machine).Performs s₁ second (.number y) s' ∧
        [stores "x" 3, stores "i" 1] = first ++ second := by
  intro machine start stores
  obtain ⟨e, s', lowered, performed⟩ : ∃ e s', runFrom .twoVariables
        (assignedAndCounted "+").lower = (.ok (.expr e), .twoVariables) ∧
      (e.eval (.ofField .bn254)).Performs start [stores "x" 3, stores "i" 1] (.number 3) s' :=
    ⟨_, _, rfl, ⟨rfl, rfl⟩⟩
  obtain ⟨e', a, b, ctx₁, same, -, -, performs⟩ := performs_iff_of_lower rfl rfl lowered
  cases same
  obtain ⟨result, -, performs⟩ := performs machine
  obtain ⟨x, s₁, y, first, second, n, left, right, effects, -⟩ := (performs _ _ _ _).1 performed
  exact ⟨e, s', lowered, performed, a, b, x, y, s₁, first, second, left, right, effects⟩

/-- What `(x = 3) << i++` does is not what `x = 3` does, followed by what `i++` does. -/
theorem Node.not_performs_in_order_of_shift :
    let x : Node := .op .unknown "=" [.var .unknown "x" [], .number .unknown 3]
    let i : Node := .op .unknown "PLUSPLUSRIGHT" [.var .unknown "i" []]
    let start : Machine.State := ⟨.empty, []⟩
    let stores (name : String) (n : Nat) : Effect := .store (.var name []) (.number n)
    ∃ e a b s', runFrom .twoVariables (assignedAndCounted "<<").lower =
        (.ok (.expr e), .twoVariables) ∧
      runFrom .twoVariables x.lowerValue = (.ok a, .twoVariables) ∧
      runFrom .twoVariables i.lowerValue = (.ok b, .twoVariables) ∧
      (e.eval (.ofField .bn254)).Performs start [stores "i" 1, stores "x" 3, stores "i" 2]
        (.number 6) s' ∧
      ¬ ∃ v s₁ w s₂ first second,
        (a.eval (.ofField .bn254)).Performs start first v s₁ ∧
        (b.eval (.ofField .bn254)).Performs s₁ second w s₂ ∧
        [stores "i" 1, stores "x" 3, stores "i" 2] = first ++ second := by
  intro x i start stores
  refine ⟨_, _, _, _, rfl, rfl, rfl, ⟨rfl, rfl⟩, ?_⟩
  rintro ⟨v, s₁, w, s₂, first, second, left, right, effects⟩
  obtain ⟨-, rfl, rfl⟩ := left.unique (⟨rfl, rfl⟩ : Eval.Performs _ _ [stores "x" 3] _ _)
  obtain ⟨-, -, rfl⟩ := right.unique (⟨rfl, rfl⟩ : Eval.Performs _ _ [stores "i" 1] _ _)
  exact absurd effects (by simp)

end ArithCircuit
