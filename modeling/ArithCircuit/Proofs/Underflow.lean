import ArithCircuit.Proofs.FieldSemantics

set_option autoImplicit false
set_option relaxedAutoImplicit false

/-!
# When lowered arithmetic stays natural

The code of a difference adds the modulus to the number on the left, and that of a negative starts
from the modulus. So a difference is natural as long as the number taken away does not exceed the
modulus. Bitwise results are bounded by the mask alone, and the checks on field constants do not
compare the mask with the modulus. Main statement: `Field.neverNegative_iff`, which fields are safe.
-/

namespace ArithCircuit

open Lowering

namespace Field

/-- The numbers that arithmetic over a field can produce without a difference: residues, and what
the bitwise operators make of them. -/
inductive Attainable (field : Field) : Nat → Prop where
  | residue {x : Nat} : x < field.prime → Attainable field x
  | bitAnd {x y : Nat} :
      Attainable field x → Attainable field y → Attainable field (x &&& y &&& field.mask)
  | shl {x y : Nat} : Attainable field x → Attainable field y → y ≤ 256 →
      Attainable field (x <<< y &&& field.mask)
  | shr {x y : Nat} : Attainable field x → Attainable field y → y ≤ 256 →
      Attainable field (x >>> y &&& field.mask)

/-- Evaluating the code of an arithmetic node over cells below the modulus meets no negative
difference: for every node, every context it is lowered in, all contents and all answers to calls. -/
def NeverNegative (field : Field) : Prop :=
  ∀ (n : Node) (ctx ctx' : Context) (e : Expr) (machine : Machine) (contents : Address → Nat)
    (effects : List Effect),
    machine.field = field → n.isArithmetic field.prime = true →
    runFrom ctx n.lowerValue = (.ok e, ctx') → (∀ address, contents address < field.prime) →
    (e.eval machine).run ⟨.ofNumbers contents, effects⟩ ≠ .error .negative

variable {field : Field}

theorem closed_attainable : field.Closed field.Attainable where
  residue := .residue
  bitAnd := .bitAnd
  shl := .shl
  shr := .shr

/-- If no attainable number exceeds the modulus, no difference is negative. -/
theorem neverNegative_of_attainable_le (large : 1 < field.prime)
    (fits : ∀ v, field.Attainable v → v ≤ field.prime) : field.NeverNegative := by
  rintro n ctx ctx' e machine contents effects rfl arithmetic lowered bounded
  obtain ⟨-, _, v, same, -, -, yields⟩ :=
    Node.yields_of_isArithmetic closed_attainable large fits
      (fun address => .residue (bounded address)) n arithmetic (runFrom_valueOf_eq_ok.1 lowered)
  cases same
  rw [yields effects]
  simp

end Field

/-! ### Every attainable number is the value of a node -/

/-- The code of a binary operator over two nodes that are lowered without a change of context. -/
theorem Node.runFrom_lower_binary {symbol : String} {op : Operator}
    {combine : Expr → Expr → Expr} (known : Operator.ofSymbol? symbol = some op)
    (binary : Arithmetic.binary? op = some combine) {a b : Node} {ea eb : Expr} {ctx : Context}
    (first : runFrom ctx a.lower = (.ok (.expr ea), ctx))
    (second : runFrom ctx b.lower = (.ok (.expr eb), ctx)) (span : Span) :
    runFrom ctx (Node.op span symbol [a, b]).lower = (.ok (.expr (combine ea eb)), ctx) := by
  have value₁ := runFrom_valueOf_eq_ok (n := a).2 first
  have value₂ := runFrom_valueOf_eq_ok (n := b).2 second
  obtain rfl := Operator.ofSymbol?_eq_some_iff.1 known
  rw [Node.lower_pair op (Operand.operate_of_binary binary span), runFrom_bind_eq_ok]
  exact ⟨ea, ctx, value₁, runFrom_bind_eq_ok.2 ⟨eb, ctx, value₂, rfl⟩⟩

/-- The number is the value of some arithmetic node, whatever the context and the memory. -/
def Field.IsValue (field : Field) (v : Nat) : Prop :=
  ∃ (n : Node) (e : Expr), n.isArithmetic field.prime = true ∧
    (∀ ctx, runFrom ctx n.lower = (.ok (.expr e), ctx)) ∧
    ∀ (machine : Machine) (memory : Memory), machine.field = field → e.Yields machine memory v

namespace Field

variable {field : Field} {x y v : Nat}

/-- A binary operator makes a value of two values, if its code yields it. -/
private theorem IsValue.binary (hx : field.IsValue x) (hy : field.IsValue y) (symbol : String)
    {op : Operator} {combine : Expr → Expr → Expr} (known : Operator.ofSymbol? symbol = some op)
    (binary : Arithmetic.binary? op = some combine)
    (result : ∀ (machine : Machine) (memory : Memory) (a b : Expr), machine.field = field →
      a.Yields machine memory x → b.Yields machine memory y →
        (combine a b).Yields machine memory v) : field.IsValue v := by
  obtain ⟨a, ea, arithmetic₁, lowered₁, yields₁⟩ := hx
  obtain ⟨b, eb, arithmetic₂, lowered₂, yields₂⟩ := hy
  have computes : op.isArithmetic = true := by cases op <;> cases binary <;> rfl
  refine ⟨.op .unknown symbol [a, b], combine ea eb, ?_, ?_, ?_⟩
  · simp [Node.isArithmetic, Node.allArithmetic, known, computes, arithmetic₁, arithmetic₂]
  · intro ctx
    exact Node.runFrom_lower_binary known binary (lowered₁ ctx) (lowered₂ ctx) _
  · intro machine memory same
    exact result machine memory ea eb same (yields₁ machine memory same)
      (yields₂ machine memory same)

/-- Every attainable number is a value. -/
theorem Attainable.isValue (h : field.Attainable v) : field.IsValue v := by
  induction h with
  | @residue x below =>
    refine ⟨.number .unknown x, .ofNat x, by simpa [Node.isArithmetic] using below, ?_, ?_⟩
    · intro ctx
      rw [Node.lower, runFrom_pure]
    · intro machine memory _ effects
      exact Expr.gives_ofNat x
  | bitAnd _ _ hx hy =>
    apply hx.binary hy "&" rfl rfl
    rintro machine memory a b rfl ha hb effects
    exact Arithmetic.gives_bitAnd (ha effects) (hb effects)
  | shl _ _ near hx hy =>
    apply hx.binary hy "<<" rfl rfl
    rintro machine memory a b rfl ha hb
    simpa only [if_neg (Nat.not_lt.2 near)] using Arithmetic.yields_shl ha hb
  | shr _ _ near hx hy =>
    apply hx.binary hy ">>" rfl rfl
    rintro machine memory a b rfl ha hb
    simpa only [if_neg (Nat.not_lt.2 near)] using Arithmetic.yields_shr ha hb

end Field

/-- The negative of a number beyond the modulus has no value. -/
theorem Arithmetic.eval_neg_of_lt {machine : Machine} {s s' : Machine.State} {a : Expr} {x : Nat}
    (ha : a.Gives machine s x s') (beyond : machine.field.prime < x) :
    ((neg a).eval machine).run s = .error .negative := by
  have prime : Expr.prime.Gives machine s machine.field.prime s := Expr.gives_prime
  have difference : ((Expr.binary .sub .prime a).eval machine).run s = .error .negative := by
    rw [Expr.eval, Eval.run_bind_of_ok prime.run_number, Eval.run_bind_of_ok ha.run_number]
    simp only [BigIntOp.apply, if_pos beyond]
    rfl
  rw [neg, reduce, Expr.eval, StateT.run_bind, StateT.run_bind, difference]
  rfl

namespace Field

variable {field : Field}

/-- A field in which no difference is negative attains no number beyond its modulus. -/
theorem attainable_le_of_neverNegative (large : 1 < field.prime) (safe : field.NeverNegative)
    {v : Nat} (attained : field.Attainable v) : v ≤ field.prime := by
  obtain ⟨n, e, arithmetic, lowered, yields⟩ := attained.isValue
  by_contra beyond
  have known : Operator.ofSymbol? "UMINUS" = some .neg := rfl
  have negative : runFrom .empty (Node.op .unknown "UMINUS" [n]).lowerValue =
      (.ok (Arithmetic.neg e), .empty) := by
    have value := runFrom_valueOf_eq_ok (n := n).2 (lowered .empty)
    apply runFrom_valueOf_eq_ok.2
    simp only [Node.lower, known, Node.operands, Operand.operate, runFrom_bind, value, runFrom_pure]
  have computes : (Node.op .unknown "UMINUS" [n]).isArithmetic field.prime = true :=
    by simp [Node.isArithmetic, Node.allArithmetic, known, Operator.isArithmetic, arithmetic]
  exact safe _ _ _ _ (.ofField field) (fun _ => 0) [] rfl computes negative (fun _ => by omega)
    (Arithmetic.eval_neg_of_lt (yields _ _ rfl []) (Nat.lt_of_not_le beyond))

/-- A mask that does not exceed the modulus keeps all attainable numbers from exceeding it. -/
theorem attainable_le_of_mask_le (narrow : field.mask ≤ field.prime) {v : Nat}
    (attained : field.Attainable v) : v ≤ field.prime := by
  cases attained with
  | residue below => exact Nat.le_of_lt below
  | bitAnd | shl | shr => exact Nat.le_trans Nat.and_le_right narrow

/-- A shift to the left by at least one place leaves an even number, also under a mask. -/
private theorem shiftLeft_and_mod_two (x y m : Nat) (positive : 0 < y) :
    (x <<< y &&& m) % 2 = 0 := by
  obtain ⟨k, rfl⟩ : ∃ k, y = k + 1 := ⟨y - 1, by omega⟩
  have even : x <<< (k + 1) % 2 ≠ 1 := by
    rw [Nat.shiftLeft_succ]
    omega
  have notOdd : (x <<< (k + 1) &&& m) % 2 ≠ 1 := fun odd => even (Nat.and_mod_two_eq_one.1 odd).1
  omega

/-- A mask of low bits may exceed the modulus by one: the mask itself is odd, and no shift gets from
a number up to the modulus to an odd number beyond it. -/
private theorem attainable_le_of_mask_eq {bits : Nat} (wide : bits ≠ 0)
    (mask : field.mask = Nat.pow 2 bits - 1) (next : field.mask = field.prime + 1) {v : Nat}
    (attained : field.Attainable v) : v ≤ field.prime := by
  have odd : field.mask % 2 = 1 := by
    obtain ⟨k, rfl⟩ : ∃ k, bits = k + 1 := ⟨bits - 1, by omega⟩
    have double : Nat.pow 2 (k + 1) = Nat.pow 2 k * 2 := rfl
    have positive : 0 < Nat.pow 2 k := Nat.pow_pos (by omega)
    omega
  induction attained with
  | residue below => exact Nat.le_of_lt below
  | bitAnd _ _ hx _ => exact Nat.le_trans Nat.and_le_left (Nat.le_trans Nat.and_le_left hx)
  | @shl x y _ _ _ hx _ =>
    rcases Nat.eq_zero_or_pos y with rfl | positive
    · exact Nat.le_trans Nat.and_le_left hx
    · have even := shiftLeft_and_mod_two x y field.mask positive
      have bounded : x <<< y &&& field.mask ≤ field.mask := Nat.and_le_right
      omega
  | @shr x y _ _ _ hx _ =>
    have smaller : x >>> y ≤ x := by
      rw [Nat.shiftRight_eq_div_pow]
      exact Nat.div_le_self _ _
    exact Nat.le_trans Nat.and_le_left (Nat.le_trans smaller hx)

/-- A shift by one place within the width of a mask of low bits doubles an attainable number. -/
private theorem attainable_double {bits : Nat} (large : 1 < field.prime)
    (mask : field.mask = Nat.pow 2 bits - 1) {x : Nat} (attained : field.Attainable x)
    (fits : 2 * x < Nat.pow 2 bits) : field.Attainable (2 * x) := by
  have shifted := attained.shl (.residue large) (by omega)
  have below : x * 2 < Nat.pow 2 bits := by omega
  have double : x <<< 1 &&& field.mask = 2 * x := by
    rw [mask, Nat.shiftLeft_eq]
    calc
      x * 2 &&& (Nat.pow 2 bits - 1) = x * 2 % Nat.pow 2 bits := Nat.and_two_pow_sub_one_eq_mod _ _
      _ = x * 2 := Nat.mod_eq_of_lt below
      _ = 2 * x := Nat.mul_comm _ _
  rwa [double] at shifted

/-- A wider mask of low bits lets numbers beyond the modulus be attained. -/
private theorem exists_attainable_gt {bits : Nat} (large : 1 < field.prime)
    (mask : field.mask = Nat.pow 2 bits - 1) (wide : field.prime + 2 ≤ field.mask) :
    ∃ v, field.Attainable v ∧ field.prime < v := by
  by_cases short : 2 * (field.prime - 1) < Nat.pow 2 bits
  · have doubled := attainable_double large mask (.residue (x := field.prime - 1) (by omega)) short
    by_cases two : field.prime = 2
    · exact ⟨_, attainable_double large mask doubled (by omega), by omega⟩
    · exact ⟨_, doubled, by omega⟩
  · -- The double of the half of the mask is even and just below the mask.
    have half : field.Attainable (field.mask / 2) := .residue (by omega)
    have doubled := attainable_double large mask half (by omega)
    obtain ⟨k, rfl⟩ : ∃ k, bits = k + 1 := ⟨bits - 1, by cases bits <;> simp_all⟩
    have even : Nat.pow 2 (k + 1) = Nat.pow 2 k * 2 := rfl
    exact ⟨_, doubled, by omega⟩

theorem withMaskBits_eq_ok {prime bits : Nat} (made : withMaskBits prime bits = .ok field) :
    bits ≠ 0 ∧ field = ⟨prime, Nat.pow 2 bits - 1⟩ := by
  unfold withMaskBits at made
  split at made
  · cases made
  · next wide => exact ⟨wide, (validated_eq_ok_iff.1 made).1⟩

/-- Which accepted fields keep differences natural: exactly those that attain no number beyond the
modulus. It is enough that the mask does not exceed the modulus; for a mask of low bits it may do so
by one, and no more. -/
theorem neverNegative_iff (field : Field) (accepted : field.validated = .ok field) :
    (field.NeverNegative ↔ ∀ v, field.Attainable v → v ≤ field.prime) ∧
      (field.mask ≤ field.prime → field.NeverNegative) ∧
      ∀ bits, withMaskBits field.prime bits = .ok field →
        (field.NeverNegative ↔ field.mask ≤ field.prime + 1) := by
  have large : 1 < field.prime := (validated_eq_ok_iff.1 accepted).2.1
  refine ⟨⟨fun safe v => attainable_le_of_neverNegative large safe,
    neverNegative_of_attainable_le large⟩, ?_, ?_⟩
  · intro narrow
    exact neverNegative_of_attainable_le large fun v => attainable_le_of_mask_le narrow
  · intro bits made
    obtain ⟨wide, same⟩ := withMaskBits_eq_ok made
    have mask : field.mask = Nat.pow 2 bits - 1 := congrArg Field.mask same
    constructor
    · intro safe
      by_contra beyond
      obtain ⟨v, attained, greater⟩ := exists_attainable_gt large mask (by omega)
      exact absurd (attainable_le_of_neverNegative large safe attained) (Nat.not_le.2 greater)
    · intro bounded
      apply neverNegative_of_attainable_le large
      intro v attained
      rcases Nat.lt_or_ge field.prime field.mask with above | narrow
      · exact attainable_le_of_mask_eq wide mask (by omega) attained
      · exact attainable_le_of_mask_le narrow attained

theorem neverNegative_bn254 :
    bn254.validated = .ok bn254 ∧ bn254.NeverNegative ∧
      validated ⟨97, 127⟩ = .ok ⟨97, 127⟩ ∧ ¬ NeverNegative ⟨97, 127⟩ := by
  refine ⟨by rfl, (neverNegative_iff bn254 (by rfl)).2.1 (by decide), by rfl, ?_⟩
  rw [(neverNegative_iff ⟨97, 127⟩ (by rfl)).2.2 7 (by rfl)]
  decide

/-- A field whose mask exceeds its modulus is accepted, and `0 - (3 << 2)` is negative in it: the
shift yields 12, and only 7 is there to take it from. -/
theorem not_neverNegative_of_wide_mask :
    validated ⟨7, 15⟩ = .ok ⟨7, 15⟩ ∧ ¬ NeverNegative ⟨7, 15⟩ := by
  refine ⟨by rfl, fun safe => ?_⟩
  exact safe (.op .unknown "-" [.number .unknown 0,
      .op .unknown "<<" [.number .unknown 3, .number .unknown 2]])
    .empty .empty _ (.ofField ⟨7, 15⟩) (fun _ => 0) [] rfl (by decide) rfl (fun _ => by decide) rfl

end Field

end ArithCircuit
