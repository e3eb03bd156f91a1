import ArithCircuit.Proofs.Underflow

set_option autoImplicit false
set_option relaxedAutoImplicit false

/-!
# Shifts beyond the limit

A shift by more than 256 places is cut off: its value is 0, and nothing is shifted. Under a mask of
up to 257 low bits the cut cannot be told from the shift itself. `Expr.Reaches` says which
expressions are evaluated in the course of another one, and in which states, so that a statement can
say that a shift is not carried out. Main statement: `Arithmetic.shiftLimit_invisible`.
-/

namespace ArithCircuit

/-! ### What is evaluated in the course of an expression -/

/-- The indices of a cell, in the order in which they are evaluated. -/
def Cell.indices : Cell → List Expr
  | .var _ indices | .signal _ indices => indices
  | .pin _ componentIndices _ pinIndices => componentIndices ++ pinIndices

theorem Cell.sizeOf_lt_of_mem_indices {cell : Cell} {e : Expr} (member : e ∈ cell.indices) :
    sizeOf e < sizeOf cell := by
  cases cell with
  | var name indices | signal name indices =>
    have less : sizeOf e < sizeOf indices := List.sizeOf_lt_of_mem member
    simp only [Cell.var.sizeOf_spec, Cell.signal.sizeOf_spec]
    omega
  | pin component componentIndices name pinIndices =>
    have less : sizeOf e < sizeOf componentIndices ∨ sizeOf e < sizeOf pinIndices :=
      (List.mem_append.1 member).imp List.sizeOf_lt_of_mem List.sizeOf_lt_of_mem
    simp only [Cell.pin.sizeOf_spec]
    omega

namespace Expr

/-- The parts of an expression that are evaluated in any case, in their order. -/
def strictParts : Expr → List Expr
  | .number _ | .prime | .mask => []
  | .binary _ lhs rhs => [lhs, rhs]
  | .modPow base exponent modulus => [base, exponent, modulus]
  | .select condition _ _ => [condition]
  | .get cell => cell.indices
  | .set cell value => cell.indices ++ [value]
  | .assertEqual lhs rhs => [lhs, rhs]
  | .call _ args => args
  | .array items => items

theorem sizeOf_lt_of_mem_strictParts {e part : Expr} (member : part ∈ e.strictParts) :
    sizeOf part < sizeOf e := by
  cases e with
  | number | prime | mask => cases member
  | get cell =>
    have less := Cell.sizeOf_lt_of_mem_indices member
    simp only [Expr.get.sizeOf_spec]
    omega
  | set cell value =>
    have less : sizeOf part < sizeOf cell ∨ part = value :=
      (List.mem_append.1 member).imp Cell.sizeOf_lt_of_mem_indices List.mem_singleton.1
    simp only [Expr.set.sizeOf_spec]
    rcases less with less | rfl <;> omega
  | call name args =>
    have less : sizeOf part < sizeOf args := List.sizeOf_lt_of_mem member
    simp only [Expr.call.sizeOf_spec]
    omega
  | array items =>
    have less : sizeOf part < sizeOf items := List.sizeOf_lt_of_mem member
    simp only [Expr.array.sizeOf_spec]
    omega
  | binary | modPow | select | assertEqual =>
    simp only [strictParts, List.mem_cons, List.not_mem_nil, or_false] at member
    grind

/-- Evaluating an expression from a state evaluates a part of it from another state: a part that is
always evaluated, after those before it, or the chosen part of a choice. -/
inductive Starts (machine : Machine) :
    Expr → Machine.State → Expr → Machine.State → Prop where
  | strict {e part : Expr} {before after : List Expr} {values : List Datum} {s s₁ : Machine.State} :
      e.strictParts = before ++ part :: after →
      (evalAll machine before).run s = .ok (values, s₁) → Starts machine e s part s₁
  | chosen {condition whenTrue whenFalse : Expr} {c : Nat} {s s₁ : Machine.State} :
      condition.Gives machine s c s₁ →
      Starts machine (.select condition whenTrue whenFalse) s (if c = 0 then whenFalse else whenTrue)
        s₁

/-- In the course of evaluating an expression from a state, an expression is evaluated from another
state. -/
inductive Reaches (machine : Machine) :
    Expr → Machine.State → Expr → Machine.State → Prop where
  | self (e : Expr) (s : Machine.State) : Reaches machine e s e s
  | part {e e₁ e₂ : Expr} {s s₁ s₂ : Machine.State} :
      e.Starts machine s e₁ s₁ → Reaches machine e₁ s₁ e₂ s₂ → Reaches machine e s e₂ s₂

variable {machine : Machine} {e e' : Expr} {s s' : Machine.State}

theorem Starts.sizeOf_lt (starts : e.Starts machine s e' s') : sizeOf e' < sizeOf e := by
  cases starts with
  | strict parts _ => exact sizeOf_lt_of_mem_strictParts (parts ▸ List.mem_append_right _ (.head _))
  | chosen _ =>
    simp only [Expr.select.sizeOf_spec]
    split <;> omega

/-- No expression is evaluated in the course of a smaller one. -/
theorem Reaches.sizeOf_le (reaches : e.Reaches machine s e' s') : sizeOf e' ≤ sizeOf e := by
  induction reaches with
  | self => exact Nat.le_refl _
  | part starts _ ih => exact Nat.le_trans ih (Nat.le_of_lt starts.sizeOf_lt)

/-- In the course of an expression without parts nothing else is evaluated. -/
theorem Reaches.eq_of_no_parts (none : e.strictParts = [])
    (reaches : e.Reaches machine s e' s') : e' = e := by
  cases reaches with
  | self => rfl
  | part starts _ =>
    cases starts with
    | strict parts _ => simp [none] at parts
    | chosen _ => cases none

theorem Starts.of_binary {op : BigIntOp} {a b : Expr}
    (starts : (Expr.binary op a b).Starts machine s e' s') : (e' = a ∧ s' = s) ∨ e' = b := by
  cases starts with
  | @strict _ _ before _ _ _ _ parts ran =>
    rcases before with _ | ⟨first, rest⟩
    · obtain ⟨rfl, -⟩ := List.cons.inj parts
      cases ran
      exact .inl ⟨rfl, rfl⟩
    · obtain ⟨-, tail⟩ := List.cons.inj parts
      have member : e' ∈ [b] := tail ▸ List.mem_append_right rest (.head _)
      exact .inr (List.mem_singleton.1 member)

theorem Starts.of_select {condition whenTrue whenFalse : Expr}
    (starts : (Expr.select condition whenTrue whenFalse).Starts machine s e' s') :
    e' = condition ∨
      ∃ c, condition.Gives machine s c s' ∧ e' = if c = 0 then whenFalse else whenTrue := by
  cases starts with
  | strict parts _ =>
    have member : e' ∈ (Expr.select condition whenTrue whenFalse).strictParts :=
      parts ▸ List.mem_append_right _ (.head _)
    exact .inl (List.mem_singleton.1 member)
  | chosen given => exact .inr ⟨_, given, rfl⟩

/-- In the course of an operation, the operation itself is evaluated where it begins. -/
theorem Reaches.eq_of_binary {op : BigIntOp} {a b : Expr}
    (reaches : (Expr.binary op a b).Reaches machine s (.binary op a b) s') : s' = s := by
  cases reaches with
  | self => rfl
  | part starts below =>
    have smaller := starts.sizeOf_lt
    have greater := below.sizeOf_le
    omega

end Expr

theorem Field.withMaskBits_of_lt {prime bits : Nat} (large : 1 < prime) (wide : bits ≠ 0) :
    withMaskBits prime bits = .ok ⟨prime, Nat.pow 2 bits - 1⟩ := by
  have grows : Nat.pow 2 1 ≤ Nat.pow 2 bits := Nat.pow_le_pow_right (by omega) (by omega)
  have two : Nat.pow 2 1 = 2 := rfl
  rw [withMaskBits, if_neg wide, validated_eq_ok_iff]
  exact ⟨rfl, large, by simp only [ne_eq]; omega⟩

namespace Arithmetic

open ArithCircuit.Expr

variable {machine : Machine} {memory : Memory} {op : BigIntOp} {a b : Expr} {x y : Nat}
  {effects : List Effect} {s s' : Machine.State}

/-- No operation on the amount is evaluated in the course of comparing the amount with the limit,
except for the comparison. -/
private theorem eq_gt_of_reaches
    (reaches : (Expr.binary .gt b (.ofNat shiftLimit)).Reaches machine s (.binary op a b) s') :
    op = .gt := by
  cases reaches with
  | self => rfl
  | part starts below =>
    rcases starts.of_binary with ⟨rfl, -⟩ | rfl
    · have small := below.sizeOf_le
      simp only [Expr.binary.sizeOf_spec] at small
      omega
    · cases below.eq_of_no_parts rfl

private theorem eq_of_reaches_masked
    (reaches : (masked (.binary op a b)).Reaches machine s (.binary op a b) s') : s' = s := by
  cases reaches with
  | part starts below =>
    rcases starts.of_binary with ⟨rfl, rfl⟩ | rfl
    · exact below.eq_of_binary
    · cases below.eq_of_no_parts rfl

/-- A shift that is cut off beyond the limit is carried out only up to the limit. -/
theorem le_of_boundedShift_reaches (shift : op ≠ .gt) (hb : b.Yields machine memory y)
    (reaches : (boundedShift op a b).Reaches machine ⟨memory, effects⟩ (.binary op a b) s') :
    s' = ⟨memory, effects⟩ ∧ y ≤ 256 := by
  have condition : (Expr.binary .gt b (.ofNat shiftLimit)).Gives machine ⟨memory, effects⟩
      (flag (256 < y)) ⟨memory, effects⟩ := (hb effects).binary (gives_ofNat shiftLimit) rfl
  cases reaches with
  | part starts below =>
    rcases starts.of_select with rfl | ⟨c, given, rfl⟩
    · exact absurd (eq_gt_of_reaches below) shift
    · rw [Gives, condition] at given
      cases given
      by_cases far : 256 < y
      · rw [if_neg (by simp [flag, far])] at below
        cases below.eq_of_no_parts rfl
      · rw [if_pos (by simp [flag, far])] at below
        exact ⟨eq_of_reaches_masked below, Nat.le_of_not_lt far⟩

/-! ### The cut under a mask of low bits -/

theorem yields_masked_binary {result : Nat} (ha : a.Yields machine memory x)
    (hb : b.Yields machine memory y) (applied : op.apply x y = .ok result) :
    (masked (.binary op a b)).Yields machine memory (result &&& machine.field.mask) :=
  fun effects => gives_masked ((ha effects).binary (hb effects) applied)

theorem shiftLeft_and_lowBits (x y w : Nat) :
    x <<< y &&& (Nat.pow 2 w - 1) = x * Nat.pow 2 y % Nat.pow 2 w := by
  rw [Nat.shiftLeft_eq]
  exact Nat.and_two_pow_sub_one_eq_mod _ _

theorem shiftRight_and_lowBits (x y w : Nat) :
    x >>> y &&& (Nat.pow 2 w - 1) = x / Nat.pow 2 y % Nat.pow 2 w := by
  rw [Nat.shiftRight_eq_div_pow]
  exact Nat.and_two_pow_sub_one_eq_mod _ _

/-- Beyond the limit, a shift to the left leaves nothing in the low bits. -/
theorem cut_shiftLeft {w : Nat} (narrow : w ≤ 257) (x y : Nat) :
    (if 256 < y then 0 else x * Nat.pow 2 y % Nat.pow 2 w) = x * Nat.pow 2 y % Nat.pow 2 w := by
  split
  · next far =>
    have divides : Nat.pow 2 w ∣ x * Nat.pow 2 y :=
      Nat.dvd_mul_left_of_dvd (Nat.pow_dvd_pow 2 (by omega)) x
    exact (Nat.mod_eq_zero_of_dvd divides).symm
  · rfl

/-- Beyond the limit, a shift to the right leaves nothing of a number that is not longer. -/
theorem cut_shiftRight {x bits : Nat} (small : x < Nat.pow 2 bits) (narrow : bits ≤ 257)
    (y w : Nat) :
    (if 256 < y then 0 else x / Nat.pow 2 y % Nat.pow 2 w) = x / Nat.pow 2 y % Nat.pow 2 w := by
  split
  · next far =>
    have grows : Nat.pow 2 bits ≤ Nat.pow 2 y := Nat.pow_le_pow_right (by omega) (by omega)
    rw [Nat.div_eq_of_lt (Nat.lt_of_lt_of_le small grows), Nat.zero_mod]
  · rfl

/-- For a modulus above 1 and a mask of 1 to 257 low bits, on operands without effects: a shift has
the value of the masked shift without the limit, for all amounts, where a number shifted to the right
has at most 257 bits. The shift inside is carried out only for amounts up to 256. -/
theorem shiftLimit_invisible {prime w : Nat} (large : 1 < prime) (wide : 1 ≤ w)
    (narrow : w ≤ 257) :
    ∃ field, Field.withMaskBits prime w = .ok field ∧
      ∀ (machine : Machine) (memory : Memory) (a b : Expr) (x y : Nat), machine.field = field →
        a.Yields machine memory x → b.Yields machine memory y →
          (shl a b).Yields machine memory (x * Nat.pow 2 y % Nat.pow 2 w) ∧
          (masked (.binary .shl a b)).Yields machine memory (x * Nat.pow 2 y % Nat.pow 2 w) ∧
          (x < Nat.pow 2 257 →
            (shr a b).Yields machine memory (x / Nat.pow 2 y % Nat.pow 2 w) ∧
            (masked (.binary .shr a b)).Yields machine memory (x / Nat.pow 2 y % Nat.pow 2 w)) ∧
          ∀ op ∈ [BigIntOp.shl, .shr], ∀ (effects : List Effect) (s : Machine.State),
            (boundedShift op a b).Reaches machine ⟨memory, effects⟩ (.binary op a b) s →
              s = ⟨memory, effects⟩ ∧ y ≤ 256 := by
  refine ⟨⟨prime, Nat.pow 2 w - 1⟩, Field.withMaskBits_of_lt large (by omega), ?_⟩
  intro machine memory a b x y same ha hb
  have mask : machine.field.mask = Nat.pow 2 w - 1 := congrArg Field.mask same
  have left := yields_shl ha hb
  have right := yields_shr ha hb
  have uncutLeft := yields_masked_binary ha hb (rfl : BigIntOp.shl.apply x y = .ok (x <<< y))
  have uncutRight := yields_masked_binary ha hb (rfl : BigIntOp.shr.apply x y = .ok (x >>> y))
  simp only [mask, shiftLeft_and_lowBits, cut_shiftLeft narrow] at left uncutLeft
  simp only [mask, shiftRight_and_lowBits] at right uncutRight
  refine ⟨left, uncutLeft, fun small => ⟨?_, uncutRight⟩, ?_⟩
  · rwa [cut_shiftRight small (Nat.le_refl _)] at right
  · intro op shift effects s reaches
    refine le_of_boundedShift_reaches ?_ hb reaches
    rintro rfl
    simp at shift

/-- The widest mask and the first amount beyond the limit. -/
theorem shiftLimit_invisible_at_limit :
    1 < 97 ∧ 1 ≤ 257 ∧ 257 ≤ 257 ∧ 7 < Nat.pow 2 257 ∧
      ∃ field, Field.withMaskBits 97 257 = .ok field ∧
        (shl (.ofNat 7) (.ofNat 257)).Yields (.ofField field) .empty 0 ∧
        (shr (.ofNat 7) (.ofNat 257)).Yields (.ofField field) .empty 0 := by
  have small : ∀ bits, 3 ≤ bits → 7 < Nat.pow 2 bits := fun bits long =>
    Nat.lt_of_lt_of_le (by decide : 7 < Nat.pow 2 3) (Nat.pow_le_pow_right (by decide) long)
  -- The power of two is too large to be evaluated, so its exponent is kept as a name.
  obtain ⟨bits, same⟩ : ∃ bits, bits = 257 := ⟨_, rfl⟩
  rw [← same]
  obtain ⟨field, made, each⟩ := @shiftLimit_invisible 97 bits (by decide) (by omega) (by omega)
  have ⟨left, _, right, _⟩ := each (.ofField field) .empty (.ofNat 7) (.ofNat bits) 7 bits rfl
    (fun _ => gives_ofNat 7) (fun _ => gives_ofNat bits)
  have long : 7 < Nat.pow 2 bits := small bits (by omega)
  refine ⟨by decide, by omega, Nat.le_refl _, long, field, made, ?_, ?_⟩
  · rwa [Nat.mul_mod_left] at left
  · have shifted := (right (small 257 (by decide))).1
    rwa [Nat.div_eq_of_lt long, Nat.zero_mod] at shifted

end Arithmetic

end ArithCircuit
