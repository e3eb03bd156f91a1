import ArithCircuit.Proofs.Evaluation

set_option autoImplicit false
set_option relaxedAutoImplicit false

/-!
# What code does

Evaluation adds effects to those that there are and takes none back, so what a computation does from a
state is a sequence of effects: `Eval.Performs`. What two computations do one after the other is what
the first one does, followed by what the second one does from the state that the first one leaves. Main
statements: `Eval.performs_bind_iff` and `Expr.appends_eval`.
-/

namespace ArithCircuit

namespace Eval

variable {α β : Type} {step : Eval α} {next : α → Eval β} {s s' : Machine.State}

/-- A computation that ends with a value in another state, with a sequence of effects on the way. -/
def Performs (step : Eval α) (s : Machine.State) (effects : List Effect) (a : α)
    (s' : Machine.State) : Prop :=
  step.run s = .ok (a, s') ∧ s'.effects = s.effects ++ effects

/-- A computation that keeps all effects that there are. -/
def Appends (step : Eval α) : Prop :=
  ∀ s a s', step.run s = .ok (a, s') → ∃ effects, step.Performs s effects a s'

theorem run_bind_eq_ok {b : β} :
    (step >>= next).run s = .ok (b, s') ↔
      ∃ a s₁, step.run s = .ok (a, s₁) ∧ (next a).run s₁ = .ok (b, s') := by
  rw [StateT.run_bind]
  cases ran : step.run s with
  | error e => simp [bind, Except.bind]
  | ok out =>
    obtain ⟨a, s₁⟩ := out
    simp [bind, Except.bind]

theorem Performs.unique {a b : α} {s₁ s₂ : Machine.State} {effects effects' : List Effect}
    (performed : step.Performs s effects a s₁) (performed' : step.Performs s effects' b s₂) :
    a = b ∧ s₁ = s₂ ∧ effects = effects' := by
  obtain ⟨ran, added⟩ := performed
  obtain ⟨ran', added'⟩ := performed'
  cases ran.symm.trans ran'
  exact ⟨rfl, rfl, List.append_cancel_left (added.symm.trans added')⟩

theorem performs_pure_iff {a b : α} {effects : List Effect} :
    (pure a : Eval α).Performs s effects b s' ↔ effects = [] ∧ b = a ∧ s' = s := by
  rw [Performs, StateT.run_pure]
  constructor
  · rintro ⟨⟨⟩, same⟩
    exact ⟨List.self_eq_append_right.1 same, rfl, rfl⟩
  · rintro ⟨rfl, rfl, rfl⟩
    exact ⟨rfl, (List.append_nil _).symm⟩

/-- What two computations do one after the other, each does once, the first one first. -/
theorem performs_bind_iff (first : step.Appends) (second : ∀ a, (next a).Appends)
    {effects : List Effect} {b : β} :
    (step >>= next).Performs s effects b s' ↔
      ∃ a s₁ before after, step.Performs s before a s₁ ∧ (next a).Performs s₁ after b s' ∧
        effects = before ++ after := by
  constructor
  · rintro ⟨ran, added⟩
    obtain ⟨a, s₁, ranFirst, ranSecond⟩ := run_bind_eq_ok.1 ran
    obtain ⟨before, performed⟩ := first _ _ _ ranFirst
    obtain ⟨after, performed'⟩ := second a _ _ _ ranSecond
    refine ⟨a, s₁, before, after, performed, performed', ?_⟩
    rw [performed'.2, performed.2, List.append_assoc] at added
    exact (List.append_cancel_left added).symm
  · rintro ⟨a, s₁, before, after, ⟨ranFirst, added⟩, ⟨ranSecond, added'⟩, rfl⟩
    exact ⟨run_bind_eq_ok.2 ⟨a, s₁, ranFirst, ranSecond⟩, by rw [added', added, List.append_assoc]⟩

theorem appends_pure (a : α) : (pure a : Eval α).Appends := by
  intro s b s' ran
  cases ran
  exact ⟨[], performs_pure_iff.2 ⟨rfl, rfl, rfl⟩⟩

theorem appends_throw (e : EvalError) : (throw e : Eval α).Appends := nofun

theorem Appends.bind (first : step.Appends) (second : ∀ a, (next a).Appends) :
    (step >>= next).Appends := by
  intro s b s' ran
  obtain ⟨a, s₁, ranFirst, ranSecond⟩ := run_bind_eq_ok.1 ran
  obtain ⟨before, performed⟩ := first _ _ _ ranFirst
  obtain ⟨after, performed'⟩ := second a _ _ _ ranSecond
  exact ⟨_, (performs_bind_iff first second).2 ⟨a, s₁, before, after, performed, performed', rfl⟩⟩

theorem appends_lift (outcome : Except EvalError α) : (liftM outcome : Eval α).Appends := by
  cases outcome with
  | error e => exact appends_throw e
  | ok a => exact appends_pure a

theorem appends_number (v : Datum) : (number v).Appends := by
  cases v with
  | number n => exact appends_pure n
  | array items => exact appends_throw _

theorem appends_load (address : Address) : (load address).Appends := by
  intro s a s' ran
  cases ran
  exact ⟨[], rfl, (List.append_nil _).symm⟩

theorem appends_store (address : Address) (value : Datum) : (store address value).Appends := by
  intro s a s' ran
  cases ran
  exact ⟨_, rfl, rfl⟩

theorem appends_demandEqual (lhs rhs : Datum) : (demandEqual lhs rhs).Appends := by
  intro s a s' ran
  cases ran
  exact ⟨_, rfl, rfl⟩

theorem appends_call (machine : Machine) (name : String) (args : List Datum) :
    (call machine name args).Appends := by
  intro s a s' ran
  have state : (get : Eval Machine.State).run s = .ok (s, s) := rfl
  cases outcome : machine.answer name args s.memory with
  | error e =>
    rw [call, run_bind_of_ok state, outcome] at ran
    cases ran
  | ok out =>
    have answered : (call machine name args).run s =
        .ok (out.1, ⟨out.2, s.effects ++ [.call name args]⟩) := by
      rw [call, run_bind_of_ok state, outcome]
      rfl
    cases answered.symm.trans ran
    exact ⟨_, answered, rfl⟩

end Eval

open Eval (Appends)

section

variable (machine : Machine)

mutual

/-- Evaluating an expression takes no effect back. -/
theorem Expr.appends_eval : (e : Expr) → (e.eval machine).Appends
  | .number text => by
    rw [Expr.eval]
    split
    · exact Eval.appends_pure _
    · exact Eval.appends_throw _
  | .prime => by
    rw [Expr.eval]
    exact Eval.appends_pure _
  | .mask => by
    rw [Expr.eval]
    exact Eval.appends_pure _
  | .binary op lhs rhs => by
    rw [Expr.eval]
    exact ((Expr.appends_eval lhs).bind Eval.appends_number).bind fun a =>
      ((Expr.appends_eval rhs).bind Eval.appends_number).bind fun b =>
        (Eval.appends_lift _).bind fun _ => Eval.appends_pure _
  | .modPow base exponent modulus => by
    rw [Expr.eval]
    refine ((Expr.appends_eval base).bind Eval.appends_number).bind fun a =>
      ((Expr.appends_eval exponent).bind Eval.appends_number).bind fun b =>
        ((Expr.appends_eval modulus).bind Eval.appends_number).bind fun m => ?_
    split
    · exact Eval.appends_throw _
    · exact Eval.appends_pure _
  | .select condition whenTrue whenFalse => by
    rw [Expr.eval]
    refine ((Expr.appends_eval condition).bind Eval.appends_number).bind fun c => ?_
    split
    · exact Expr.appends_eval whenFalse
    · exact Expr.appends_eval whenTrue
  | .get cell => by
    rw [Expr.eval]
    exact (Cell.appends_address cell).bind Eval.appends_load
  | .set cell value => by
    rw [Expr.eval]
    exact (Cell.appends_address cell).bind fun address => (Expr.appends_eval value).bind fun v =>
      (Eval.appends_store address v).bind fun _ => Eval.appends_pure v
  | .assertEqual lhs rhs => by
    rw [Expr.eval]
    exact (Expr.appends_eval lhs).bind fun a => (Expr.appends_eval rhs).bind fun b =>
      (Eval.appends_demandEqual a b).bind fun _ => Eval.appends_pure a
  | .call name args => by
    rw [Expr.eval]
    exact (Expr.appends_evalAll args).bind (Eval.appends_call machine name)
  | .array items => by
    rw [Expr.eval]
    exact (Expr.appends_evalAll items).bind fun _ => Eval.appends_pure _

theorem Cell.appends_address : (cell : Cell) → (cell.address machine).Appends
  | .var name indices | .signal name indices => by
    rw [Cell.address]
    exact (Expr.appends_evalIndices indices).bind fun _ => Eval.appends_pure _
  | .pin component componentIndices pin pinIndices => by
    rw [Cell.address]
    exact (Expr.appends_evalIndices componentIndices).bind fun _ =>
      (Expr.appends_evalIndices pinIndices).bind fun _ => Eval.appends_pure _

theorem Expr.appends_evalAll : (es : List Expr) → (Expr.evalAll machine es).Appends
  | [] => by
    rw [Expr.evalAll]
    exact Eval.appends_pure _
  | e :: es => by
    rw [Expr.evalAll]
    exact (Expr.appends_eval e).bind fun _ =>
      (Expr.appends_evalAll es).bind fun _ => Eval.appends_pure _

theorem Expr.appends_evalIndices : (es : List Expr) → (Expr.evalIndices machine es).Appends
  | [] => by
    rw [Expr.evalIndices]
    exact Eval.appends_pure _
  | e :: es => by
    rw [Expr.evalIndices]
    exact ((Expr.appends_eval e).bind Eval.appends_number).bind fun _ =>
      (Expr.appends_evalIndices es).bind fun _ => Eval.appends_pure _

end

end

end ArithCircuit
