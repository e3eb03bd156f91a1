import ArithCircuit.Proofs.PlainBodies

set_option autoImplicit false
set_option relaxedAutoImplicit false

/-!
# Running code beside its meaning

A run of code and the meaning of its source go through the same values of the plain variables, all of
them below the modulus, and no other cell changes. `Simulates` says that they keep to this and end in
the same way. It holds of sequences and, by induction on the number of turns, of loops.
-/

namespace ArithCircuit

/-- The outcome of code whose meaning ends in a given way. -/
def Exit.outcome : Exit → Outcome
  | .next => .next
  | .returned value => .returned (.number value)
  | .exhausted => .exhausted

/-- The cells when the plain variables have given values and all others have kept theirs. -/
def Variables.cells (vars : Variables) (base : Address → Nat) : Address → Nat
  | .var name [] => vars name
  | other => base other

/-- All variables have values below a bound. -/
def Variables.Below (vars : Variables) (bound : Nat) : Prop := ∀ name, vars name < bound

/-- All cells hold numbers below a bound. -/
def CellsBelow (base : Address → Nat) (bound : Nat) : Prop := ∀ address, base address < bound

namespace Variables

variable {vars : Variables} {bound : Nat} {base : Address → Nat}

theorem Below.assign (below : vars.Below bound) {v : Nat} (small : v < bound) (name : String) :
    (vars.assign name v).Below bound := by
  intro other
  unfold Variables.assign
  split
  · exact small
  · exact below other

theorem Below.cells (below : vars.Below bound) (baseBelow : CellsBelow base bound) :
    CellsBelow (vars.cells base) bound := by
  intro address
  unfold Variables.cells
  split
  · exact below _
  · exact baseBelow _

/-- Storing in the cell of a plain variable is assigning to the variable. -/
theorem write_cells (vars : Variables) (base : Address → Nat) (name : String) (v : Nat) :
    (Memory.ofNumbers (vars.cells base)).write (.var name []) (.number v) =
      Memory.ofNumbers ((vars.assign name v).cells base) := by
  funext address
  by_cases same : address = .var name []
  · subst same
    simp [Memory.write, Memory.ofNumbers, Variables.cells, Variables.assign]
  · rw [Memory.write_of_ne _ same]
    simp only [Memory.ofNumbers, Datum.number.injEq]
    unfold Variables.cells
    split
    · next other =>
      have different : other ≠ name := fun h => same (by rw [h])
      rw [Variables.assign, if_neg different]
    · rfl

/-- In a scope where known names stand for variables, they stand for the variables' values. -/
theorem named_environment {scope : Scope} {known : List String} (holds : scope.HasVariables known)
    (name : String) (member : name ∈ known) :
    (scope.environment (vars.cells base)).named name [] = vars.environment.named name [] := by
  have kind := holds name member
  have noSignal : some SymbolKind.var ≠ some .signal := by decide
  simp only [Scope.environment, kind, if_neg noSignal, Variables.environment, Variables.cells,
    if_true]

end Variables

/-- A run and a meaning keep to each other: from every state of the variables below the modulus they
end in the same way and with the same variables, below the modulus again. -/
def Simulates (machine : Machine) (base : Address → Nat) (run : Eval Outcome) (meaning : Meaning) :
    Prop :=
  ∀ (vars : Variables) (effects : List Effect), vars.Below machine.field.prime →
    ∃ exit vars' effects', vars'.Below machine.field.prime ∧ meaning vars = some (exit, vars') ∧
      run.run ⟨.ofNumbers (vars.cells base), effects⟩ =
        .ok (exit.outcome, ⟨.ofNumbers (vars'.cells base), effects'⟩)

namespace Simulates

variable {machine : Machine} {base : Address → Nat} {run first second turn : Eval Outcome}
  {meaning meaning₁ meaning₂ : Meaning}

theorem skip : Simulates machine base (pure .next) Meaning.skip := by
  intro vars effects below
  exact ⟨.next, vars, effects, below, rfl, rfl⟩

/-- A sequence simulates a sequence, whichever part ends it. -/
theorem andThen (h₁ : Simulates machine base first meaning₁)
    (h₂ : Simulates machine base second meaning₂) :
    Simulates machine base (first.andThen second) (meaning₁.andThen meaning₂) := by
  intro vars effects below
  obtain ⟨exit, vars₁, effects₁, below₁, means, runs⟩ := h₁ vars effects below
  cases exit with
  | next =>
    obtain ⟨exit, vars₂, effects₂, below₂, means₂, runs₂⟩ := h₂ vars₁ effects₁ below₁
    refine ⟨exit, vars₂, effects₂, below₂, ?_, ?_⟩
    · simp only [Meaning.andThen, means, means₂]
    · rw [Eval.andThen, Eval.run_bind_of_ok runs]
      exact runs₂
  | returned value =>
    refine ⟨.returned value, vars₁, effects₁, below₁, ?_, ?_⟩
    · simp only [Meaning.andThen, means]
    · rw [Eval.andThen, Eval.run_bind_of_ok runs]
      rfl
  | exhausted =>
    refine ⟨.exhausted, vars₁, effects₁, below₁, ?_, ?_⟩
    · simp only [Meaning.andThen, means]
    · rw [Eval.andThen, Eval.run_bind_of_ok runs]
      rfl

/-- A loop simulates a loop with the same bound on its turns. -/
theorem loop {condition : Eval Nat} {test : Variables → Option Nat}
    (tests : ∀ (vars : Variables), vars.Below machine.field.prime → ∃ c, test vars = some c ∧
      ∀ effects, condition.run ⟨.ofNumbers (vars.cells base), effects⟩ =
        .ok (c, ⟨.ofNumbers (vars.cells base), effects⟩))
    (turns : Simulates machine base turn meaning) (n : Nat) :
    Simulates machine base (Eval.loop condition turn n) (Meaning.loop test meaning n) := by
  induction n with
  | zero =>
    intro vars effects below
    obtain ⟨c, means, runs⟩ := tests vars below
    refine ⟨if c = 0 then .next else .exhausted, vars, effects, below, ?_, ?_⟩
    · rw [Meaning.loop, means]
      rfl
    · rw [Eval.loop, Eval.run_bind_of_ok (runs effects)]
      split <;> rfl
  | succ n ih =>
    intro vars effects below
    obtain ⟨c, means, runs⟩ := tests vars below
    by_cases zero : c = 0
    · refine ⟨.next, vars, effects, below, ?_, ?_⟩
      · rw [Meaning.loop, means]
        simp [zero]
      · rw [Eval.loop, Eval.run_bind_of_ok (runs effects), if_pos zero]
        rfl
    · obtain ⟨exit, vars', effects', below', means', runs'⟩ := turns.andThen ih vars effects below
      refine ⟨exit, vars', effects', below', ?_, ?_⟩
      · rw [Meaning.loop, means]
        simpa [zero] using means'
      · rw [Eval.loop, Eval.run_bind_of_ok (runs effects), if_neg zero]
        exact runs'

end Simulates

section

variable {machine : Machine} {base : Address → Nat} {turns : Nat}

/-- A store in a plain variable gives the value and assigns it to the variable. -/
theorem Expr.Yields.gives_set {vars : Variables} {e : Expr} {v : Nat}
    (yields : e.Yields machine (.ofNumbers (vars.cells base)) v) (name : String)
    (effects : List Effect) :
    (Expr.set (.var name []) e).Gives machine ⟨.ofNumbers (vars.cells base), effects⟩ v
      ⟨.ofNumbers ((vars.assign name v).cells base),
        effects ++ [.store (.var name []) (.number v)]⟩ := by
  have stored := (yields effects).set (Cell.finds_var name .nil)
  rwa [Variables.write_cells] at stored

/-- Code that stores a number below the modulus in a plain variable simulates the assignment of the
number. The value of the code itself does not matter. -/
theorem Simulates.assignment {e : Expr} (name : String) {meaning : Meaning}
    (stores : ∀ (vars : Variables), vars.Below machine.field.prime → ∃ v, v < machine.field.prime ∧
      meaning vars = some (.next, vars.assign name v) ∧ ∀ effects, ∃ w effects',
        e.Gives machine ⟨.ofNumbers (vars.cells base), effects⟩ w
          ⟨.ofNumbers ((vars.assign name v).cells base), effects'⟩) :
    Simulates machine base (Stmt.runOption machine turns (Fragment.expr e).statement?) meaning := by
  intro vars effects below
  obtain ⟨v, small, means, gives⟩ := stores vars below
  obtain ⟨w, effects', given⟩ := gives effects
  refine ⟨.next, vars.assign name v, effects', below.assign small name, means, ?_⟩
  rw [Fragment.statement?, Stmt.runOption, Stmt.run, Eval.run_bind_of_ok given]
  rfl

/-- A run of code that yields no statement does nothing. -/
theorem Stmt.run_getD (machine : Machine) (turns : Nat) (s : Option Stmt) :
    (s.getD (.block [])).run machine turns = Stmt.runOption machine turns s := by
  cases s <;> simp only [Option.getD_none, Option.getD_some, Stmt.run, Stmt.runAll, Stmt.runOption]

/-- Statements that may be absent run before the others. -/
theorem Stmt.runAll_toList_append (machine : Machine) (turns : Nat) (s : Option Stmt)
    (ss : List Stmt) :
    Stmt.runAll machine turns (s.toList ++ ss) =
      (Stmt.runOption machine turns s).andThen (Stmt.runAll machine turns ss) := by
  cases s with
  | none =>
    rw [Stmt.runOption, Eval.andThen, pure_bind]
    rfl
  | some s => rw [Option.toList_some, List.singleton_append, Stmt.runAll, Stmt.runOption]

end

end ArithCircuit
