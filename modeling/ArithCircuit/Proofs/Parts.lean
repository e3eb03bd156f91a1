import ArithCircuit.Proofs.Consistency

set_option autoImplicit false
set_option relaxedAutoImplicit false

/-!
# A unit in parts

The parts of a unit can be given one after the other or as one block. Both ways lead to the same code
and the same context; at the first part that fails both stop with the same error, which from then on is
the answer to everything. Main statement: `Node.generate_block`.
-/

namespace ArithCircuit

open Lowering

/-! ### Recorded errors -/

/-- Lowering neither records an error nor forgets one. -/
theorem Context.discipline_failure :
    Context.Discipline fun ctx ctx' => ctx'.failure = ctx.failure where
  refl _ := rfl
  trans first second := second.trans first
  declare _ _ := rfl
  level inside := inside
  registerTemplate _ registered := by
    obtain ⟨scope, -, rfl⟩ := runFrom_registerTemplate_eq_ok.1 registered
    rfl
  registerFunction _ registered := by
    obtain ⟨-, scope, -, rfl⟩ := runFrom_registerFunction_eq_ok.1 registered
    rfl

namespace Node

theorem failure_of_lower {n : Node} {ctx ctx' : Context} {outcome : Except LoweringError Fragment}
    (ran : runFrom ctx n.lower = (outcome, ctx')) : ctx'.failure = ctx.failure := by
  have kept := follows_lower Context.discipline_failure n ctx
  rw [ran] at kept
  exact kept

/-- Compiling a unit is lowering it from the empty context. -/
theorem compile_eq (root : Node) (field : Field) :
    root.compile field =
      match runFrom .empty root.lower with
      | (.ok _, ctx) => .ok ⟨field, ctx.registry⟩
      | (.error e, _) => .error e := by
  rw [compile, runFrom_generate]
  rcases lowered : runFrom .empty root.lower with ⟨e | fragment, ctx⟩
  · rfl
  · have fresh : ctx.failure = none := failure_of_lower lowered
    simp only [Context.empty, Context.circuit] at fresh lowered ⊢
    simp only [fresh]

/-- A part that is generated successfully is lowered, and records no error. -/
theorem runFrom_generate_eq_ok {n : Node} {ctx ctx' : Context} {fragment : Fragment} :
    runFrom ctx n.generate = (.ok fragment, ctx') ↔
      ctx.failure = none ∧ runFrom ctx n.lower = (.ok fragment, ctx') := by
  rw [runFrom_generate]
  cases ctx.failure with
  | some e => simp
  | none => rcases runFrom ctx n.lower with ⟨e | fragment', ctx₁⟩ <;> simp

/-- A part that fails as the first one is lowered up to its error, which is recorded. -/
theorem runFrom_generate_eq_error {n : Node} {ctx ctx' : Context} {e : LoweringError}
    (fresh : ctx.failure = none) :
    runFrom ctx n.generate = (.error e, ctx') ↔
      ∃ ctx₁, runFrom ctx n.lower = (.error e, ctx₁) ∧ ctx' = { ctx₁ with failure := some e } := by
  rw [runFrom_generate, fresh]
  rcases runFrom ctx n.lower with ⟨e' | fragment, ctx₁⟩
  · constructor
    · intro same
      cases same
      exact ⟨ctx₁, rfl, rfl⟩
    · rintro ⟨_, same, rfl⟩
      cases same
      rfl
  · simp

theorem runFrom_generate_of_failure {ctx : Context} {e : LoweringError}
    (failed : ctx.failure = some e) (n : Node) : runFrom ctx n.generate = (.error e, ctx) := by
  rw [runFrom_generate, failed]

/-! ### Parts one after the other -/

/-- The answers to the parts of a unit, given one after the other, and the context after the last. -/
def generateEach (ctx : Context) : List Node → List (Except LoweringError Fragment) × Context
  | [] => ([], ctx)
  | n :: ns =>
    let (answer, ctx₁) := runFrom ctx n.generate
    let (answers, ctx') := generateEach ctx₁ ns
    (answer :: answers, ctx')

theorem generateEach_cons {n : Node} {ctx ctx₁ : Context} {answer : Except LoweringError Fragment}
    (ran : runFrom ctx n.generate = (answer, ctx₁)) (ns : List Node) :
    generateEach ctx (n :: ns) =
      (answer :: (generateEach ctx₁ ns).1, (generateEach ctx₁ ns).2) := by
  rw [generateEach, ran]

theorem generateEach_append (ctx : Context) (before after : List Node) :
    generateEach ctx (before ++ after) =
      ((generateEach ctx before).1 ++ (generateEach (generateEach ctx before).2 after).1,
        (generateEach (generateEach ctx before).2 after).2) := by
  induction before generalizing ctx with
  | nil => rfl
  | cons n ns ih => simp only [List.cons_append, generateEach, ih]

/-- Behind an error every part gets the error for an answer, and nothing changes any more. -/
theorem generateEach_of_failure {ctx : Context} {e : LoweringError} (failed : ctx.failure = some e)
    (ns : List Node) : generateEach ctx ns = (ns.map fun _ => .error e, ctx) := by
  induction ns with
  | nil => rfl
  | cons n ns ih => rw [generateEach_cons (runFrom_generate_of_failure failed n), ih, List.map_cons]

/-- Parts that all succeed are lowered as statements of one block. -/
theorem lowerStatements_of_generateEach {ns : List Node} {fragments : List Fragment}
    {ctx ctx' : Context} (fresh : ctx.failure = none)
    (succeeded : generateEach ctx ns = (fragments.map .ok, ctx')) :
    runFrom ctx (lowerStatements ns) = (.ok (fragments.filterMap Fragment.statement?), ctx') ∧
      ctx'.failure = none := by
  induction ns generalizing ctx fragments with
  | nil =>
    obtain ⟨nothing, rfl⟩ := Prod.mk.inj succeeded
    cases List.map_eq_nil_iff.1 nothing.symm
    exact ⟨by rw [lowerStatements]; rfl, fresh⟩
  | cons n ns ih =>
    rcases ran : runFrom ctx n.generate with ⟨answer, ctx₁⟩
    rw [generateEach_cons ran] at succeeded
    obtain ⟨answers, last⟩ := Prod.mk.inj succeeded
    obtain ⟨fragment, others, rfl, rfl, rest⟩ := List.map_eq_cons_iff.1 answers.symm
    have lowered := (runFrom_generate_eq_ok.1 ran).2
    have fresh₁ : ctx₁.failure = none := (failure_of_lower lowered).trans fresh
    obtain ⟨tail, fresh'⟩ := ih fresh₁ (Prod.ext rest.symm last)
    refine ⟨?_, fresh'⟩
    simp only [lowerStatements, runFrom_bind_eq_ok, runFrom_pure_eq_ok]
    refine ⟨fragment, ctx₁, lowered, _, ctx', tail, ?_, rfl⟩
    rw [List.filterMap_cons]
    cases fragment.statement? <;> rfl

/-- A block fails where its first statement fails. -/
theorem lowerStatements_eq_error {before after : List Node} {n : Node} {ss : List Stmt}
    {ctx ctx₁ ctx' : Context} {e : LoweringError}
    (lowered : runFrom ctx (lowerStatements before) = (.ok ss, ctx₁))
    (failed : runFrom ctx₁ n.lower = (.error e, ctx')) :
    runFrom ctx (lowerStatements (before ++ n :: after)) = (.error e, ctx') := by
  induction before generalizing ctx ss with
  | nil =>
    rw [lowerStatements] at lowered
    obtain ⟨-, rfl⟩ := runFrom_pure_eq_ok.1 lowered
    rw [List.nil_append, lowerStatements, runFrom_bind, failed]
  | cons m ms ih =>
    simp only [lowerStatements, runFrom_bind_eq_ok] at lowered
    obtain ⟨fragment, ctx₂, first, ss', ctx₃, rest, last⟩ := lowered
    obtain ⟨-, rfl⟩ := runFrom_pure_eq_ok.1 last
    rw [List.cons_append, lowerStatements, runFrom_bind, first]
    simp only [runFrom_bind, ih rest]

/-- Generating the parts of a unit one after the other and generating them as one block come to the
same. If all parts succeed, so does the block: its statements are the code of the parts that yield any,
in order, and the context afterwards is the same. If some part is the first to fail, the block fails
with the same error and in the same context, in which the error is recorded: it is the answer to every
further part and in place of every circuit, and nothing changes any more. -/
theorem generate_block {ctx : Context} (fresh : ctx.failure = none) (span : Span) (ns : List Node) :
    (∀ (fragments : List Fragment) ctx', generateEach ctx ns = (fragments.map .ok, ctx') →
      runFrom ctx (block span ns).generate =
        (.ok (.stmt (.block (fragments.filterMap Fragment.statement?))), ctx')) ∧
    ∀ before n after (fragments : List Fragment) ctx₁ e ctx', ns = before ++ n :: after →
      generateEach ctx before = (fragments.map .ok, ctx₁) →
      runFrom ctx₁ n.generate = (.error e, ctx') →
        runFrom ctx (block span ns).generate = (.error e, ctx') ∧
        generateEach ctx ns =
          (fragments.map .ok ++ (n :: after).map fun _ => .error e, ctx') ∧
        ctx'.failure = some e ∧
        (∀ later : Node, runFrom ctx' later.generate = (.error e, ctx')) ∧
        ∀ field, ctx'.circuit field = .error e := by
  constructor
  · intro fragments ctx' succeeded
    have lowered := (lowerStatements_of_generateEach fresh succeeded).1
    exact runFrom_generate_eq_ok.2 ⟨fresh, runFrom_lower_block_eq_ok.2 ⟨_, lowered, rfl⟩⟩
  · rintro before n after fragments ctx₁ e ctx' rfl succeeded failed
    obtain ⟨lowered, fresh₁⟩ := lowerStatements_of_generateEach fresh succeeded
    obtain ⟨ctx₂, stopped, rfl⟩ := (runFrom_generate_eq_error fresh₁).1 failed
    have recorded : ({ ctx₂ with failure := some e } : Context).failure = some e := rfl
    have whole : runFrom ctx (block span (before ++ n :: after)).lower = (.error e, ctx₂) := by
      rw [lower, runFrom_bind, lowerStatements_eq_error lowered stopped]
    have answers : generateEach { ctx₂ with failure := some e } after =
        (after.map fun _ => .error e, { ctx₂ with failure := some e }) :=
      generateEach_of_failure recorded after
    refine ⟨(runFrom_generate_eq_error fresh).2 ⟨ctx₂, whole, rfl⟩, ?_, recorded,
      runFrom_generate_of_failure recorded, fun _ => rfl⟩
    rw [generateEach_append, succeeded, generateEach_cons failed, answers, List.map_cons]

/-- The parts `var x; x = 1; { y; }; function f(a) {}`, of which the third one fails. -/
def partsWithUnknownName : List Node :=
  let x : Node := .var .unknown "x" []
  [.declare .unknown "VARIABLE" x, .op .unknown "=" [x, .number .unknown 1],
    .block .unknown [.var (.line 3 2 2) "y" []],
    .function .unknown "f" ["a"] (.block .unknown [])]

theorem generate_block_partsWithUnknownName :
    Context.empty.failure = none ∧
      (∃ (fragments : List Fragment) (ctx' : Context),
        generateEach .empty (partsWithUnknownName.take 2) = (fragments.map .ok, ctx') ∧
        fragments.filterMap Fragment.statement? =
          [.expr (.set (.var "x" []) (.number "1"))] ∧
        runFrom .empty (block .unknown (partsWithUnknownName.take 2)).generate =
          (.ok (.stmt (.block [.expr (.set (.var "x" []) (.number "1"))])), ctx')) ∧
      ∃ ctx', runFrom .empty (block .unknown partsWithUnknownName).generate =
          (.error (.unresolved "y" (.line 3 2 2)), ctx') ∧
        ctx'.scope.global.keys = ["x"] ∧
        ctx'.circuit .bn254 = .error (.unresolved "y" (.line 3 2 2)) := by
  have fresh : Context.empty.failure = none := rfl
  obtain ⟨ctx₁, succeeded, names⟩ : ∃ ctx₁,
      generateEach .empty (partsWithUnknownName.take 2) =
        ([Fragment.nothing, .expr (.set (.var "x" []) (.number "1"))].map .ok, ctx₁) ∧
      ctx₁.scope.global.keys = ["x"] := ⟨_, rfl, rfl⟩
  have together := (generate_block fresh .unknown (partsWithUnknownName.take 2)).1 _ _ succeeded
  obtain ⟨ctx', failed, same⟩ : ∃ ctx',
      runFrom ctx₁ (block .unknown [.var (.line 3 2 2) "y" []]).generate =
        (.error (.unresolved "y" (.line 3 2 2)), ctx') ∧ ctx'.scope.global.keys = ["x"] := by
    cases succeeded
    exact ⟨_, rfl, rfl⟩
  obtain ⟨stopped, -, -, -, noCircuit⟩ :=
    (generate_block fresh .unknown partsWithUnknownName).2 _ _ _ _ _ _ _ rfl succeeded failed
  exact ⟨fresh, ⟨_, ctx₁, succeeded, rfl, together⟩, ctx', stopped, same, noCircuit .bn254⟩

end Node

end ArithCircuit
