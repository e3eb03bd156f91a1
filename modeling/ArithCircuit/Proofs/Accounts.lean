import ArithCircuit.Proofs.Faults

set_option autoImplicit false
set_option relaxedAutoImplicit false

/-!
# Steps that account for their names and failures

A step of lowering introduces some names. It accounts for them if every name in scope after it is
one that was introduced, and if its error, where it fails, is shown by a node of the unit:
`Lowering.Accounts`. A collision is traced back to an introduction that came before. There is one
lemma for each primitive step, and steps that account for their names can be put together.
-/

namespace ArithCircuit

open Lowering

/-- A step in some level adds some introductions to a trace. If the names in scope are accounted for
before it, then so they are after it if it succeeds, and if it fails, its error is diagnosed. -/
structure Lowering.Accounts {α : Type} (root : Node) (level : List Node) (new : List Introduction)
    (step : Lowering α) : Prop where
  accounted : ∀ {seen ctx a ctx'}, ctx.Accounted root seen level →
    runFrom ctx step = (.ok a, ctx') → ctx'.Accounted root (seen ++ new) level
  diagnosed : ∀ {seen ctx e ctx'}, ctx.Accounted root seen level →
    runFrom ctx step = (.error e, ctx') → e.Diagnosed root (seen ++ new)

namespace Lowering.Accounts

variable {α β : Type} {root : Node} {level : List Node} {new new' : List Introduction}
  {step : Lowering α} {next : α → Lowering β}

theorem pure (a : α) : Accounts root level [] (Pure.pure a : Lowering α) where
  accounted before ran := by
    obtain ⟨-, rfl⟩ := runFrom_pure_eq_ok.1 ran
    rwa [List.append_nil]
  diagnosed _ ran := by simp at ran

theorem throw {e : LoweringError} {n : Node} (inside : root.Contains n)
    (shows : ∀ trace, root.Shows trace n e) :
    Accounts root level new (MonadExcept.throw e : Lowering α) where
  accounted _ ran := absurd ran runFrom_throw_ne_ok
  diagnosed _ ran := by
    rw [runFrom_throw] at ran
    cases ran
    exact ⟨n, inside, shows _⟩

/-- Further introductions may follow. -/
theorem append (accounts : Accounts root level new step) (more : List Introduction) :
    Accounts root level (new ++ more) step where
  accounted before ran := by
    rw [← List.append_assoc]
    exact (accounts.accounted before ran).append more
  diagnosed before ran := by
    obtain ⟨n, inside, shows⟩ := accounts.diagnosed before ran
    rw [← List.append_assoc]
    exact ⟨n, inside, shows.append more⟩

theorem bind (first : Accounts root level new step)
    (second : ∀ ctx a ctx', runFrom ctx step = (.ok a, ctx') → Accounts root level new' (next a)) :
    Accounts root level (new ++ new') (step >>= next) where
  accounted before ran := by
    obtain ⟨a, ctx₁, ranFirst, ranSecond⟩ := runFrom_bind_eq_ok.1 ran
    rw [← List.append_assoc]
    exact (second _ a ctx₁ ranFirst).accounted (first.accounted before ranFirst) ranSecond
  diagnosed {seen ctx e ctx'} before ran := by
    obtain failed | ⟨a, ctx₁, ranFirst, ranSecond⟩ := runFrom_bind_eq_error.1 ran
    · exact (first.append new').diagnosed before failed
    · rw [← List.append_assoc]
      exact (second _ a ctx₁ ranFirst).diagnosed (first.accounted before ranFirst) ranSecond

/-- What follows a step may introduce nothing. -/
theorem andThen (first : Accounts root level new step)
    (second : ∀ ctx a ctx', runFrom ctx step = (.ok a, ctx') → Accounts root level [] (next a)) :
    Accounts root level new (step >>= next) := by
  have both := first.bind second
  rwa [List.append_nil] at both

theorem map (first : Accounts root level new step) (f : α → β) :
    Accounts root level new (f <$> step) := by
  rw [map_eq_pure_bind]
  exact first.andThen fun _ a _ _ => .pure (f a)

/-- A step that introduces nothing may come first. -/
theorem before (first : Accounts root level [] step)
    (second : ∀ ctx a ctx', runFrom ctx step = (.ok a, ctx') → Accounts root level new (next a)) :
    Accounts root level new (step >>= next) :=
  first.bind second

/-! #### Names -/

theorem resolve {n : Node} {name : String} {span : Span} (inside : root.Contains n)
    (shows : ∀ trace, root.Shows trace n (.unresolved name span)) :
    Accounts root level [] (Lowering.resolve name span) where
  accounted before ran := by
    obtain ⟨-, rfl⟩ := runFrom_resolve_eq_ok.1 ran
    rwa [List.append_nil]
  diagnosed _ ran := by
    rw [runFrom_resolve] at ran
    split at ran
    · cases ran
    · cases ran
      exact ⟨n, inside, shows _⟩

theorem cellOf {name : String} {span : Span} {selectors : List Node}
    (inside : root.Contains (.var span name selectors)) (indices : List Expr) (kind : SymbolKind) :
    Accounts root level [] (ArithCircuit.cellOf name indices span kind) := by
  cases kind
  case var | signal => exact .pure _
  case component | template | function =>
    exact .throw inside fun _ => .wrongSymbol nofun nofun

theorem resolveComponent {component name : String} {span : Span}
    {componentSelectors selectors : List Node}
    (inside : root.Contains (.pin span component componentSelectors name selectors)) :
    Accounts root level [] (ArithCircuit.resolveComponent component span) := by
  apply (resolve inside fun _ => .unresolvedComponent).before
  intro ctx symbol ctx' _
  split
  · exact .pure _
  · next other => exact .throw inside fun _ => .wrongComponent other

theorem readName {name : String} {span : Span} {selectors : List Node}
    (inside : root.Contains (.var span name selectors)) :
    Accounts root level [] (ArithCircuit.readName name span) :=
  (resolve inside fun _ => .unresolved).before fun _ _ _ _ => (cellOf inside [] _).map _

/-! #### Declarations and definitions -/

theorem diagnosed_of_clash {seen : List Introduction} {earlier : List Node} {previous : Symbol}
    {later : Introduction} (inside : root.Contains later.node)
    (introduced : previous.Introduced root seen earlier later.name)
    (clashes : earlier = later.level ∨ previous.kind = .function ∧ later.kind = .function) :
    (LoweringError.collision later.name later.node.span previous.span).Diagnosed root
      (seen ++ [later]) := by
  obtain ⟨i, member, contained, name, kind, span, rfl⟩ := introduced
  have order : List.Sublist [i, later] (seen ++ [later]) :=
    (List.singleton_sublist.2 member).append (List.Sublist.refl [later])
  have clash : i.Clashes later := by
    rw [← kind] at clashes
    exact ⟨name, clashes⟩
  have shown : root.Shows (seen ++ [later]) later.node
      (.collision later.name later.node.span i.node.span) := .collision order clash contained
  rw [span] at shown
  exact ⟨later.node, inside, shown⟩

theorem targetOf {span at' : Span} {op : Operator} {name : String} {selectors values : List Node}
    (inside : root.Contains (.op span op.symbol (.var at' name selectors :: values)))
    (stores : op.stores = true) (indices : List Expr) (kind : SymbolKind) :
    Accounts root level [] (ArithCircuit.targetOf name indices at' kind) := by
  have own : root.Contains (.var at' name selectors) := inside.child (.head _)
  cases kind
  case var | signal | component => exact .pure _
  case template => exact .throw own fun _ => .definedName inside stores (.inl rfl)
  case function => exact .throw own fun _ => .definedName inside stores (.inr rfl)

/-- A declaration makes the name that a node introduces. -/
theorem declare {i : Introduction} (inside : root.Contains i.node) (own : i.level = level) :
    Accounts root level [i] (Lowering.declare i.name i.kind i.node.span) where
  accounted before ran := by
    obtain ⟨scope, declared, rfl⟩ := runFrom_declare_eq_ok.1 ran
    apply (before.append [i]).declare declared
    exact ⟨i, List.mem_append_right _ (List.mem_singleton_self i), inside, rfl, rfl, rfl, own⟩
  diagnosed before ran := by
    obtain ⟨failed, -⟩ := runFrom_changeScope_eq_error.1 ran
    obtain ⟨previous, found, rfl⟩ := Scope.declare_eq_error_iff.1 failed
    exact diagnosed_of_clash inside (before.current _ previous found) (.inl own.symm)

theorem declareNode {span : Span} {tag : String} {name : Node}
    (inside : root.Contains (.declare span tag name)) :
    Accounts root level (Node.declaredIntroductions level span tag name)
      (ArithCircuit.declareNode tag name span) := by
  unfold ArithCircuit.declareNode
  cases known : DeclarationKind.ofTag? tag with
  | none => exact .throw inside fun _ => .unknownTag known
  | some kind =>
    cases name
    case var at' name dimensions =>
      rw [Node.declaredIntroductions_of_known known]
      exact (declare (i := ⟨_, name, _, level, .declared known⟩) inside rfl).andThen
        fun _ _ _ _ => .pure name
    all_goals
      have child := inside.child (List.mem_singleton_self _)
      exact .throw child fun _ => .noName inside nofun

/-- A declaration that is a target looks up the name that it has just made, so this cannot fail. -/
theorem declareTarget {at' : Span} {tag : String} {name : Node}
    (inside : root.Contains (.declare at' tag name)) (span : Span) :
    Accounts root level (Node.declaredIntroductions level at' tag name) (do
      let declared ← ArithCircuit.declareNode tag name at'
      let symbol ← Lowering.resolve declared span
      ArithCircuit.targetOf declared [] span symbol.kind) where
  accounted before ran := by
    simp only [runFrom_bind_eq_ok, runFrom_resolve_eq_ok, runFrom_targetOf_eq_ok] at ran
    obtain ⟨declared, ctx₁, ranFirst, symbol, _, ⟨-, rfl⟩, -, rfl⟩ := ran
    exact (declareNode inside).accounted before ranFirst
  diagnosed before ran := by
    obtain failed | ⟨declared, ctx₁, ranFirst, failed⟩ := runFrom_bind_eq_error.1 ran
    · exact (declareNode inside).diagnosed before failed
    · obtain ⟨found, succeeds⟩ := exists_target_of_declareNode ranFirst span
      rw [succeeds] at failed
      cases failed

theorem declareAll {span : Span} {introductions : List Introduction}
    (each : ∀ i ∈ introductions, root.Contains i.node ∧ i.level = level ∧ i.kind = .var ∧
      i.node.span = span) :
    Accounts root level introductions
      ((introductions.map Introduction.name).forM fun name => Lowering.declare name .var span) := by
  induction introductions with
  | nil => exact .pure ()
  | cons i rest ih =>
    obtain ⟨inside, own, kind, place⟩ := each i (.head _)
    have first : Accounts root level [i] (Lowering.declare i.name .var span) := by
      rw [← kind, ← place]
      exact declare inside own
    rw [List.map_cons, List.forM_eq_forM, List.forM_cons]
    exact first.bind fun _ _ _ _ => ih fun other member => each other (.tail _ member)

theorem params {definition : Node} (inside : root.Contains definition) :
    Accounts root (definition :: level) (definition.paramIntroductions level)
      (definition.params.forM fun param => Lowering.declare param .var definition.span) := by
  have each : ∀ i ∈ definition.paramIntroductions level, root.Contains i.node ∧
      i.level = definition :: level ∧ i.kind = .var ∧ i.node.span = definition.span := by
    intro i member
    obtain ⟨name, isParam, rfl⟩ := List.mem_pmap.1 member
    exact ⟨inside, rfl, rfl, rfl⟩
  have declared := declareAll each
  rwa [Node.map_name_paramIntroductions] at declared

theorem registerTemplate {i : Introduction} {d : Definition} (inside : root.Contains i.node)
    (kind : i.kind = .template) (global : i.level = []) (place : i.node.span = d.span) :
    Accounts root level [i] (Lowering.registerTemplate i.name d) where
  accounted before ran := by
    apply (before.append [i]).registerTemplate ran
    exact ⟨i, List.mem_append_right _ (List.mem_singleton_self i), inside, rfl, kind, place, global⟩
  diagnosed before ran := by
    obtain failed | ⟨_, _, _, impossible⟩ := runFrom_bind_eq_error.1 ran
    · obtain ⟨failed, -⟩ := runFrom_changeScope_eq_error.1 failed
      obtain ⟨previous, found, rfl⟩ := Scope.declareGlobal_eq_error_iff.1 failed
      rw [← place]
      exact diagnosed_of_clash inside (before.global _ previous found) (.inl global.symm)
    · simp at impossible

theorem registerFunction {i : Introduction} {d : Definition} (inside : root.Contains i.node)
    (kind : i.kind = .function) (own : i.level = level) (place : i.node.span = d.span) :
    Accounts root level [i] (Lowering.registerFunction i.name d) where
  accounted before ran := by
    apply (before.append [i]).registerFunction ran
    exact ⟨i, List.mem_append_right _ (List.mem_singleton_self i), inside, rfl, kind, place, own⟩
  diagnosed {seen ctx e ctx'} before ran := by
    rw [Lowering.registerFunction, runFrom_bind, runFrom_get] at ran
    cases found : ctx.registry.functions.get? i.name with
    | some previous =>
      simp only [found, runFrom_throw, Prod.mk.injEq, Except.error.injEq] at ran
      obtain ⟨rfl, -⟩ := ran
      obtain ⟨earlier, introduced⟩ := before.functions _ previous found
      rw [← place]
      exact diagnosed_of_clash inside introduced (.inr ⟨rfl, kind⟩)
    | none =>
      simp only [found] at ran
      obtain failed | ⟨_, _, _, impossible⟩ := runFrom_bind_eq_error.1 ran
      · rw [← kind, ← place] at failed
        exact (declare inside own).diagnosed before failed
      · simp at impossible

/-- A level is opened for the body of a definition and closed behind it. -/
theorem inLevel {definition : Node} (inside : Accounts root (definition :: level) new step) :
    Accounts root level new (Lowering.inLevel step) where
  accounted before ran := by
    obtain ⟨ctx₁, ranInside, rfl⟩ := runFrom_inLevel_eq_ok.1 ran
    exact (inside.accounted (before.push definition) ranInside).leave
  diagnosed {seen ctx e ctx'} before ran := by
    rw [runFrom_inLevel] at ran
    rcases ranInside : runFrom { ctx with scope := ctx.scope.push } step with ⟨outcome, ctx₁⟩
    rw [ranInside] at ran
    cases ran
    exact inside.diagnosed (before.push definition) ranInside

/-! #### Values -/

/-- A node that is needed for its value yields one or is at fault. -/
theorem valueOf {n : Node} (lowered : Accounts root level new n.lower)
    (needed : n.isReference = true ∨ ∃ parent, root.Contains parent ∧ n ∈ parent.expressions) :
    Accounts root level new (ArithCircuit.valueOf n n.lower) := by
  apply lowered.andThen
  intro ctx fragment ctx' ran
  have fault (other : ∀ e, fragment ≠ .expr e) : Accounts root level []
      (MonadExcept.throw (.invalidNode .expression n.kind n.span) : Lowering Expr) := by
    obtain reference | ⟨parent, inside, expected⟩ := needed
    · obtain ⟨e, rfl⟩ := Node.exists_expr_of_isReference reference ran
      exact absurd rfl (other e)
    · have child := inside.child (parent.expressions_subset_children expected)
      exact .throw child fun _ => .noValue inside expected ⟨ctx, fragment, ctx', ran, other⟩
  cases fragment
  case expr e => exact .pure e
  all_goals exact fault nofun

end Lowering.Accounts

end ArithCircuit
