import ArithCircuit.Proofs.Laws
import Mathlib.Tactic.Choose

set_option autoImplicit false
set_option relaxedAutoImplicit false

/-!
# Lowering code that declares nothing

A node without declarations and definitions leaves the context that it is lowered in as it is. What it
is lowered to, or why it is not, is a function of what the visible names stand for: the depth of the
scope, the places where the names were introduced and the registered definitions play no part. Main
statement: `Node.runFrom_lower_of_declaresNothing`.
-/

namespace ArithCircuit

open Lowering

/-- What the visible names stand for. -/
def Context.visibleKind? (ctx : Context) (name : String) : Option SymbolKind :=
  (ctx.scope.lookup? name).map Symbol.kind

/-! ### Functions of the visible kinds -/

/-- A step that leaves the context as it is, whatever its outcome, which is a function of what the
visible names stand for. -/
def Lowering.ReadsKinds {α : Type} (step : Lowering α) : Prop :=
  ∃ outcome : (String → Option SymbolKind) → Except LoweringError α,
    ∀ ctx, runFrom ctx step = (outcome ctx.visibleKind?, ctx)

namespace Lowering.ReadsKinds

variable {α β : Type} {step : Lowering α}

theorem pure (a : α) : ReadsKinds (Pure.pure a) := ⟨fun _ => .ok a, fun _ => rfl⟩

theorem throw (e : LoweringError) : ReadsKinds (MonadExcept.throw e : Lowering α) :=
  ⟨fun _ => .error e, fun _ => rfl⟩

theorem bind {next : α → Lowering β} (first : ReadsKinds step)
    (second : ∀ a, ReadsKinds (next a)) : ReadsKinds (step >>= next) := by
  obtain ⟨outcome, runs⟩ := first
  choose outcomes runsNext using second
  refine ⟨fun kinds => outcome kinds >>= fun a => outcomes a kinds, fun ctx => ?_⟩
  rw [runFrom_bind, runs]
  cases found : outcome ctx.visibleKind? with
  | ok a =>
    simp only [found, runsNext]
    rfl
  | error e =>
    simp only [found]
    rfl

/-- The symbol of a name holds the place of its introduction as well, which must not matter. -/
theorem resolve (name : String) (span : Span) {next : Symbol → Lowering α}
    (each : ∀ symbol, ReadsKinds (next symbol))
    (same : ∀ symbol symbol', symbol.kind = symbol'.kind → next symbol = next symbol') :
    ReadsKinds (Lowering.resolve name span >>= next) := by
  choose outcomes runs using each
  let unknown : Except LoweringError α := .error (.unresolved name span)
  refine ⟨fun kinds => (kinds name).elim unknown fun kind => outcomes ⟨kind, span⟩ kinds,
    fun ctx => ?_⟩
  rw [runFrom_bind, runFrom_resolve]
  cases found : ctx.scope.lookup? name with
  | none =>
    have hidden : ctx.visibleKind? name = none := by
      rw [Context.visibleKind?, found, Option.map_none]
    simp only [hidden, Option.elim_none, unknown]
  | some symbol =>
    have visible : ctx.visibleKind? name = some symbol.kind := by
      rw [Context.visibleKind?, found, Option.map_some]
    -- The next step is that for a symbol of the same kind that was introduced where it is used.
    simp only [visible, Option.elim_some, same symbol ⟨symbol.kind, span⟩ rfl, runs]

/-- What a step that reads kinds leaves and yields. -/
theorem frame (reads : ReadsKinds step) :
    (∀ ctx, (runFrom ctx step).2 = ctx) ∧
      ∀ ctx ctx', (∀ name, ctx.visibleKind? name = ctx'.visibleKind? name) →
        (runFrom ctx step).1 = (runFrom ctx' step).1 := by
  obtain ⟨outcome, runs⟩ := reads
  constructor
  · intro ctx
    rw [runs]
  · intro ctx ctx' agree
    rw [runs, runs, funext agree]

end Lowering.ReadsKinds

/-! ### Nodes that declare nothing -/

/-- A tree without declarations and definitions. -/
def Node.DeclaresNothing (root : Node) : Prop :=
  ∀ n, root.Contains n → n.kind ∉ [NodeKind.declare, .template, .function]

theorem Lowering.lawOf_readsKinds {root : Node} (plain : root.DeclaresNothing) :
    LawOf root fun _ step => ReadsKinds step where
  pure := .pure
  throw := .throw
  bind := .bind
  resolve := .resolve
  declare inside := absurd (.head _) (plain _ inside)
  body _ _ _ _ inside defines _ := absurd (.tail _ defines) (plain _ inside)
  template inside _ := absurd (.tail _ (.head _)) (plain _ inside)
  function inside _ := absurd (.tail _ (.tail _ (.head _))) (plain _ inside)

/-- Lowering a node that declares and defines nothing leaves the context as it is, whether it succeeds
or fails. Its result, code or diagnostic, is the same in any two contexts in which every name stands for
the same kind of thing, or for nothing in both. -/
theorem Node.runFrom_lower_of_declaresNothing {n : Node} (plain : n.DeclaresNothing) :
    (∀ ctx, (runFrom ctx n.lower).2 = ctx) ∧
      ∀ ctx ctx', (∀ name, ctx.visibleKind? name = ctx'.visibleKind? name) →
        (runFrom ctx n.lower).1 = (runFrom ctx' n.lower).1 :=
  (Node.obeys_lower_of (lawOf_readsKinds plain) n .self).frame

/-- The signal `x` is counted up by the same code below an open level, with `x` declared at another
place and a template registered. -/
theorem Node.runFrom_lower_of_declaresNothing_signal :
    let x : Node := .var .unknown "x" []
    let n : Node := .op .unknown "PLUSPLUSLEFT" [x]
    let place : Span := .line 2 4 9
    let table (span : Span) : Table := (∅ : Table).insert "x" ⟨.signal, span⟩
    let ctx : Context := { Context.empty with scope := ⟨[], table .unknown⟩ }
    let ctx' : Context := ⟨⟨[∅, table place], ∅⟩,
      { Registry.empty with templates := (∅ : OrderedMap Definition).insert "T" ⟨[], [], place⟩ }, none⟩
    n.DeclaresNothing ∧ (∀ name, ctx.visibleKind? name = ctx'.visibleKind? name) ∧
      runFrom ctx' n.lower = (.ok (.expr (.set (.signal "x" [])
        (Arithmetic.increment (.get (.signal "x" []))))), ctx') := by
  intro x n place table ctx ctx'
  have plain : n.DeclaresNothing :=
    forall_contains (by decide) fun m member => by
      cases List.mem_singleton.1 member
      exact forall_contains (by decide) nofun
  have agree (name : String) : ctx.visibleKind? name = ctx'.visibleKind? name := by
    simp only [Context.visibleKind?, Scope.lookup?, Scope.tables, List.nil_append, List.cons_append,
      List.findSome?_cons, List.findSome?_nil, OrderedMap.get?_empty, OrderedMap.get?_insert, ctx, ctx',
      table]
    by_cases same : name = "x"
    · simp only [if_pos same, Option.map_some]
    · simp only [if_neg same]
  obtain ⟨leaves, reads⟩ := runFrom_lower_of_declaresNothing plain
  exact ⟨plain, agree, Prod.ext (reads ctx ctx' agree).symm (leaves ctx')⟩

end ArithCircuit
