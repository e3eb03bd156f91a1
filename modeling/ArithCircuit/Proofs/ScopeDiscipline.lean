import ArithCircuit.Proofs.Disciplines

set_option autoImplicit false
set_option relaxedAutoImplicit false

/-!
# What a lowering does to the scope

Lowering a node, whether it succeeds or fails, leaves the scope at the depth it had. It adds names to
the innermost and to the global table, which keep what they hold, and touches no table between them;
below the global level the only names that become global are those of templates. Main statement:
`Node.scope_grows`.
-/

namespace ArithCircuit

open Lowering

/-- From one table to another new names came last, with symbols of a given kind, and no other entry
changed. -/
def Table.Gains (P : Symbol → Prop) (t t' : Table) : Prop :=
  ∃ gained, t'.entries = t.entries ++ gained ∧ ∀ e ∈ gained, t.get? e.1 = none ∧ P e.2

namespace Table.Gains

variable {P Q : Symbol → Prop} {t t₁ t₂ : Table}

theorem refl (P : Symbol → Prop) (t : Table) : t.Gains P t :=
  ⟨[], (List.append_nil _).symm, by simp⟩

theorem get?_eq_none (gains : t.Gains P t₁) {name : String} (absent : t₁.get? name = none) :
    t.get? name = none := by
  obtain ⟨gained, entries, -⟩ := gains
  rw [OrderedMap.get?_eq_none_iff] at absent ⊢
  intro e member
  apply absent e
  rw [entries]
  exact List.mem_append_left gained member

theorem trans (first : t.Gains P t₁) (second : t₁.Gains P t₂) : t.Gains P t₂ := by
  obtain ⟨gained, entries, fresh⟩ := id first
  obtain ⟨gained', entries', fresh'⟩ := second
  refine ⟨gained ++ gained', ?_, ?_⟩
  · rw [entries', entries, List.append_assoc]
  · intro e member
    rcases List.mem_append.1 member with member | member
    · exact fresh e member
    · exact ⟨first.get?_eq_none (fresh' e member).1, (fresh' e member).2⟩

theorem mono (gains : t.Gains P t₁) (weaker : ∀ symbol, P symbol → Q symbol) : t.Gains Q t₁ := by
  obtain ⟨gained, entries, fresh⟩ := gains
  exact ⟨gained, entries, fun e member => ⟨(fresh e member).1, weaker _ (fresh e member).2⟩⟩

theorem insert {name : String} {symbol : Symbol} (fresh : t.get? name = none) (holds : P symbol) :
    t.Gains P (t.insert name symbol) := by
  refine ⟨[(name, symbol)], OrderedMap.entries_insert_of_fresh fresh symbol, ?_⟩
  intro e member
  cases List.mem_singleton.1 member
  exact ⟨fresh, holds⟩

end Table.Gains

/-- From one scope to another names were added to the innermost and to the global table, which keep
their entries in their order; all other tables are the same ones. Above another level, only templates
became global. -/
structure Scope.Grows (s s' : Scope) : Prop where
  depth_eq : s'.depth = s.depth
  between : s'.inner.tail = s.inner.tail
  current : s.current.Gains (fun _ => True) s'.current
  global : s.global.Gains (fun symbol => 1 < s.depth → symbol.kind = .template) s'.global

namespace Scope.Grows

variable {s s₁ s₂ : Scope}

theorem refl (s : Scope) : s.Grows s where
  depth_eq := rfl
  between := rfl
  current := .refl _ _
  global := .refl _ _

theorem trans (first : s.Grows s₁) (second : s₁.Grows s₂) : s.Grows s₂ where
  depth_eq := second.depth_eq.trans first.depth_eq
  between := second.between.trans first.between
  current := first.current.trans second.current
  global := by
    have later := second.global
    rw [first.depth_eq] at later
    exact first.global.trans later

/-- A declaration adds its name to the innermost table. -/
theorem of_declare {name : String} {symbol : Symbol} (declared : s.declare name symbol = .ok s₁) :
    s.Grows s₁ := by
  obtain ⟨global, rfl, fresh, rfl⟩ | ⟨t, rest, global, rfl, fresh, rfl⟩ :=
    Scope.declare_eq_ok_cases declared
  · refine ⟨rfl, rfl, .insert fresh trivial, .insert fresh ?_⟩
    -- There is no other level, so the global table may gain any name.
    intro deeper
    exact absurd deeper (Nat.lt_irrefl 1)
  · exact ⟨rfl, rfl, .insert fresh trivial, .refl _ _⟩

/-- The name of a template is added to the global table, which may be the innermost one. -/
theorem current_of_declareGlobal {name : String} {span : Span}
    (declared : s.declareGlobal name ⟨.template, span⟩ = .ok s₁) :
    s.current.Gains (fun symbol => symbol.kind = .template) s₁.current := by
  obtain ⟨fresh, rfl⟩ := Scope.declareGlobal_eq_ok_iff.1 declared
  obtain ⟨_ | ⟨t, rest⟩, global⟩ := s
  · exact .insert fresh rfl
  · exact .refl _ _

theorem of_declareGlobal {name : String} {span : Span}
    (declared : s.declareGlobal name ⟨.template, span⟩ = .ok s₁) : s.Grows s₁ := by
  have current := current_of_declareGlobal declared
  obtain ⟨fresh, rfl⟩ := Scope.declareGlobal_eq_ok_iff.1 declared
  exact ⟨rfl, rfl, current.mono fun _ _ => trivial, .insert fresh fun _ => rfl⟩

/-- A level of its own is closed again, so only the templates inside it remain. -/
theorem current_of_level (inside : s.push.Grows s₁) :
    s.current.Gains (fun symbol => symbol.kind = .template) s₁.pop.current := by
  have outer : s₁.pop.inner = s.inner := inside.between
  obtain ⟨inner, global⟩ := s
  cases inner with
  | nil =>
    have deeper : 1 < (Scope.push ⟨[], global⟩).depth := Nat.lt_succ_self 1
    have alone : s₁.pop.current = s₁.global := by rw [Scope.current, outer]; rfl
    rw [alone]
    exact inside.global.mono fun _ template => template deeper
  | cons t rest =>
    have same : s₁.pop.current = t := by rw [Scope.current, outer]
    rw [same]
    exact .refl _ _

theorem of_level (inside : s.push.Grows s₁) : s.Grows s₁.pop := by
  have outer : s₁.pop.inner = s.inner := inside.between
  have deeper : 1 < s.push.depth := by
    rw [Scope.depth_push, Scope.depth]
    omega
  refine ⟨?_, ?_, (current_of_level inside).mono fun _ _ => trivial, ?_⟩
  · rw [Scope.depth, Scope.depth, outer]
  · rw [outer]
  · exact inside.global.mono fun _ template _ => template deeper

end Scope.Grows

/-- Every change of a context makes the scope grow. -/
theorem Context.discipline_grows :
    Context.Discipline fun ctx ctx' => ctx.scope.Grows ctx'.scope where
  refl ctx := .refl ctx.scope
  trans := .trans
  declare _ declared := .of_declare declared
  level := .of_level
  registerTemplate _ registered := by
    obtain ⟨scope, declared, rfl⟩ := runFrom_registerTemplate_eq_ok.1 registered
    exact .of_declareGlobal declared
  registerFunction _ registered := by
    obtain ⟨-, scope, declared, rfl⟩ := runFrom_registerFunction_eq_ok.1 registered
    exact .of_declare declared

/-- The body of a definition is lowered above a level that only its parameters were added to. -/
theorem Node.Lowers.grows_of_body {ctx ctx₁ : Context} {params : List String} {span : Span}
    {body : Node} {fragment : Fragment} (inside : body.Lowers (ctx.enter params span) fragment ctx₁)
    (declared : runFrom { ctx with scope := ctx.scope.push }
      (params.forM fun param => Lowering.declare param .var span) =
        (.ok (), ctx.enter params span)) : ctx.scope.push.Grows ctx₁.scope := by
  have opened := Context.discipline_grows.params params span { ctx with scope := ctx.scope.push }
  have lowered := Node.follows_lower Context.discipline_grows body (ctx.enter params span)
  rw [inside.runFrom_eq_ok] at lowered
  rw [declared] at opened
  exact opened.trans lowered

/-- Scope discipline. Let a node be lowered from any context, with success or without. The depth of
the scope is as before. The innermost and the global table keep their entries in place and gain only
names that they did not hold, and every other table is as before. If the global table is not the only
one, all names that it gains are templates. -/
theorem Node.scope_grows (n : Node) (ctx : Context) :
    ctx.scope.Grows (runFrom ctx n.lower).2.scope :=
  Node.follows_lower Context.discipline_grows n ctx

end ArithCircuit
