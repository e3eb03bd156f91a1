import ArithCircuit.Lowering.Error
import ArithCircuit.OrderedMap

set_option autoImplicit false
set_option relaxedAutoImplicit false

/-!
# Scopes

A scope is a stack of symbol tables over a global table that always stays. A name is looked up from
the innermost table outwards, and no table holds a name twice: a second declaration fails and leaves
the scope as it was.
-/

namespace ArithCircuit

/-- The names declared at one level, oldest first. -/
abbrev Table := OrderedMap Symbol

namespace Table

/-- Add a name to a table that does not hold it yet. -/
def declare (t : Table) (name : String) (symbol : Symbol) : Except LoweringError Table :=
  match t.get? name with
  | some previous => .error (.collision name symbol.span previous.span)
  | none => .ok (t.insert name symbol)

/-- A name is added exactly if the table does not hold it. -/
theorem declare_eq_ok_iff {t t' : Table} {name : String} {symbol : Symbol} :
    t.declare name symbol = .ok t' ↔ t.get? name = none ∧ t' = t.insert name symbol := by
  unfold declare
  cases h : t.get? name with
  | none => simp [eq_comm]
  | some previous => simp

end Table

/-- Nested symbol tables. -/
structure Scope where
  /-- The tables above the global one, innermost first. -/
  inner : List Table
  global : Table

namespace Scope

/-- The scope with an empty global table and no other. -/
def empty : Scope := ⟨[], ∅⟩

instance : Inhabited Scope := ⟨empty⟩

/-- The number of tables. -/
def depth (s : Scope) : Nat := s.inner.length + 1

/-- All tables, innermost first. -/
def tables (s : Scope) : List Table := s.inner ++ [s.global]

/-- The innermost table. -/
def current (s : Scope) : Table :=
  match s.inner with
  | [] => s.global
  | t :: _ => t

/-- Open a level. -/
def push (s : Scope) : Scope := { s with inner := ∅ :: s.inner }

/-- The innermost table and the scope without it; the global table cannot be removed. -/
def pop? (s : Scope) : Option (Table × Scope) :=
  match s.inner with
  | [] => none
  | t :: rest => some (t, { s with inner := rest })

/-- Close the innermost level, if there is one above the global table. -/
def pop (s : Scope) : Scope := { s with inner := s.inner.tail }

/-- Declare a name in the innermost table. -/
def declare (s : Scope) (name : String) (symbol : Symbol) : Except LoweringError Scope :=
  match s.inner with
  | [] => do
    let t ← s.global.declare name symbol
    return { s with global := t }
  | t :: rest => do
    let t ← t.declare name symbol
    return { s with inner := t :: rest }

/-- Declare a name in the global table, whatever the depth. -/
def declareGlobal (s : Scope) (name : String) (symbol : Symbol) : Except LoweringError Scope := do
  let t ← s.global.declare name symbol
  return { s with global := t }

/-- What a name stands for: its entry in the innermost table that has one. -/
def lookup? (s : Scope) (name : String) : Option Symbol := s.tables.findSome? (·.get? name)

/-- What a name stands for; a name that stands for nothing is at fault at the given span. -/
def resolve (s : Scope) (name : String) (span : Span) : Except LoweringError Symbol :=
  match s.lookup? name with
  | some symbol => .ok symbol
  | none => .error (.unresolved name span)

private theorem declareIn_eq_ok_iff {t : Table} {place : Table → Scope} {s' : Scope}
    {name : String} {symbol : Symbol} :
    (do let t ← t.declare name symbol; return place t) = Except.ok s' ↔
      t.get? name = none ∧ s' = place (t.insert name symbol) := by
  unfold Table.declare
  cases t.get? name with
  | none => simp [bind, Except.bind, pure, Except.pure, eq_comm]
  | some previous => simp [bind, Except.bind]

private theorem declareIn_eq_error_iff {t : Table} {place : Table → Scope} {e : LoweringError}
    {name : String} {symbol : Symbol} :
    (do let t ← t.declare name symbol; return place t) = Except.error e ↔
      ∃ previous, t.get? name = some previous ∧ e = .collision name symbol.span previous.span := by
  unfold Table.declare
  cases t.get? name with
  | none => simp [bind, Except.bind, pure, Except.pure]
  | some previous => simp [bind, Except.bind, eq_comm]

/-- A name is declared exactly if the innermost table does not hold it, and in that table only. -/
theorem declare_eq_ok_iff {s s' : Scope} {name : String} {symbol : Symbol} :
    s.declare name symbol = .ok s' ↔ s.current.get? name = none ∧
      s' = match s.inner with
        | [] => { s with global := s.global.insert name symbol }
        | t :: rest => { s with inner := t.insert name symbol :: rest } := by
  obtain ⟨inner, global⟩ := s
  cases inner with
  | nil => exact declareIn_eq_ok_iff
  | cons first rest => exact declareIn_eq_ok_iff

theorem declareGlobal_eq_ok_iff {s s' : Scope} {name : String} {symbol : Symbol} :
    s.declareGlobal name symbol = .ok s' ↔ s.global.get? name = none ∧
      s' = { s with global := s.global.insert name symbol } :=
  declareIn_eq_ok_iff

/-- A declaration fails exactly if the innermost table holds the name. -/
theorem declare_eq_error_iff {s : Scope} {e : LoweringError} {name : String} {symbol : Symbol} :
    s.declare name symbol = .error e ↔ ∃ previous, s.current.get? name = some previous ∧
      e = .collision name symbol.span previous.span := by
  obtain ⟨inner, global⟩ := s
  cases inner with
  | nil => exact declareIn_eq_error_iff
  | cons first rest => exact declareIn_eq_error_iff

theorem declareGlobal_eq_error_iff {s : Scope} {e : LoweringError} {name : String}
    {symbol : Symbol} :
    s.declareGlobal name symbol = .error e ↔ ∃ previous, s.global.get? name = some previous ∧
      e = .collision name symbol.span previous.span :=
  declareIn_eq_error_iff

@[simp] theorem depth_push (s : Scope) : s.push.depth = s.depth + 1 := rfl

@[simp] theorem pop_push (s : Scope) : s.push.pop = s := rfl

/-- A fresh level hides no name. -/
@[simp] theorem lookup?_push (s : Scope) (name : String) : s.push.lookup? name = s.lookup? name := by
  simp only [lookup?, tables, push, List.cons_append, List.findSome?_cons, OrderedMap.get?_empty]

/-- A name that is declared stands for its symbol from then on; no other name is touched. -/
theorem lookup?_of_declare {s s' : Scope} {name : String} {symbol : Symbol}
    (declared : s.declare name symbol = .ok s') (other : String) :
    s'.lookup? other = if other = name then some symbol else s.lookup? other := by
  obtain ⟨-, rfl⟩ := declare_eq_ok_iff.1 declared
  obtain ⟨inner, global⟩ := s
  cases inner with
  | nil =>
    simp only [lookup?, tables, List.nil_append, List.findSome?_cons, OrderedMap.get?_insert]
    by_cases same : other = name <;> simp only [same, if_true, if_false]
  | cons first rest =>
    simp only [lookup?, tables, List.cons_append, List.findSome?_cons, OrderedMap.get?_insert]
    by_cases same : other = name <;> simp only [same, if_true, if_false]

theorem pop?_push (s : Scope) : s.push.pop? = some (∅, s) := rfl

end Scope

end ArithCircuit
