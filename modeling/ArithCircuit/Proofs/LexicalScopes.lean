import ArithCircuit.Lowering.Scope
import Mathlib.Data.List.Induction
import Mathlib.Data.List.Infix

set_option autoImplicit false
set_option relaxedAutoImplicit false

/-!
# Scopes as lexical environments

A scope is used by opening and closing levels and by declaring names in the innermost or in the
global table, in any order. What a name stands for is told here by the sequence of these operations
alone: by the first declaration of the name that succeeded in the innermost table which is still
open and has one. Closing a level restores what was there before it, but for the names that became
global inside. Main statement: `Scope.lexical_environment`.
-/

namespace ArithCircuit.Scope

/-! ### Operations -/

/-- What can be done to a scope. -/
inductive Operation where
  | push
  | pop
  | declare (name : String) (symbol : Symbol)
  | declareGlobal (name : String) (symbol : Symbol)

/-- What an operation answers. -/
inductive Answer where
  | done
  /-- The table that was removed; the global one cannot be. -/
  | popped (table : Option Table)
  | refused (e : LoweringError)

/-- The answer to a declaration. A scope in which it fails stays as it is. -/
def settle (s : Scope) : Except LoweringError Scope → Answer × Scope
  | .ok s' => (.done, s')
  | .error e => (.refused e, s)

/-- The answer to an operation, and the scope behind it. -/
def perform (s : Scope) : Operation → Answer × Scope
  | .push => (.done, s.push)
  | .pop =>
    match s.pop? with
    | some (t, s') => (.popped (some t), s')
    | none => (.popped none, s)
  | .declare name symbol => s.settle (s.declare name symbol)
  | .declareGlobal name symbol => s.settle (s.declareGlobal name symbol)

/-- The scope behind a sequence of operations. -/
def after (s : Scope) (ops : List Operation) : Scope :=
  ops.foldl (fun s op => (s.perform op).2) s

/-- The answers to a sequence of operations. -/
def answers (s : Scope) : List Operation → List Answer
  | [] => []
  | op :: ops => (s.perform op).1 :: (s.perform op).2.answers ops

/-- Whether an operation opens a level. -/
def Operation.opens : Operation → Bool
  | push => true
  | _ => false

/-- Whether an answer says that a level was closed. -/
def Answer.closes : Answer → Bool
  | popped (some _) => true
  | _ => false

@[simp] theorem after_nil (s : Scope) : s.after [] = s := rfl

@[simp] theorem after_cons (s : Scope) (op : Operation) (ops : List Operation) :
    s.after (op :: ops) = (s.perform op).2.after ops := rfl

theorem after_append (s : Scope) (ops ops' : List Operation) :
    s.after (ops ++ ops') = (s.after ops).after ops' := List.foldl_append

theorem after_concat (s : Scope) (ops : List Operation) (op : Operation) :
    s.after (ops ++ [op]) = ((s.after ops).perform op).2 := after_append s ops [op]

/-! ### Levels -/

/-- All tables, the global one first. -/
def levels (s : Scope) : List Table := s.global :: s.inner.reverse

/-- What the table at a level holds under a name. -/
def symbolAt? (s : Scope) (level : Nat) (name : String) : Option Symbol :=
  s.levels[level]?.bind fun t => t.get? name

theorem lt_depth_of_symbolAt? {s : Scope} {level : Nat} {name : String} {symbol : Symbol}
    (found : s.symbolAt? level name = some symbol) : level < s.depth := by
  obtain ⟨t, present, -⟩ := Option.bind_eq_some_iff.1 found
  have bound := (List.getElem?_eq_some_iff.1 present).1
  rwa [levels, List.length_cons, List.length_reverse] at bound

theorem symbolAt?_eq_none_of_depth_le {s : Scope} {level : Nat} (high : s.depth ≤ level)
    (name : String) : s.symbolAt? level name = none := by
  rw [Option.eq_none_iff_forall_ne_some]
  intro symbol found
  exact absurd (lt_depth_of_symbolAt? found) (Nat.not_lt.2 high)

theorem symbolAt?_zero (s : Scope) (name : String) : s.symbolAt? 0 name = s.global.get? name := rfl

/-- Below the innermost table everything is as without it. -/
theorem symbolAt?_cons (t : Table) (rest : List Table) (global : Table) (level : Nat)
    (name : String) : symbolAt? ⟨t :: rest, global⟩ level name =
      if level = rest.length + 1 then t.get? name else symbolAt? ⟨rest, global⟩ level name := by
  have order : levels ⟨t :: rest, global⟩ = levels ⟨rest, global⟩ ++ [t] := by
    simp [levels]
  have length : (levels ⟨rest, global⟩).length = rest.length + 1 := by
    simp [levels]
  rw [symbolAt?, order]
  split
  case isTrue top =>
    rw [top, ← length, List.getElem?_concat_length]
    rfl
  case isFalse other =>
    by_cases below : level < rest.length + 1
    · rw [List.getElem?_append_left (length ▸ below)]
      rfl
    · have above : (levels ⟨rest, global⟩ ++ [t]).length ≤ level := by
        rw [List.length_append, length, List.length_singleton]
        omega
      rw [List.getElem?_eq_none above, symbolAt?_eq_none_of_depth_le (Nat.not_lt.1 below)]
      rfl

theorem lookup?_nil (global : Table) (name : String) :
    lookup? ⟨[], global⟩ name = global.get? name := by
  cases found : global.get? name <;> simp [lookup?, tables, found]

theorem lookup?_cons (t : Table) (rest : List Table) (global : Table) (name : String) :
    lookup? ⟨t :: rest, global⟩ name = (t.get? name).or (lookup? ⟨rest, global⟩ name) := by
  cases found : t.get? name <;> simp [lookup?, tables, found]

/-- A name stands for its entry in the innermost table that has one. -/
theorem lookup?_eq_some_iff {s : Scope} {name : String} {symbol : Symbol} :
    s.lookup? name = some symbol ↔ ∃ level, s.symbolAt? level name = some symbol ∧
      ∀ level', level < level' → s.symbolAt? level' name = none := by
  obtain ⟨inner, global⟩ := s
  induction inner with
  | nil =>
    rw [lookup?_nil]
    constructor
    · intro found
      refine ⟨0, found, ?_⟩
      intro level' higher
      exact symbolAt?_eq_none_of_depth_le higher name
    · rintro ⟨level, found, -⟩
      obtain rfl : level = 0 := Nat.lt_one_iff.1 (lt_depth_of_symbolAt? found)
      exact found
  | cons t rest ih =>
    have top : symbolAt? ⟨rest, global⟩ (rest.length + 1) name = none :=
      symbolAt?_eq_none_of_depth_le (Nat.le_refl _) name
    simp only [lookup?_cons, symbolAt?_cons]
    cases inside : t.get? name with
    | none =>
      -- The innermost table holds nothing, so all levels are as without it.
      have same : ∀ level, (if level = rest.length + 1 then none
          else symbolAt? ⟨rest, global⟩ level name) = symbolAt? ⟨rest, global⟩ level name := by
        intro level
        split
        case isTrue here => rw [here, top]
        case isFalse => rfl
      simpa only [same, Option.none_or] using ih
    | some symbol' =>
      rw [Option.some_or, Option.some.injEq]
      constructor
      · rintro rfl
        refine ⟨rest.length + 1, if_pos rfl, ?_⟩
        intro level' higher
        rw [if_neg (Nat.ne_of_gt higher)]
        exact symbolAt?_eq_none_of_depth_le (Nat.le_of_lt higher) name
      · rintro ⟨level, found, none⟩
        split at found
        case isTrue => exact Option.some.inj found
        case isFalse other =>
          have below : level < rest.length + 1 := lt_depth_of_symbolAt? found
          have hidden := none (rest.length + 1) below
          rw [if_pos rfl] at hidden
          cases hidden

theorem lookup?_eq_none_iff {s : Scope} {name : String} :
    s.lookup? name = none ↔ ∀ level, s.symbolAt? level name = none := by
  constructor
  · intro unknown level
    rw [lookup?, List.findSome?_eq_none_iff] at unknown
    rw [symbolAt?, Option.bind_eq_none_iff]
    intro t present
    apply unknown t
    simpa [levels, tables, or_comm] using List.mem_of_getElem? present
  · intro none
    rw [Option.eq_none_iff_forall_ne_some]
    intro symbol found
    obtain ⟨level, entry, -⟩ := lookup?_eq_some_iff.1 found
    cases (none level).symm.trans entry

/-! ### Declarations -/

/-- An operation that declares a name with success, in the table at a level. -/
inductive Declares (s : Scope) : Operation → String → Nat → Symbol → Prop where
  | here {name : String} {symbol : Symbol} {s' : Scope} : s.declare name symbol = .ok s' →
      Declares s (.declare name symbol) name s.inner.length symbol
  | global {name : String} {symbol : Symbol} {s' : Scope} :
      s.declareGlobal name symbol = .ok s' →
      Declares s (.declareGlobal name symbol) name 0 symbol

theorem Declares.unique {s : Scope} {op : Operation} {name name' : String} {level level' : Nat}
    {symbol symbol' : Symbol} (first : s.Declares op name level symbol)
    (second : s.Declares op name' level' symbol') :
    name' = name ∧ level' = level ∧ symbol' = symbol := by
  cases first <;> cases second <;> exact ⟨rfl, rfl, rfl⟩

theorem symbolAt?_insert_global (inner : List Table) (global : Table) (name : String)
    (symbol : Symbol) (level : Nat) (other : String) :
    symbolAt? ⟨inner, global.insert name symbol⟩ level other =
      if level = 0 ∧ other = name then some symbol else symbolAt? ⟨inner, global⟩ level other := by
  cases level with
  | zero =>
    rw [symbolAt?_zero, symbolAt?_zero, OrderedMap.get?_insert]
    simp
  | succ level => simp [symbolAt?, levels]

theorem symbolAt?_insert_inner (t : Table) (rest : List Table) (global : Table) (name : String)
    (symbol : Symbol) (level : Nat) (other : String) :
    symbolAt? ⟨t.insert name symbol :: rest, global⟩ level other =
      if level = rest.length + 1 ∧ other = name then some symbol
      else symbolAt? ⟨t :: rest, global⟩ level other := by
  rw [symbolAt?_cons, symbolAt?_cons, OrderedMap.get?_insert]
  by_cases top : level = rest.length + 1
  · simp [top]
  · simp [top]

/-- What a declaration does to a scope: a table that does not hold the name gains it, and nothing
else changes. -/
structure Gains (s s' : Scope) (name : String) (level : Nat) (symbol : Symbol) : Prop where
  depth_eq : s'.depth = s.depth
  level_lt : level < s.depth
  fresh : s.symbolAt? level name = none
  symbolAt?_eq : ∀ level' other, s'.symbolAt? level' other =
    if level' = level ∧ other = name then some symbol else s.symbolAt? level' other

theorem gains_of_declareGlobal {s s' : Scope} {name : String} {symbol : Symbol}
    (declared : s.declareGlobal name symbol = .ok s') : s.Gains s' name 0 symbol := by
  obtain ⟨fresh, rfl⟩ := declareGlobal_eq_ok_iff.1 declared
  exact ⟨rfl, Nat.succ_pos _, fresh, symbolAt?_insert_global s.inner s.global name symbol⟩

theorem gains_of_declare {s s' : Scope} {name : String} {symbol : Symbol}
    (declared : s.declare name symbol = .ok s') : s.Gains s' name s.inner.length symbol := by
  obtain ⟨fresh, rfl⟩ := declare_eq_ok_iff.1 declared
  obtain ⟨inner, global⟩ := s
  cases inner with
  | nil => exact ⟨rfl, Nat.succ_pos _, fresh, symbolAt?_insert_global [] global name symbol⟩
  | cons t rest =>
    refine ⟨rfl, Nat.lt_succ_self _, ?_, symbolAt?_insert_inner t rest global name symbol⟩
    rw [symbolAt?_cons, List.length_cons, if_pos rfl]
    exact fresh

theorem Declares.gains {s : Scope} {op : Operation} {name : String} {level : Nat}
    {symbol : Symbol} (declares : s.Declares op name level symbol) :
    s.Gains (s.perform op).2 name level symbol := by
  cases declares with
  | here declared =>
    have gains := gains_of_declare declared
    simpa only [perform, declared, settle] using gains
  | global declared =>
    have gains := gains_of_declareGlobal declared
    simpa only [perform, declared, settle] using gains

/-! ### One operation -/

/-- All that an operation can do: open a level, close one, declare a name, or leave the scope as it
is, in which case it was refused. -/
inductive Performs (s : Scope) : Operation → Answer → Scope → Prop where
  | push : Performs s .push .done s.push
  | pop {t : Table} {rest : List Table} : s.inner = t :: rest →
      Performs s .pop (.popped (some t)) ⟨rest, s.global⟩
  | bottom : s.inner = [] → Performs s .pop (.popped none) s
  | declare {op : Operation} {name : String} {level : Nat} {symbol : Symbol} :
      s.Declares op name level symbol → Performs s op .done (s.perform op).2
  | refused {name : String} {symbol previous : Symbol} :
      s.current.get? name = some previous →
      Performs s (.declare name symbol) (.refused (.collision name symbol.span previous.span)) s
  | refusedGlobal {name : String} {symbol previous : Symbol} :
      s.global.get? name = some previous →
      Performs s (.declareGlobal name symbol)
        (.refused (.collision name symbol.span previous.span)) s

theorem performs_perform (s : Scope) (op : Operation) :
    s.Performs op (s.perform op).1 (s.perform op).2 := by
  cases op with
  | push => exact .push
  | pop =>
    obtain ⟨inner, global⟩ := s
    cases inner with
    | nil => exact .bottom rfl
    | cons t rest => exact .pop rfl
  | declare name symbol =>
    cases declared : s.declare name symbol with
    | ok s' =>
      have performs := Performs.declare (Declares.here declared)
      simpa only [perform, declared, settle] using performs
    | error e =>
      obtain ⟨previous, found, rfl⟩ := declare_eq_error_iff.1 declared
      simpa only [perform, declared, settle] using Performs.refused found
  | declareGlobal name symbol =>
    cases declared : s.declareGlobal name symbol with
    | ok s' =>
      have performs := Performs.declare (Declares.global declared)
      simpa only [perform, declared, settle] using performs
    | error e =>
      obtain ⟨previous, found, rfl⟩ := declareGlobal_eq_error_iff.1 declared
      simpa only [perform, declared, settle] using Performs.refusedGlobal found

/-- The depth grows by one for each level opened and shrinks by one for each level closed. -/
theorem depth_perform (s : Scope) (op : Operation) :
    (s.perform op).2.depth + (if (s.perform op).1.closes then 1 else 0) =
      s.depth + if op.opens then 1 else 0 := by
  have performs := performs_perform s op
  generalize (s.perform op).1 = answer, same : (s.perform op).2 = s' at performs
  cases performs with
  | push => rfl
  | pop inner =>
    rw [depth, depth, inner]
    rfl
  | bottom => rfl
  | declare declares =>
    have kept := declares.gains.depth_eq
    cases declares <;> exact kept
  | refused => rfl
  | refusedGlobal => rfl

/-- In a table that is still open, an entry was there before the operation or is its own. -/
theorem symbolAt?_perform_eq_some_iff {s : Scope} {op : Operation} {name : String} {level : Nat}
    {symbol : Symbol} (stays : level < (s.perform op).2.depth) :
    (s.perform op).2.symbolAt? level name = some symbol ↔
      s.Declares op name level symbol ∨ s.symbolAt? level name = some symbol := by
  have performs := performs_perform s op
  generalize (s.perform op).1 = answer, same : (s.perform op).2 = s' at performs stays
  cases performs with
  | push =>
    have other : ¬ s.Declares .push name level symbol := by
      intro declares
      cases declares
    rw [or_iff_right other, push, symbolAt?_cons]
    split
    case isTrue top =>
      rw [symbolAt?_eq_none_of_depth_le (s := s) (Nat.le_of_eq top.symm), OrderedMap.get?_empty]
    case isFalse => rfl
  | @pop t rest inner =>
    have other : ¬ s.Declares .pop name level symbol := by
      intro declares
      cases declares
    obtain ⟨_, global⟩ := s
    obtain rfl : _ = t :: rest := inner
    have below : level ≠ rest.length + 1 := Nat.ne_of_lt stays
    rw [or_iff_right other, symbolAt?_cons, if_neg below]
  | bottom =>
    have other : ¬ s.Declares .pop name level symbol := by
      intro declares
      cases declares
    rw [or_iff_right other]
  | @declare _ name' level' symbol' declares =>
    have gains := declares.gains
    rw [gains.symbolAt?_eq]
    split
    case isTrue here =>
      obtain ⟨rfl, rfl⟩ := here
      rw [gains.fresh, Option.some.injEq]
      constructor
      · rintro rfl
        exact .inl declares
      · rintro (again | ⟨⟨⟩⟩)
        exact (declares.unique again).2.2.symm
    case isFalse elsewhere =>
      have other : ¬ s.Declares op name level symbol := by
        intro again
        obtain ⟨rfl, rfl, -⟩ := declares.unique again
        exact elsewhere ⟨rfl, rfl⟩
      rw [or_iff_right other]
  | @refused name' symbol' previous held =>
    have other : ¬ s.Declares (.declare name' symbol') name level symbol := by
      intro declares
      cases declares with
      | here declared => cases held.symm.trans (declare_eq_ok_iff.1 declared).1
    rw [or_iff_right other]
  | @refusedGlobal name' symbol' previous held =>
    have other : ¬ s.Declares (.declareGlobal name' symbol') name level symbol := by
      intro declares
      cases declares with
      | global declared => cases held.symm.trans (declareGlobal_eq_ok_iff.1 declared).1
    rw [or_iff_right other]

/-! ### Sequences of operations -/

theorem depth_after (s : Scope) (ops : List Operation) :
    (s.after ops).depth + (s.answers ops).countP Answer.closes =
      s.depth + ops.countP Operation.opens := by
  induction ops generalizing s with
  | nil => rfl
  | cons op ops ih =>
    have first := depth_perform s op
    have rest := ih (s.perform op).2
    rw [after_cons, answers, List.countP_cons, List.countP_cons]
    omega

/-- At a position of a sequence that starts from the empty scope a name is declared, with success
and with a given symbol, in a table that is open from then on to the end. -/
def Stands (ops : List Operation) (name : String) (position level : Nat) (symbol : Symbol) : Prop :=
  ∃ before op later, ops = before ++ op :: later ∧ before.length = position ∧
    (empty.after before).Declares op name level symbol ∧
    ∀ part, part <+: later → level < (empty.after (before ++ op :: part)).depth

theorem Stands.lt_depth {ops : List Operation} {name : String} {position level : Nat}
    {symbol : Symbol} (stands : Stands ops name position level symbol) :
    level < (empty.after ops).depth := by
  obtain ⟨before, op, later, rfl, -, -, stays⟩ := stands
  exact stays later (List.prefix_refl later)

/-- Behind one more operation the declarations that still stand are those whose table is still open,
and its own. -/
theorem stands_concat_iff {ops : List Operation} {op : Operation} {name : String}
    {position level : Nat} {symbol : Symbol} :
    Stands (ops ++ [op]) name position level symbol ↔
      (Stands ops name position level symbol ∧ level < (empty.after (ops ++ [op])).depth) ∨
        (position = ops.length ∧ (empty.after ops).Declares op name level symbol) := by
  constructor
  · rintro ⟨before, op', later, split, length, declares, stays⟩
    rcases List.eq_nil_or_concat later with rfl | ⟨later, last, rfl⟩
    · obtain ⟨rfl, same⟩ := List.append_inj' split rfl
      cases same
      exact .inr ⟨length.symm, declares⟩
    · rw [List.concat_eq_append] at split stays
      rw [← List.cons_append, ← List.append_assoc] at split
      obtain ⟨rfl, same⟩ := List.append_inj' split rfl
      cases same
      refine .inl ⟨⟨before, op', later, rfl, length, declares, ?_⟩, ?_⟩
      · intro part isPart
        exact stays part (isPart.trans (List.prefix_append later [op]))
      · rw [List.append_assoc, List.cons_append]
        exact stays _ (List.prefix_refl _)
  · rintro (⟨⟨before, op', later, rfl, length, declares, stays⟩, open'⟩ | ⟨rfl, declares⟩)
    · refine ⟨before, op', later ++ [op], by simp, length, declares, ?_⟩
      intro part isPart
      rcases List.prefix_concat_iff.1 isPart with rfl | isPart
      · rwa [List.append_assoc, List.cons_append] at open'
      · exact stays part isPart
    · refine ⟨ops, op, [], rfl, rfl, declares, ?_⟩
      intro part isPart
      rw [List.prefix_nil.1 isPart, after_concat, declares.gains.depth_eq]
      exact declares.gains.level_lt

/-- Each table that is open holds exactly the declarations that stand in it. -/
theorem symbolAt?_after_eq_some_iff {ops : List Operation} {name : String} {level : Nat}
    {symbol : Symbol} : (empty.after ops).symbolAt? level name = some symbol ↔
      ∃ position, Stands ops name position level symbol := by
  induction ops using List.reverseRecOn generalizing symbol with
  | nil =>
    have nothing : symbolAt? empty level name = none := by
      cases level <;> rfl
    rw [after_nil, nothing]
    constructor
    · rintro ⟨⟩
    · rintro ⟨_, before, op, later, split, -⟩
      simp at split
  | append_singleton ops op ih =>
    constructor
    · intro found
      have stays := lt_depth_of_symbolAt? found
      rw [after_concat] at found stays
      rcases (symbolAt?_perform_eq_some_iff stays).1 found with declares | old
      · exact ⟨ops.length, stands_concat_iff.2 (.inr ⟨rfl, declares⟩)⟩
      · obtain ⟨position, stands⟩ := ih.1 old
        rw [← after_concat] at stays
        exact ⟨position, stands_concat_iff.2 (.inl ⟨stands, stays⟩)⟩
    · rintro ⟨position, stands⟩
      have stays := stands.lt_depth
      rw [after_concat] at stays ⊢
      apply (symbolAt?_perform_eq_some_iff stays).2
      rcases stands_concat_iff.1 stands with ⟨old, -⟩ | ⟨-, declares⟩
      · exact .inr (ih.2 ⟨position, old⟩)
      · exact .inl declares

/-- A name is declared at most once in each table. -/
theorem Stands.unique {ops : List Operation} {name : String} {level position position' : Nat}
    {symbol symbol' : Symbol} (first : Stands ops name position level symbol)
    (second : Stands ops name position' level symbol') : position' = position := by
  induction ops using List.reverseRecOn with
  | nil =>
    obtain ⟨before, op, later, split, -⟩ := first
    simp at split
  | append_singleton ops op ih =>
    have apart : ∀ {position : Nat} {symbol symbol' : Symbol},
        Stands ops name position level symbol →
          ¬ (empty.after ops).Declares op name level symbol' := by
      intro position symbol symbol' old declares
      have fresh := declares.gains.fresh
      rw [symbolAt?_after_eq_some_iff.2 ⟨position, old⟩] at fresh
      cases fresh
    rcases stands_concat_iff.1 first with ⟨old, -⟩ | ⟨here, declares⟩
    · rcases stands_concat_iff.1 second with ⟨old', -⟩ | ⟨-, declares'⟩
      · exact ih old old'
      · exact absurd declares' (apart old)
    · rcases stands_concat_iff.1 second with ⟨old', -⟩ | ⟨here', -⟩
      · exact absurd declares (apart old')
      · rw [here, here']

/-- A name stands for the first of its declarations that stand, in the innermost table that has
one. -/
theorem lookup?_after_eq_some_iff {ops : List Operation} {name : String} {symbol : Symbol} :
    (empty.after ops).lookup? name = some symbol ↔
      ∃ position level, Stands ops name position level symbol ∧
        ∀ position' level' symbol', Stands ops name position' level' symbol' →
          level' < level ∨ level' = level ∧ position ≤ position' := by
  rw [lookup?_eq_some_iff]
  constructor
  · rintro ⟨level, found, none⟩
    obtain ⟨position, stands⟩ := symbolAt?_after_eq_some_iff.1 found
    refine ⟨position, level, stands, ?_⟩
    intro position' level' symbol' other
    rcases Nat.lt_trichotomy level' level with below | rfl | above
    · exact .inl below
    · exact .inr ⟨rfl, Nat.le_of_eq (stands.unique other).symm⟩
    · have hidden := none level' above
      rw [symbolAt?_after_eq_some_iff.2 ⟨position', other⟩] at hidden
      cases hidden
  · rintro ⟨position, level, stands, innermost⟩
    refine ⟨level, symbolAt?_after_eq_some_iff.2 ⟨position, stands⟩, ?_⟩
    intro level' above
    rw [Option.eq_none_iff_forall_ne_some]
    intro symbol' found
    obtain ⟨position', other⟩ := symbolAt?_after_eq_some_iff.1 found
    rcases innermost position' level' symbol' other with below | ⟨same, -⟩
    · exact absurd below (Nat.lt_asymm above)
    · exact absurd same (Nat.ne_of_gt above)

theorem lookup?_after_eq_none_iff {ops : List Operation} {name : String} :
    (empty.after ops).lookup? name = none ↔
      ∀ position level symbol, ¬ Stands ops name position level symbol := by
  rw [lookup?_eq_none_iff]
  constructor
  · intro none position level symbol stands
    cases (none level).symm.trans (symbolAt?_after_eq_some_iff.2 ⟨position, stands⟩)
  · intro none level
    rw [Option.eq_none_iff_forall_ne_some]
    intro symbol found
    obtain ⟨position, stands⟩ := symbolAt?_after_eq_some_iff.1 found
    exact none position level symbol stands

/-! ### Refusals -/

theorem lookup?_of_current {s : Scope} {name : String} {symbol : Symbol}
    (found : s.current.get? name = some symbol) : s.lookup? name = some symbol := by
  obtain ⟨inner, global⟩ := s
  cases inner with
  | nil => rw [lookup?_nil, ← found, current]
  | cons t rest =>
    rw [current] at found
    rw [lookup?_cons, found, Option.some_or]

/-- A declaration that is refused changes nothing, and the span that it reports is that of the entry
which remains what the name stands for. -/
theorem refused_declare {s s' : Scope} {name : String} {symbol : Symbol} {e : LoweringError}
    (refused : s.perform (.declare name symbol) = (.refused e, s')) :
    s' = s ∧ ∃ previous, s'.lookup? name = some previous ∧
      e = .collision name symbol.span previous.span := by
  have performs := performs_perform s (.declare name symbol)
  rw [refused] at performs
  cases performs with
  | refused found => exact ⟨rfl, _, lookup?_of_current found, rfl⟩

theorem refused_declareGlobal {s s' : Scope} {name : String} {symbol : Symbol} {e : LoweringError}
    (refused : s.perform (.declareGlobal name symbol) = (.refused e, s')) :
    s' = s ∧ ∃ previous, s'.global.get? name = some previous ∧
      e = .collision name symbol.span previous.span := by
  have performs := performs_perform s (.declareGlobal name symbol)
  rw [refused] at performs
  cases performs with
  | refusedGlobal found => exact ⟨rfl, _, found, rfl⟩

/-! ### Brackets -/

/-- A level is opened, the operations inside leave it open, and then it is closed. -/
structure Bracket (s : Scope) (inside : List Operation) : Prop where
  above : ∀ part, part <+: inside → s.depth < (s.push.after part).depth
  closed : (s.push.after (inside ++ [.pop])).depth = s.depth

/-- The symbol that an operation would give to a name in the global table. -/
def Operation.global? (name : String) : Operation → Option Symbol
  | declareGlobal other symbol => if name = other then some symbol else none
  | _ => none

/-- Some level is open above the given ones. -/
def Above (outer : List Table) (s : Scope) : Prop :=
  ∃ t more, s.inner = t :: (more ++ outer)

/-- An operation above some levels does not reach them. All that can happen below is that a name is
added to the global table. -/
theorem above_perform {outer : List Table} {s : Scope} {op : Operation} (above : Above outer s)
    (stays : outer.length + 1 < (s.perform op).2.depth) :
    Above outer (s.perform op).2 ∧ ∀ name,
      (s.perform op).2.global.get? name = (s.global.get? name).or (op.global? name) := by
  obtain ⟨t, more, inner⟩ := id above
  have performs := performs_perform s op
  generalize (s.perform op).1 = answer, same : (s.perform op).2 = s' at performs stays
  cases performs with
  | push =>
    refine ⟨⟨∅, t :: more, ?_⟩, fun name => (Option.or_none).symm⟩
    rw [push, inner, List.cons_append]
  | pop inner' =>
    obtain ⟨rfl, rfl⟩ := List.cons.inj (inner'.symm.trans inner)
    refine ⟨?_, fun name => (Option.or_none).symm⟩
    cases more with
    | nil => exact absurd stays (Nat.lt_irrefl _)
    | cons t' more => exact ⟨t', more, rfl⟩
  | bottom inner' => cases inner'.symm.trans inner
  | declare declares =>
    cases declares with
    | here declared =>
      simp only [perform, declared, settle]
      obtain ⟨-, rfl⟩ := declare_eq_ok_iff.1 declared
      rw [inner]
      exact ⟨⟨_, more, rfl⟩, fun name => (Option.or_none).symm⟩
    | global declared =>
      simp only [perform, declared, settle]
      obtain ⟨fresh, rfl⟩ := declareGlobal_eq_ok_iff.1 declared
      refine ⟨⟨t, more, inner⟩, fun other => ?_⟩
      rw [OrderedMap.get?_insert, Operation.global?]
      split
      case isTrue here => rw [here, fresh, Option.none_or]
      case isFalse => rw [Option.or_none]
  | refused => exact ⟨above, fun name => (Option.or_none).symm⟩
  | @refusedGlobal name symbol previous held =>
    refine ⟨above, fun other => ?_⟩
    rw [Operation.global?]
    split
    case isTrue here => rw [here, held, Option.some_or]
    case isFalse => rw [Option.or_none]

theorem above_after {outer : List Table} {s : Scope} (ops : List Operation) (above : Above outer s)
    (stays : ∀ part, part <+: ops → outer.length + 1 < (s.after part).depth) :
    Above outer (s.after ops) ∧ ∀ name, (s.after ops).global.get? name =
      (s.global.get? name).or (ops.findSome? (Operation.global? name)) := by
  induction ops generalizing s with
  | nil => exact ⟨above, fun name => (Option.or_none).symm⟩
  | cons op ops ih =>
    obtain ⟨first, gained⟩ := above_perform above (stays [op] (List.prefix_append [op] ops))
    obtain ⟨rest, gained'⟩ := ih first fun part isPart =>
      stays (op :: part) ((List.prefix_cons_inj op).2 isPart)
    refine ⟨rest, fun name => ?_⟩
    rw [after_cons, gained' name, gained name, Option.or_assoc, List.findSome?_cons]
    cases op.global? name <;> rfl

theorem lookup?_eq_or (s : Scope) (name : String) :
    s.lookup? name = (s.inner.findSome? (·.get? name)).or (s.global.get? name) := by
  rw [lookup?, tables, List.findSome?_append, List.findSome?_singleton]

/-- A bracket restores all tables but the global one. A name stands for what it stood for before or,
if that was nothing, for what it was first declared globally as inside. -/
theorem Bracket.restores {s : Scope} {inside : List Operation} (bracket : s.Bracket inside) :
    (∃ t, (s.push.after inside).perform .pop =
        (.popped (some t), s.push.after (inside ++ [.pop]))) ∧
      (s.push.after (inside ++ [.pop])).inner = s.inner ∧
      ∀ name, (s.push.after (inside ++ [.pop])).lookup? name =
        (s.lookup? name).or (inside.findSome? (Operation.global? name)) := by
  have opened : Above s.inner s.push := ⟨∅, [], rfl⟩
  obtain ⟨⟨t, more, inner⟩, gained⟩ := above_after inside opened bracket.above
  have closed := bracket.closed
  have popped : (s.push.after inside).perform .pop =
      (.popped (some t), ⟨more ++ s.inner, (s.push.after inside).global⟩) := by
    rw [perform, pop?, inner]
  rw [after_concat, popped] at closed ⊢
  -- The depth is back at what it was, so nothing is left of what was opened inside.
  have nothing : more = [] := by
    simp only [depth, List.length_append] at closed
    exact List.eq_nil_of_length_eq_zero (by omega)
  subst nothing
  refine ⟨⟨t, rfl⟩, rfl, fun name => ?_⟩
  rw [lookup?_eq_or, lookup?_eq_or, List.nil_append, gained name, Option.or_assoc]
  rfl

/-! ### The whole -/

/-- A scope is a lexical environment. Behind any sequence of operations from the empty scope:

* The depth is one plus the levels opened minus the levels closed, so at least one, and at depth one
  there is nothing to close.
* A declaration that is refused changes nothing, and reports the span of the entry that remains.
* A name stands for the first of its declarations that succeeded, in the innermost table which is
  still open and has one.
* After a bracket all tables but the global one are as before it, and every name stands for what it
  stood for before or, if that was nothing, for what it was first declared globally as inside. -/
theorem lexical_environment (ops : List Operation) :
    ((empty.after ops).depth + (empty.answers ops).countP Answer.closes =
        1 + ops.countP Operation.opens ∧
      1 ≤ (empty.after ops).depth ∧
      ((empty.after ops).depth = 1 →
        (empty.after ops).perform .pop = (.popped none, empty.after ops))) ∧
    (∀ name symbol e s',
      ((empty.after ops).perform (.declare name symbol) = (.refused e, s') →
        s' = empty.after ops ∧ ∃ previous, s'.lookup? name = some previous ∧
          e = .collision name symbol.span previous.span) ∧
      ((empty.after ops).perform (.declareGlobal name symbol) = (.refused e, s') →
        s' = empty.after ops ∧ ∃ previous, s'.global.get? name = some previous ∧
          e = .collision name symbol.span previous.span)) ∧
    (∀ name symbol,
      ((empty.after ops).lookup? name = some symbol ↔
        ∃ position level, Stands ops name position level symbol ∧
          ∀ position' level' symbol', Stands ops name position' level' symbol' →
            level' < level ∨ level' = level ∧ position ≤ position') ∧
      ((empty.after ops).lookup? name = none ↔
        ∀ position level symbol, ¬ Stands ops name position level symbol)) ∧
    ∀ inside, (empty.after ops).Bracket inside →
      (∃ t, ((empty.after ops).push.after inside).perform .pop =
        (.popped (some t), (empty.after ops).push.after (inside ++ [.pop]))) ∧
      ((empty.after ops).push.after (inside ++ [.pop])).inner = (empty.after ops).inner ∧
      ∀ name, ((empty.after ops).push.after (inside ++ [.pop])).lookup? name =
        ((empty.after ops).lookup? name).or (inside.findSome? (Operation.global? name)) := by
  refine ⟨⟨depth_after empty ops, Nat.succ_pos _, ?_⟩, ?_, ?_, fun _ bracket => bracket.restores⟩
  · intro alone
    have inner : (empty.after ops).inner = [] :=
      List.eq_nil_of_length_eq_zero (Nat.succ.inj alone)
    rw [perform, pop?, inner]
  · intro name symbol e s'
    exact ⟨refused_declare, refused_declareGlobal⟩
  · intro name symbol
    exact ⟨lookup?_after_eq_some_iff, lookup?_after_eq_none_iff⟩

/-- A level that hides a signal behind a variable and has a level of its own, in which a template
becomes global. -/
theorem lexical_environment_hiddenSignal :
    Bracket (empty.after [.declare "x" ⟨.signal, .unknown⟩])
        [.declare "x" ⟨.var, .unknown⟩, .push, .declareGlobal "T" ⟨.template, .unknown⟩, .pop] ∧
      ((empty.after [.declare "x" ⟨.signal, .unknown⟩]).push.after
        ([.declare "x" ⟨.var, .unknown⟩, .push, .declareGlobal "T" ⟨.template, .unknown⟩, .pop] ++
          [.pop])).lookup? "x" = some ⟨.signal, .unknown⟩ := by
  have bracket : Bracket (empty.after [.declare "x" ⟨.signal, .unknown⟩])
      [.declare "x" ⟨.var, .unknown⟩, .push, .declareGlobal "T" ⟨.template, .unknown⟩, .pop] := by
    refine ⟨?_, by decide⟩
    intro part isPart
    rw [← List.mem_inits] at isPart
    revert part
    decide
  obtain ⟨-, -, -, brackets⟩ := lexical_environment [.declare "x" ⟨.signal, .unknown⟩]
  obtain ⟨-, -, restored⟩ := brackets _ bracket
  exact ⟨bracket, restored "x"⟩

end ArithCircuit.Scope
