import ArithCircuit.Proofs.UnlistedCircuits

set_option autoImplicit false
set_option relaxedAutoImplicit false

/-!
# Texts of one line

Names are quoted with an escape for the end of a line, so an expression is written on one line
unless one of its literals is not: `Expr.newline_not_mem_render`. Which expressions and literals
stand in a statement is said here, too; the literals of compiled code are decimal, and none of them
ends a line.
-/

namespace ArithCircuit

open Listing

/-! ### Expressions -/

/-- Between quotes no line ends: the end of a line has an escape. -/
theorem Text.newline_not_mem_quoted (s : String) : '\n' ∉ (Text.quoted s).toList := by
  have escaped : ∀ c, '\n' ∉ Text.escapeQuoted c := by
    intro c member
    by_cases newline : c = '\n'
    · subst c
      exact absurd member (by decide)
    · obtain ⟨mark, form, read⟩ | form | ⟨form, -, -⟩ := Text.escapeQuoted_cases c
      · rw [form] at member
        have same : mark = '\n' := by simpa [eq_comm] using member
        subst same
        have back : Text.readEscaped ['\\', '\n'] = some ('\n', []) := rfl
        rw [read []] at back
        exact newline (Prod.mk.inj (Option.some.inj back)).1
      · have digits : '\n' ∉ Text.hex c.toNat := fun member =>
          Text.forall_mem_hex (P := (· ≠ '\n')) (by decide) c.toNat '\n' member rfl
        rw [form] at member
        simp [digits] at member
      · rw [form, List.mem_singleton] at member
        exact newline member.symm
  rw [Text.quoted, String.toList_ofList]
  simp [escaped]

theorem mem_commaChars {c : Char} {l : List (List Char)} (member : c ∈ commaChars l) :
    (∃ x ∈ l, c ∈ x) ∨ c = ',' ∨ c = ' ' := by
  cases l with
  | nil => cases member
  | cons first more =>
    rw [commaChars, intercalate_cons] at member
    simp only [List.mem_append, List.mem_flatMap, List.mem_cons, List.not_mem_nil, or_false] at member
    rcases member with member | ⟨x, later, (rfl | rfl) | member⟩
    · exact .inl ⟨first, .head _, member⟩
    · exact .inr (.inl rfl)
    · exact .inr (.inr rfl)
    · exact .inl ⟨x, .tail _ later, member⟩

/-- Texts without the end of a line make a list without one. -/
theorem newline_not_mem_commaChars {l : List (List Char)} (each : ∀ x ∈ l, '\n' ∉ x) :
    '\n' ∉ commaChars l := by
  intro member
  obtain ⟨x, inside, member⟩ | same | same := mem_commaChars member
  · exact each x inside member
  · cases same
  · cases same

theorem newline_not_mem_of_isWord {s : String} (word : isWord s = true) : '\n' ∉ s.toList := by
  intro member
  simp only [isWord, Bool.and_eq_true, List.all_eq_true] at word
  exact absurd (word.2 '\n' member) (by decide)

/-- The literals in an expression. -/
inductive Expr.HasLiteral (text : String) : Expr → Prop where
  | number : HasLiteral text (.number text)
  | part {e part : Expr} : part ∈ e.form.parts → HasLiteral text part → HasLiteral text e

theorem Form.newline_not_mem_chars {f : Form} (words : f.HasWords)
    (number : ∀ text, f = .number text → '\n' ∉ text.toList)
    (parts : ∀ e ∈ f.parts, '\n' ∉ e.render.toList) : '\n' ∉ f.chars := by
  cases f with
  | number text => exact number text rfl
  | word letters => exact newline_not_mem_of_isWord words
  | list items =>
    have each : ∀ x ∈ items.map fun e => e.render.toList, '\n' ∉ x := by
      intro x member
      obtain ⟨e, inside, rfl⟩ := List.mem_map.1 member
      exact parts e inside
    simpa [Form.chars] using newline_not_mem_commaChars each
  | choice condition whenTrue whenFalse =>
    have first := parts condition (by simp [Form.parts])
    have second := parts whenTrue (by simp [Form.parts])
    have third := parts whenFalse (by simp [Form.parts])
    simp [Form.chars, first, second, third]
  | call callee arguments =>
    have each : ∀ a ∈ arguments, '\n' ∉ a.chars := by
      intro a member
      cases a with
      | name s => exact Text.newline_not_mem_quoted s
      | value e => exact parts e (List.mem_filterMap.2 ⟨_, member, rfl⟩)
    have inside := newline_not_mem_commaChars (List.forall_mem_map.2 each)
    have word := newline_not_mem_of_isWord words
    simp [Form.chars, word, inside]

/-- An expression is written on one line if its literals are. -/
theorem Expr.newline_not_mem_render (e : Expr) :
    (∀ text, e.HasLiteral text → '\n' ∉ text.toList) → '\n' ∉ e.render.toList := by
  induction e using Expr.induction_on_parts with
  | step e ih =>
    intro literals
    have number : ∀ text, e.form = .number text → '\n' ∉ text.toList := by
      intro text same
      cases e with
      | number =>
        cases same
        exact literals text .number
      | _ => cases same
    rw [Expr.toList_render]
    exact Form.newline_not_mem_chars e.hasWords number fun part member =>
      ih part member fun text inside => literals text (.part member inside)

/-! ### Statements -/

namespace Stmt

/-- The expressions of a statement itself. -/
def expressions : Stmt → List Expr
  | .expr e | .ret e => [e]
  | .forLoop _ condition _ _ | .whileLoop condition _ => [condition]
  | .block _ => []

/-- An expression stands somewhere in a statement. -/
def Holds (s : Stmt) (e : Expr) : Prop := ∃ t, s.Contains t ∧ e ∈ t.expressions

/-- The literals in a statement. -/
def HasLiteral (s : Stmt) (text : String) : Prop := ∃ e, s.Holds e ∧ e.HasLiteral text

variable {s m : Stmt} {e : Expr}

theorem holds_of_mem (member : e ∈ s.expressions) : s.Holds e := ⟨s, .self, member⟩

theorem Holds.of_child (member : m ∈ s.children) (holds : m.Holds e) : s.Holds e := by
  obtain ⟨t, inside, own⟩ := holds
  exact ⟨t, inside.of_mem member, own⟩

mutual

/-- The expressions of the clause that a statement makes stand in the statement. -/
theorem holds_of_clause? {c : Clause} : (s : Stmt) → s.clause? = some c →
    ∀ e, some e ∈ c.parts → s.Holds e
  | .expr e, made, e', member => by
    cases made
    cases List.mem_singleton.1 member
    exact holds_of_mem (.head _)
  | .block body, made, e, member => by
    obtain ⟨m, inside, holds⟩ := holds_of_blockClause? body made e member
    exact holds.of_child inside
  | .forLoop .., made, _, _ | .whileLoop .., made, _, _ | .ret .., made, _, _ => by cases made

theorem holds_of_blockClause? {c : Clause} : (ss : List Stmt) → Stmt.blockClause? ss = some c →
    ∀ e, some e ∈ c.parts → ∃ m ∈ ss, m.Holds e
  | [], made, e, member => by
    cases made
    simp [Clause.absent, Clause.parts] at member
  | [s], made, e, member => ⟨s, .head _, holds_of_clause? s made e member⟩
  | s :: s' :: ss, made, e, member => by
    rw [Stmt.blockClause?] at made
    · simp only [Option.bind_eq_bind, Option.bind_eq_some_iff] at made
      obtain ⟨first, madeFirst, rest, madeRest, ⟨⟩⟩ := made
      rw [Clause.parts_append, List.mem_append] at member
      rcases member with member | member
      · exact ⟨s, .head _, holds_of_clause? s madeFirst e member⟩
      · obtain ⟨m, inside, holds⟩ := holds_of_blockClause? (s' :: ss) madeRest e member
        exact ⟨m, .tail _ inside, holds⟩
    · simp

end

theorem holds_of_optionClause? {c : Clause} {clause : Option Stmt}
    (made : Stmt.optionClause? clause = some c) (part : some e ∈ c.parts) :
    ∃ m ∈ clause, m.Holds e := by
  cases clause with
  | none =>
    cases made
    simp [Clause.absent, Clause.parts] at part
  | some m => exact ⟨m, rfl, holds_of_clause? m made e part⟩

end Stmt

/-! ### Decimal literals -/

theorem Expr.HasLiteral.isDecimal {e : Expr} {text : String} (literal : e.HasLiteral text)
    (decimal : e.IsDecimal) : ∃ n, text = Decimal.text n := by
  induction literal with
  | number => exact decimal
  | part member _ ih => exact ih (decimal.of_mem_parts member)

theorem Stmt.allDecimal_iff {ss : List Stmt} : Stmt.AllDecimal ss ↔ ∀ s ∈ ss, s.IsDecimal := by
  induction ss with
  | nil => simp [Stmt.AllDecimal]
  | cons s ss ih => simp [Stmt.AllDecimal, ih]

theorem Stmt.isDecimal_child {s t : Stmt} (decimal : s.IsDecimal) (member : t ∈ s.children) :
    t.IsDecimal := by
  cases s with
  | expr | ret => cases member
  | block body => exact Stmt.allDecimal_iff.1 decimal t member
  | whileLoop condition body =>
    cases List.mem_singleton.1 member
    exact decimal.2
  | forLoop init condition step body =>
    obtain ⟨first, -, second, last⟩ := decimal
    have all : Stmt.AllDecimal (init.toList ++ (step.toList ++ [body])) :=
      Stmt.allDecimal_toList_append first (Stmt.allDecimal_toList_append second ⟨last, trivial⟩)
    exact Stmt.allDecimal_iff.1 all t (by simpa [Stmt.children] using member)

theorem Stmt.isDecimal_of_contains {s t : Stmt} (decimal : s.IsDecimal) (inside : s.Contains t) :
    t.IsDecimal := by
  induction inside with
  | self => exact decimal
  | child _ member ih => exact Stmt.isDecimal_child ih member

/-- Decimal literals, as in all compiled code, do not end a line. -/
theorem Stmt.newline_not_mem_of_isDecimal {s : Stmt} (decimal : s.IsDecimal) {text : String}
    (literal : s.HasLiteral text) : '\n' ∉ text.toList := by
  obtain ⟨e, ⟨t, inside, own⟩, literal⟩ := literal
  have ofStmt := Stmt.isDecimal_of_contains decimal inside
  have ofExpr : e.IsDecimal := by
    cases t with
    | block => cases own
    | expr | ret =>
      cases List.mem_singleton.1 own
      exact ofStmt
    | whileLoop =>
      cases List.mem_singleton.1 own
      exact ofStmt.1
    | forLoop =>
      cases List.mem_singleton.1 own
      exact ofStmt.2.1
  obtain ⟨n, rfl⟩ := literal.isDecimal ofExpr
  intro member
  rw [Decimal.toList_text] at member
  have digit := List.all_eq_true.1 (Decimal.all_isDigit_toDigits n) '\n' member
  exact absurd digit (by decide)

end ArithCircuit
