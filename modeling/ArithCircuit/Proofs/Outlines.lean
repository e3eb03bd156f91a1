import ArithCircuit.Proofs.ExpressionForms

set_option autoImplicit false
set_option relaxedAutoImplicit false

/-!
# What a listing tells of statements

A listing tells the outline of statements: the body of a loop is a list of statements, whether it is
a block or not, and a clause of a loop header is a sequence of expressions, some of them absent.
Nothing else is lost: the tokens of outlines determine them. Main statement:
`Outline.allTokens_inj`.
-/

namespace ArithCircuit

open Listing

/-! ### Outlines -/

/-- A clause of a loop header: one part or more, each an expression or absent. -/
structure Clause where
  first : Option Expr
  more : List (Option Expr)

namespace Clause

/-- The clause with one absent part. -/
def absent : Clause := ⟨none, []⟩

/-- The parts of a clause. -/
def parts (c : Clause) : List (Option Expr) := c.first :: c.more

/-- The parts of two clauses, one after the other. -/
def append (c d : Clause) : Clause := ⟨c.first, c.more ++ d.parts⟩

theorem parts_append (c d : Clause) : (c.append d).parts = c.parts ++ d.parts := rfl

end Clause

/-- A statement as far as its listing tells it. -/
inductive Outline where
  | expr (e : Expr)
  | block (body : List Outline)
  | forLoop (init : Clause) (condition : Expr) (step : Clause) (body : List Outline)
  | whileLoop (condition : Expr) (body : List Outline)
  | ret (e : Expr)

mutual

/-- The clause that a statement makes. Nested blocks count for the parts in them, and only
expressions are parts. -/
def Stmt.clause? : Stmt → Option Clause
  | .expr e => some ⟨some e, []⟩
  | .block body => Stmt.blockClause? body
  | _ => none

/-- The clause that the statements of a block make; without any it is an absent part. -/
def Stmt.blockClause? : List Stmt → Option Clause
  | [] => some .absent
  | [s] => s.clause?
  | s :: ss => do
    let first ← s.clause?
    let rest ← Stmt.blockClause? ss
    return first.append rest

end

/-- The clause that a statement makes, if there is one; a missing clause is an absent part. -/
def Stmt.optionClause? : Option Stmt → Option Clause
  | none => some .absent
  | some s => s.clause?

mutual

/-- The outline of a statement. A block in the braces of a loop counts for the statements in it.
There is no outline if a clause of a loop holds anything but expressions. -/
def Stmt.outlines? (inBraces : Bool) : Stmt → Option (List Outline)
  | .expr e => some [.expr e]
  | .block body => do
    let outlines ← Stmt.allOutlines? body
    return if inBraces then outlines else [.block outlines]
  | .forLoop init condition step body => do
    let initClause ← Stmt.optionClause? init
    let stepClause ← Stmt.optionClause? step
    let outlines ← body.outlines? true
    return [.forLoop initClause condition stepClause outlines]
  | .whileLoop condition body => do
    let outlines ← body.outlines? true
    return [.whileLoop condition outlines]
  | .ret e => some [.ret e]

/-- The outlines of statements. -/
def Stmt.allOutlines? : List Stmt → Option (List Outline)
  | [] => some []
  | s :: ss => do
    let first ← s.outlines? false
    let rest ← Stmt.allOutlines? ss
    return first ++ rest

end

/-! ### Tokens of outlines -/

/-- The tokens of a part of a clause. -/
def partTokens : Option Expr → List Token
  | none => []
  | some e => e.tokens

/-- The tokens of a clause. -/
def Clause.tokens (c : Clause) : List Token := commaTokens (c.parts.map partTokens)

mutual

/-- The tokens of a statement. -/
def Outline.tokens : Outline → List Token
  | .expr e => e.tokens ++ [.mark ';']
  | .block body => .mark '\x7b' :: (Outline.allTokens body ++ [.mark '\x7d'])
  | .forLoop init condition step body =>
    .word "for" :: .mark '(' :: (init.tokens ++ .mark ';' :: (condition.tokens ++
      .mark ';' :: (step.tokens ++ .mark ')' :: .mark '\x7b' ::
        (Outline.allTokens body ++ [.mark '\x7d']))))
  | .whileLoop condition body =>
    .word "while" :: .mark '(' :: (condition.tokens ++ .mark ')' :: .mark '\x7b' ::
      (Outline.allTokens body ++ [.mark '\x7d']))
  | .ret e => .word "return" :: (e.tokens ++ [.mark ';'])

/-- The tokens of statements. -/
def Outline.allTokens : List Outline → List Token
  | [] => []
  | o :: os => o.tokens ++ Outline.allTokens os

end

theorem Outline.allTokens_append (os os' : List Outline) :
    Outline.allTokens (os ++ os') = Outline.allTokens os ++ Outline.allTokens os' := by
  induction os with
  | nil => rfl
  | cons o os ih =>
    rw [List.cons_append, Outline.allTokens, ih, Outline.allTokens, List.append_assoc]

theorem Outline.allTokens_singleton (o : Outline) : Outline.allTokens [o] = o.tokens := by
  rw [Outline.allTokens, Outline.allTokens, List.append_nil]

/-! ### The tokens tell the outlines -/

theorem Expr.tokens_append_ne (e : Expr) {t : Token} (opens : t.opens = false)
    (rest more : List Token) : e.tokens ++ rest ≠ t :: more := by
  obtain ⟨first, _, same, opensFirst⟩ := e.exists_tokens_eq
  rw [same]
  rintro ⟨⟩
  rw [opens] at opensFirst
  cases opensFirst

theorem legible_partTokens (part : Option Expr) : Legible partTokens part := by
  intro part' rest rest' closes closes' same
  cases part with
  | none =>
    cases part' with
    | none => exact ⟨rfl, same⟩
    | some e => exact absurd (same ▸ closes) (e.not_closes rest')
  | some e =>
    cases part' with
    | none => exact absurd (same ▸ closes') (e.not_closes rest)
    | some e' =>
      obtain ⟨rfl, rfl⟩ := e.legible e' rest rest' closes closes' same
      exact ⟨rfl, rfl⟩

/-- The tokens of a clause in front of the mark behind it tell the clause. -/
theorem Clause.tokens_inj {c c' : Clause} {close : Char} (closes : close ∈ closers)
    (noComma : close ≠ ',') {rest rest' : List Token}
    (same : c.tokens ++ .mark close :: rest = c'.tokens ++ .mark close :: rest') :
    c = c' ∧ rest = rest' := by
  obtain ⟨parts, rfl⟩ :=
    commaTokens_cons_inj (fun part _ => legible_partTokens part) closes noComma same
  obtain ⟨first, more⟩ := c
  obtain ⟨first', more'⟩ := c'
  obtain ⟨rfl, rfl⟩ := List.cons.inj parts
  exact ⟨rfl, rfl⟩

/-- The end of a list of statements: the end of the listing or of the block around them. -/
def EndsBlock (rest : List Token) : Prop := rest = [] ∨ ∃ more, rest = .mark '\x7d' :: more

theorem Outline.not_endsBlock (o : Outline) (rest : List Token) :
    ¬ EndsBlock (o.tokens ++ rest) := by
  have different : ∃ t more, o.tokens = t :: more ∧ t ≠ .mark '\x7d' := by
    cases o with
    | expr e =>
      obtain ⟨t, more, same, opens⟩ := e.exists_tokens_eq
      refine ⟨t, more ++ [.mark ';'], by rw [Outline.tokens, same, List.cons_append], ?_⟩
      rintro rfl
      exact absurd opens (by decide)
    | block | forLoop | whileLoop | ret =>
      rw [Outline.tokens]
      exact ⟨_, _, rfl, by simp⟩
  obtain ⟨t, more, same, different⟩ := different
  rw [same]
  rintro (⟨⟨⟩⟩ | ⟨_, ends⟩)
  exact different (List.cons.inj ends).1

/-- No other statement begins like an expression: it begins with a keyword or a brace. -/
theorem Outline.tokens_expr_ne (e : Expr) {o : Outline} (other : ∀ e', o ≠ .expr e')
    (rest rest' : List Token) : (Outline.expr e).tokens ++ rest ≠ o.tokens ++ rest' := by
  rw [Outline.tokens, List.append_assoc]
  cases o with
  | expr e' => exact absurd rfl (other e')
  | block | forLoop | whileLoop | ret =>
    rw [Outline.tokens, List.cons_append]
    exact e.tokens_append_ne (by decide) _ _

theorem closes_semicolon (more : List Token) : Closes (.mark ';' :: more) :=
  closes_mark (by decide) more

theorem closes_parenthesis (more : List Token) : Closes (.mark ')' :: more) :=
  closes_mark (by decide) more

mutual

/-- The tokens of a statement tell it, and where it ends. -/
theorem Outline.tokens_inj {rest rest' : List Token} : (o o' : Outline) →
    o.tokens ++ rest = o'.tokens ++ rest' → o = o' ∧ rest = rest'
  | .expr e, o', same => by
    cases o' with
    | expr e' =>
      simp only [Outline.tokens, List.append_assoc, List.cons_append, List.nil_append] at same
      obtain ⟨rfl, tail⟩ := e.legible e' _ _ (closes_semicolon _) (closes_semicolon _) same
      exact ⟨rfl, (List.cons.inj tail).2⟩
    | block | forLoop | whileLoop | ret =>
      exact absurd same (Outline.tokens_expr_ne e (by nofun) _ _)
  | .ret e, o', same => by
    cases o' with
    | ret e' =>
      simp only [Outline.tokens, List.append_assoc, List.cons_append, List.nil_append,
        List.cons.injEq, true_and] at same
      obtain ⟨rfl, tail⟩ := e.legible e' _ _ (closes_semicolon _) (closes_semicolon _) same
      exact ⟨rfl, (List.cons.inj tail).2⟩
    | expr e' => exact absurd same.symm (Outline.tokens_expr_ne e' (by nofun) _ _)
    | block | forLoop | whileLoop => simp [Outline.tokens] at same
  | .block body, o', same => by
    cases o' with
    | block body' =>
      simp only [Outline.tokens, List.append_assoc, List.cons_append, List.nil_append,
        List.cons.injEq, true_and] at same
      obtain ⟨rfl, tail⟩ := Outline.allTokens_inj body body' (.inr ⟨_, rfl⟩) (.inr ⟨_, rfl⟩) same
      exact ⟨rfl, (List.cons.inj tail).2⟩
    | expr e' => exact absurd same.symm (Outline.tokens_expr_ne e' (by nofun) _ _)
    | ret | forLoop | whileLoop => simp [Outline.tokens] at same
  | .whileLoop condition body, o', same => by
    cases o' with
    | whileLoop condition' body' =>
      simp only [Outline.tokens, List.append_assoc, List.cons_append, List.nil_append,
        List.cons.injEq, true_and] at same
      obtain ⟨rfl, tail⟩ :=
        condition.legible condition' _ _ (closes_parenthesis _) (closes_parenthesis _) same
      simp only [List.cons.injEq, true_and] at tail
      obtain ⟨rfl, tail'⟩ := Outline.allTokens_inj body body' (.inr ⟨_, rfl⟩) (.inr ⟨_, rfl⟩) tail
      exact ⟨rfl, (List.cons.inj tail').2⟩
    | expr e' => exact absurd same.symm (Outline.tokens_expr_ne e' (by nofun) _ _)
    | ret | forLoop | block => simp [Outline.tokens] at same
  | .forLoop init condition step body, o', same => by
    cases o' with
    | forLoop init' condition' step' body' =>
      simp only [Outline.tokens, List.append_assoc, List.cons_append, List.nil_append,
        List.cons.injEq, true_and] at same
      obtain ⟨rfl, tested⟩ := Clause.tokens_inj (by decide) (by decide) same
      obtain ⟨rfl, tail⟩ :=
        condition.legible condition' _ _ (closes_semicolon _) (closes_semicolon _) tested
      have stepped := (List.cons.inj tail).2
      obtain ⟨rfl, opened⟩ := Clause.tokens_inj (by decide) (by decide) stepped
      have inside := (List.cons.inj opened).2
      obtain ⟨rfl, tail'⟩ := Outline.allTokens_inj body body' (.inr ⟨_, rfl⟩) (.inr ⟨_, rfl⟩) inside
      exact ⟨rfl, (List.cons.inj tail').2⟩
    | expr e' => exact absurd same.symm (Outline.tokens_expr_ne e' (by nofun) _ _)
    | ret | whileLoop | block => simp [Outline.tokens] at same

theorem Outline.allTokens_inj {rest rest' : List Token} : (os os' : List Outline) →
    EndsBlock rest → EndsBlock rest' →
      Outline.allTokens os ++ rest = Outline.allTokens os' ++ rest' → os = os' ∧ rest = rest'
  | [], [], _, _, same => ⟨rfl, same⟩
  | [], o' :: os', ends, _, same => by
    rw [Outline.allTokens, Outline.allTokens, List.nil_append, List.append_assoc] at same
    exact absurd (same ▸ ends) (o'.not_endsBlock _)
  | o :: os, [], _, ends', same => by
    rw [Outline.allTokens, Outline.allTokens, List.nil_append, List.append_assoc] at same
    exact absurd (same ▸ ends') (o.not_endsBlock _)
  | o :: os, o' :: os', ends, ends', same => by
    rw [Outline.allTokens, Outline.allTokens, List.append_assoc, List.append_assoc] at same
    obtain ⟨rfl, tail⟩ := Outline.tokens_inj o o' same
    obtain ⟨rfl, rfl⟩ := Outline.allTokens_inj os os' ends ends' tail
    exact ⟨rfl, rfl⟩

end

end ArithCircuit
