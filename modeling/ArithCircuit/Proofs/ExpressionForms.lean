import ArithCircuit.Proofs.ListingTokens
import ArithCircuit.Proofs.Literals

set_option autoImplicit false
set_option relaxedAutoImplicit false

/-!
# How expressions are told apart in listings

Written on one line, an expression is a number, a word, a list in brackets, a choice in parentheses
or a call. `Expr.form` is this outermost form with the expressions inside it, and nothing of an
expression is lost in it. The tokens of an expression determine its form and where it ends, so
expressions with decimal literals that are written alike are equal: `Expr.eq_of_render_eq`.
-/

namespace ArithCircuit

open Listing
open Text (quoted)

/-! ### Forms -/

/-- An argument of a call in a listing. -/
inductive Argument where
  | name (s : String)
  | value (e : Expr)

/-- The outermost form of an expression in a listing. -/
inductive Form where
  | number (text : String)
  | word (letters : String)
  | list (items : List Expr)
  | choice (condition whenTrue whenFalse : Expr)
  | call (callee : String) (arguments : List Argument)

/-- The arguments that say which cell is meant. -/
def Cell.arguments : Cell → List Argument
  | .var name indices | .signal name indices => [.name name, .value (.array indices)]
  | .pin component componentIndices name indices =>
    [.name component, .value (.array componentIndices), .name name, .value (.array indices)]

/-- The form of an expression. -/
def Expr.form : Expr → Form
  | .number text => .number text
  | .prime => .word "P"
  | .mask => .word "MASK"
  | .binary op lhs rhs => .call op.name [.value lhs, .value rhs]
  | .modPow base exponent modulus => .call "modpow" [.value base, .value exponent, .value modulus]
  | .select condition whenTrue whenFalse => .choice condition whenTrue whenFalse
  | .get cell => .call cell.getterName cell.arguments
  | .set cell value => .call cell.setterName (cell.arguments ++ [.value value])
  | .assertEqual lhs rhs => .call "assertEqual" [.value lhs, .value rhs]
  | .call name args => .call "callFunction" [.name name, .value (.array args)]
  | .array items => .list items

/-- The expression that is a call of the form, if there is one. -/
def Expr.ofCall? (callee : String) : List Argument → Option Expr
  | [.value a, .value b] =>
    if callee = "assertEqual" then some (.assertEqual a b)
    else (BigIntOp.all.find? (·.name = callee)).map (Expr.binary · a b)
  | [.value base, .value exponent, .value modulus] => some (.modPow base exponent modulus)
  | [.name name, .value (.array es)] =>
    if callee = "getVariable" then some (.get (.var name es))
    else if callee = "getSignal" then some (.get (.signal name es))
    else some (.call name es)
  | [.name name, .value (.array es), .value value] =>
    if callee = "setVariable" then some (.set (.var name es) value)
    else some (.set (.signal name es) value)
  | [.name component, .value (.array is), .name pin, .value (.array es)] =>
    some (.get (.pin component is pin es))
  | [.name component, .value (.array is), .name pin, .value (.array es), .value value] =>
    some (.set (.pin component is pin es) value)
  | _ => none

/-- The expression of a form, if there is one. -/
def Form.expr? : Form → Option Expr
  | .number text => some (.number text)
  | .word letters => if letters = "P" then some .prime else some .mask
  | .list items => some (.array items)
  | .choice condition whenTrue whenFalse => some (.select condition whenTrue whenFalse)
  | .call callee arguments => Expr.ofCall? callee arguments

theorem Expr.expr?_form (e : Expr) : e.form.expr? = some e := by
  cases e
  case binary op lhs rhs => cases op <;> rfl
  case get cell | set cell value => cases cell <;> rfl
  all_goals rfl

/-- Expressions of the same form are equal. -/
theorem Expr.form_inj {e e' : Expr} (same : e.form = e'.form) : e = e' := by
  have read : e.form.expr? = e'.form.expr? := congrArg Form.expr? same
  rw [Expr.expr?_form, Expr.expr?_form] at read
  exact Option.some.inj read

/-- The expression that an argument is, if it is one. -/
def Argument.expr? : Argument → Option Expr
  | .name _ => none
  | .value e => some e

/-- The expressions inside a form. -/
def Form.parts : Form → List Expr
  | .number _ | .word _ => []
  | .list items => items
  | .choice condition whenTrue whenFalse => [condition, whenTrue, whenFalse]
  | .call _ arguments => arguments.filterMap Argument.expr?

theorem Expr.sizeOf_lt_of_mem_parts {e part : Expr} (member : part ∈ e.form.parts) :
    sizeOf part < sizeOf e := by
  cases e
  case get cell | set cell value =>
    cases cell <;>
      simp [Expr.form, Form.parts, Cell.arguments, Argument.expr?] at member <;> grind
  case call name args =>
    -- The list of arguments counts as an expression of its own, which is why the name has to count.
    have positive : 0 < sizeOf name := by
      cases name
      rw [String.ofByteArray.sizeOf_spec]
      omega
    simp [Expr.form, Form.parts, Argument.expr?] at member
    subst member
    simp only [Expr.array.sizeOf_spec, Expr.call.sizeOf_spec]
    omega
  case array items =>
    have less : sizeOf part < sizeOf items := List.sizeOf_lt_of_mem member
    simp only [Expr.array.sizeOf_spec]
    omega
  all_goals simp [Expr.form, Form.parts, Argument.expr?] at member <;> grind

/-- What holds of an expression if it holds of the expressions inside its form holds of all. -/
theorem Expr.induction_on_parts {motive : Expr → Prop}
    (step : ∀ e : Expr, (∀ part ∈ e.form.parts, motive part) → motive e) (e : Expr) :
    motive e := by
  induction size : sizeOf e using Nat.strongRecOn generalizing e with
  | ind n ih =>
    subst size
    exact step e fun part member => ih _ (Expr.sizeOf_lt_of_mem_parts member) part rfl

/-! ### Tokens of expressions -/

/-- Tokens with commas between them. -/
def commaTokens (l : List (List Token)) : List Token := [Token.mark ','].intercalate l

mutual

/-- The tokens of an expression. -/
def Expr.tokens : Expr → List Token
  | .number text => [.number text]
  | .prime => [.word "P"]
  | .mask => [.word "MASK"]
  | .binary op lhs rhs =>
    .word op.name :: .mark '(' :: (commaTokens [lhs.tokens, rhs.tokens] ++ [.mark ')'])
  | .modPow base exponent modulus =>
    .word "modpow" :: .mark '(' ::
      (commaTokens [base.tokens, exponent.tokens, modulus.tokens] ++ [.mark ')'])
  | .select condition whenTrue whenFalse =>
    .mark '(' :: (condition.tokens ++ .mark '?' :: (whenTrue.tokens ++ .mark ':' ::
      (whenFalse.tokens ++ [.mark ')'])))
  | .get cell => .word cell.getterName :: .mark '(' :: (commaTokens cell.tokens ++ [.mark ')'])
  | .set cell value =>
    .word cell.setterName :: .mark '(' ::
      (commaTokens (cell.tokens ++ [value.tokens]) ++ [.mark ')'])
  | .assertEqual lhs rhs =>
    .word "assertEqual" :: .mark '(' :: (commaTokens [lhs.tokens, rhs.tokens] ++ [.mark ')'])
  | .call name args =>
    .word "callFunction" :: .mark '(' ::
      (commaTokens [[.name name],
        .mark '[' :: (commaTokens (Expr.allTokens args) ++ [.mark ']'])] ++ [.mark ')'])
  | .array items => .mark '[' :: (commaTokens (Expr.allTokens items) ++ [.mark ']'])

/-- The tokens of the arguments that say which cell is meant. -/
def Cell.tokens : Cell → List (List Token)
  | .var name indices | .signal name indices =>
    [[.name name], .mark '[' :: (commaTokens (Expr.allTokens indices) ++ [.mark ']'])]
  | .pin component componentIndices name indices =>
    [[.name component], .mark '[' :: (commaTokens (Expr.allTokens componentIndices) ++ [.mark ']']),
      [.name name], .mark '[' :: (commaTokens (Expr.allTokens indices) ++ [.mark ']'])]

/-- The tokens of each of some expressions. -/
def Expr.allTokens : List Expr → List (List Token)
  | [] => []
  | e :: es => e.tokens :: Expr.allTokens es

end

theorem Expr.allTokens_eq (es : List Expr) : Expr.allTokens es = es.map Expr.tokens := by
  induction es with
  | nil => rfl
  | cons e es ih => rw [Expr.allTokens, ih, List.map_cons]

/-- The tokens of an argument. -/
def Argument.tokens : Argument → List Token
  | .name s => [.name s]
  | .value e => e.tokens

/-- The tokens of a form. -/
def Form.tokens : Form → List Token
  | .number text => [.number text]
  | .word letters => [.word letters]
  | .list items => .mark '[' :: (commaTokens (items.map Expr.tokens) ++ [.mark ']'])
  | .choice condition whenTrue whenFalse =>
    .mark '(' :: (condition.tokens ++ .mark '?' :: (whenTrue.tokens ++ .mark ':' ::
      (whenFalse.tokens ++ [.mark ')'])))
  | .call callee arguments =>
    .word callee :: .mark '(' :: (commaTokens (arguments.map Argument.tokens) ++ [.mark ')'])

theorem Cell.tokens_eq (cell : Cell) : cell.tokens = cell.arguments.map Argument.tokens := by
  cases cell <;> rfl

theorem Expr.tokens_eq (e : Expr) : e.tokens = e.form.tokens := by
  cases e
  case array items =>
    rw [Expr.tokens, Expr.allTokens_eq]
    rfl
  case get cell =>
    rw [Expr.tokens, Cell.tokens_eq]
    rfl
  case set cell value =>
    rw [Expr.tokens, Cell.tokens_eq, Expr.form, Form.tokens, List.map_append]
    rfl
  all_goals rfl

/-! ### Where expressions end -/

/-- The marks that may follow an expression. -/
def closers : List Char := [',', ')', ']', ';', ':', '?']

/-- Tokens that begin with a mark that may follow an expression. -/
def Closes (rest : List Token) : Prop := ∃ c ∈ closers, ∃ more, rest = .mark c :: more

theorem closes_mark {c : Char} (member : c ∈ closers) (more : List Token) :
    Closes (.mark c :: more) :=
  ⟨c, member, more, rfl⟩

/-- The words that begin statements. -/
def keywords : List String := ["for", "while", "return"]

/-- Whether a token may begin an expression. -/
def Listing.Token.opens : Token → Bool
  | .word letters => letters ∉ keywords
  | .number _ => true
  | .name _ => false
  | .mark c => c = '(' || c = '['

theorem Expr.exists_tokens_eq (e : Expr) : ∃ t more, e.tokens = t :: more ∧ t.opens = true := by
  cases e
  case binary op lhs rhs => cases op <;> exact ⟨_, _, rfl, rfl⟩
  case get cell | set cell value => cases cell <;> exact ⟨_, _, rfl, rfl⟩
  all_goals exact ⟨_, _, rfl, rfl⟩

/-- The end of an expression begins none. -/
theorem Expr.not_closes (e : Expr) (rest : List Token) : ¬ Closes (e.tokens ++ rest) := by
  obtain ⟨t, more, same, opens⟩ := e.exists_tokens_eq
  have noCloser : closers.all (fun c => !(Token.mark c).opens) = true := by decide
  rintro ⟨c, member, _, closes⟩
  rw [same, List.cons_append] at closes
  obtain ⟨rfl, -⟩ := List.cons.inj closes
  have shut := List.all_eq_true.1 noCloser c member
  rw [opens] at shut
  cases shut

/-- In front of a rest that closes it, the tokens of a thing determine the thing and the rest. -/
def Legible {α : Type} (tokens : α → List Token) (a : α) : Prop :=
  ∀ a' rest rest', Closes rest → Closes rest' → tokens a ++ rest = tokens a' ++ rest' →
    a = a' ∧ rest = rest'

section

variable {α : Type} {tokens : α → List Token} {close : Char} {rest rest' : List Token}

theorem closes_afterCommas (l : List α) (closes : close ∈ closers) (rest : List Token) :
    Closes ((l.flatMap fun a => [.mark ','] ++ tokens a) ++ .mark close :: rest) := by
  cases l with
  | nil => exact closes_mark closes rest
  | cons a l => exact closes_mark (by decide) _

theorem afterCommas_inj {l l' : List α} (legible : ∀ a ∈ l, Legible tokens a)
    (closes : close ∈ closers) (noComma : close ≠ ',')
    (same : (l.flatMap fun a => [.mark ','] ++ tokens a) ++ .mark close :: rest =
      (l'.flatMap fun a => [.mark ','] ++ tokens a) ++ .mark close :: rest') :
    l = l' ∧ rest = rest' := by
  induction l generalizing l' with
  | nil =>
    cases l' with
    | nil => exact ⟨rfl, (List.cons.inj same).2⟩
    | cons a' l' =>
      have marks := Token.mark.inj (List.cons.inj same).1
      exact absurd marks noComma
  | cons a l ih =>
    cases l' with
    | nil =>
      have marks := Token.mark.inj (List.cons.inj same).1
      exact absurd marks.symm noComma
    | cons a' l' =>
      simp only [List.flatMap_cons, List.append_assoc, List.cons_append, List.nil_append,
        List.cons.injEq, true_and] at same
      obtain ⟨rfl, more⟩ := legible a (by simp) a' _ _ (closes_afterCommas l closes rest)
        (closes_afterCommas l' closes rest') same
      obtain ⟨rfl, rfl⟩ := ih (fun b member => legible b (by simp [member])) more
      exact ⟨rfl, rfl⟩

/-- Of tokens between commas the things are known, if there are any. -/
theorem commaTokens_cons_inj {a a' : α} {l l' : List α} (legible : ∀ b ∈ a :: l, Legible tokens b)
    (closes : close ∈ closers) (noComma : close ≠ ',')
    (same : commaTokens ((a :: l).map tokens) ++ .mark close :: rest =
      commaTokens ((a' :: l').map tokens) ++ .mark close :: rest') :
    a :: l = a' :: l' ∧ rest = rest' := by
  simp only [commaTokens, List.map_cons, intercalate_cons, List.flatMap_map,
    List.append_assoc] at same
  obtain ⟨rfl, more⟩ := legible a (by simp) a' _ _ (closes_afterCommas l closes rest)
    (closes_afterCommas l' closes rest') same
  obtain ⟨rfl, rfl⟩ :=
    afterCommas_inj (fun b member => legible b (by simp [member])) closes noComma more
  exact ⟨rfl, rfl⟩

/-- Of tokens between commas the things are known, if none of them begins like the end. -/
theorem commaTokens_inj {l l' : List α} (legible : ∀ a ∈ l, Legible tokens a)
    (opens : ∀ a rest, ¬ Closes (tokens a ++ rest))
    (closes : close ∈ closers) (noComma : close ≠ ',')
    (same : commaTokens (l.map tokens) ++ .mark close :: rest =
      commaTokens (l'.map tokens) ++ .mark close :: rest') :
    l = l' ∧ rest = rest' := by
  have opened : ∀ (a : α) (l : List α) (rest rest' : List Token),
      commaTokens ((a :: l).map tokens) ++ rest ≠ .mark close :: rest' := by
    intro a l rest rest' same
    rw [List.map_cons, commaTokens, intercalate_cons, List.append_assoc] at same
    exact opens a _ (same ▸ closes_mark closes rest')
  cases l with
  | nil =>
    cases l' with
    | nil => exact ⟨rfl, (List.cons.inj same).2⟩
    | cons a' l' => exact absurd same.symm (opened a' l' _ _)
  | cons a l =>
    cases l' with
    | nil => exact absurd same (opened a l _ _)
    | cons a' l' => exact commaTokens_cons_inj legible closes noComma same

end

theorem Argument.not_closes (a : Argument) (rest : List Token) : ¬ Closes (a.tokens ++ rest) := by
  cases a with
  | name s =>
    rintro ⟨c, -, more, same⟩
    cases same
  | value e => exact e.not_closes rest

theorem Argument.legible {a : Argument} (part : ∀ e ∈ a.expr?, Legible Expr.tokens e) :
    Legible Argument.tokens a := by
  have different : ∀ (s : String) (e : Expr) (rest rest' : List Token),
      .name s :: rest ≠ e.tokens ++ rest' := by
    intro s e rest rest' same
    obtain ⟨t, more, begins, opens⟩ := e.exists_tokens_eq
    rw [begins] at same
    obtain ⟨rfl, -⟩ := List.cons.inj same
    cases opens
  intro a' rest rest' closes closes' same
  cases a with
  | name s =>
    cases a' with
    | name s' =>
      obtain ⟨names, rfl⟩ := List.cons.inj same
      exact ⟨congrArg Argument.name (Token.name.inj names), rfl⟩
    | value e' => exact absurd same (different s e' _ _)
  | value e =>
    cases a' with
    | name s' => exact absurd same.symm (different s' e _ _)
    | value e' =>
      obtain ⟨rfl, rfl⟩ := part e rfl e' rest rest' closes closes' same
      exact ⟨rfl, rfl⟩

/-- The tokens of a form determine it, if those of the expressions inside it determine them. -/
theorem Form.tokens_inj {f f' : Form} (parts : ∀ e ∈ f.parts, Legible Expr.tokens e)
    {rest rest' : List Token} (closes : Closes rest) (closes' : Closes rest')
    (same : f.tokens ++ rest = f'.tokens ++ rest') : f = f' ∧ rest = rest' := by
  have noCall : ∀ more, ¬ Closes (.mark '(' :: more) := by
    rintro more ⟨c, member, _, same⟩
    cases same
    revert member
    decide
  cases f <;> cases f'
  case number.number | word.word => simpa [Form.tokens] using same
  case list.list items items' =>
    simp only [Form.tokens, List.cons_append, List.append_assoc, List.cons.injEq, true_and,
      List.nil_append] at same
    obtain ⟨rfl, rfl⟩ :=
      commaTokens_inj parts Expr.not_closes (by decide) (by decide) same
    exact ⟨rfl, rfl⟩
  case choice.choice c a b c' a' b' =>
    simp only [Form.tokens, List.cons_append, List.append_assoc, List.cons.injEq, true_and,
      List.nil_append] at same
    have question : ∀ more, Closes (.mark '?' :: more) := closes_mark (by decide)
    have colon : ∀ more, Closes (.mark ':' :: more) := closes_mark (by decide)
    have parenthesis : ∀ more, Closes (.mark ')' :: more) := closes_mark (by decide)
    obtain ⟨rfl, tail₁⟩ := parts c (by simp [Form.parts]) c' _ _ (question _) (question _) same
    have afterQuestion := (List.cons.inj tail₁).2
    obtain ⟨rfl, tail₂⟩ := parts a (by simp [Form.parts]) a' _ _ (colon _) (colon _) afterQuestion
    have afterColon := (List.cons.inj tail₂).2
    obtain ⟨rfl, tail₃⟩ :=
      parts b (by simp [Form.parts]) b' _ _ (parenthesis _) (parenthesis _) afterColon
    exact ⟨rfl, (List.cons.inj tail₃).2⟩
  case call.call callee arguments callee' arguments' =>
    simp only [Form.tokens, List.cons_append, List.append_assoc, List.cons.injEq, true_and,
      List.nil_append, Token.word.injEq] at same
    obtain ⟨rfl, more⟩ := same
    have legible : ∀ a ∈ arguments, Legible Argument.tokens a := fun a member =>
      Argument.legible fun e found => parts e (List.mem_filterMap.2 ⟨a, member, found⟩)
    obtain ⟨rfl, rfl⟩ := commaTokens_inj legible Argument.not_closes (by decide) (by decide) more
    exact ⟨rfl, rfl⟩
  case word.call =>
    obtain ⟨-, rfl⟩ := List.cons.inj same
    exact absurd closes (noCall _)
  case call.word =>
    obtain ⟨-, rfl⟩ := List.cons.inj same
    exact absurd closes' (noCall _)
  all_goals cases same

/-- The tokens of an expression determine it. -/
theorem Expr.legible (e : Expr) : Legible Expr.tokens e := by
  induction e using Expr.induction_on_parts with
  | step e ih =>
    intro e' rest rest' closes closes' same
    rw [Expr.tokens_eq, Expr.tokens_eq] at same
    obtain ⟨forms, rfl⟩ := Form.tokens_inj ih closes closes' same
    exact ⟨Expr.form_inj forms, rfl⟩

/-! ### Texts of expressions -/

/-- Texts with a comma and a blank between them. -/
def commaChars (l : List (List Char)) : List Char := [',', ' '].intercalate l

/-- The text of an argument. -/
def Argument.chars : Argument → List Char
  | .name s => (quoted s).toList
  | .value e => e.render.toList

/-- The text of a form. -/
def Form.chars : Form → List Char
  | .number text => text.toList
  | .word letters => letters.toList
  | .list items => '[' :: (commaChars (items.map fun e => e.render.toList) ++ [']'])
  | .choice condition whenTrue whenFalse =>
    '(' :: (condition.render.toList ++ ' ' :: '?' :: ' ' :: (whenTrue.render.toList ++
      ' ' :: ':' :: ' ' :: (whenFalse.render.toList ++ [')'])))
  | .call callee arguments =>
    callee.toList ++ '(' :: (commaChars (arguments.map Argument.chars) ++ [')'])

theorem toList_commaList (l : List String) :
    (commaList l).toList = commaChars (l.map String.toList) := by
  rw [commaList, String.toList_intercalate]
  rfl

theorem Expr.renderAll_eq (es : List Expr) : Expr.renderAll es = es.map Expr.render := by
  induction es with
  | nil => rfl
  | cons e es ih => rw [Expr.renderAll, ih, List.map_cons]

/-- Indices and arguments are written as an array of them is. -/
theorem Expr.render_array (items : List Expr) :
    (Expr.array items).render = "[" ++ commaList (Expr.renderAll items) ++ "]" := rfl

theorem Cell.toList_render (cell : Cell) :
    cell.render.toList = commaChars (cell.arguments.map Argument.chars) := by
  cases cell <;> unfold Cell.render <;>
    simp [Cell.arguments, Argument.chars, commaChars, intercalate_cons, Expr.render_array]

theorem commaChars_concat {l : List (List Char)} (ne_nil : l ≠ []) (last : List Char) :
    commaChars (l ++ [last]) = commaChars l ++ ',' :: ' ' :: last := by
  obtain ⟨first, more, rfl⟩ := List.exists_cons_of_ne_nil ne_nil
  rw [commaChars, commaChars, List.cons_append, intercalate_cons, intercalate_cons,
    List.flatMap_append, List.append_assoc, List.flatMap_singleton]
  rfl

/-- An expression is written as its form is. -/
theorem Expr.toList_render (e : Expr) : e.render.toList = e.form.chars := by
  cases e
  case set cell value =>
    have ne_nil : cell.arguments.map Argument.chars ≠ [] := by cases cell <;> nofun
    rw [Expr.form, Form.chars, List.map_append, List.map_singleton, commaChars_concat ne_nil,
      ← Cell.toList_render]
    unfold Expr.render
    simp [Argument.chars]
  case array items =>
    simp [Expr.render_array, Expr.form, Form.chars, toList_commaList, Expr.renderAll_eq,
      Function.comp_def]
  all_goals
    unfold Expr.render
    simp [Cell.toList_render, Expr.form, Form.chars, commaChars, intercalate_cons, Argument.chars,
      Expr.render_array]

/-- The words of a form are made of letters. -/
def Form.HasWords : Form → Prop
  | .word letters | .call letters _ => isWord letters = true
  | .number _ | .list _ | .choice _ _ _ => True

theorem Expr.hasWords (e : Expr) : e.form.HasWords := by
  cases e
  case number | select | array => trivial
  case binary op lhs rhs => cases op <;> exact rfl
  case get cell | set cell value =>
    cases cell <;>
      simp only [Expr.form, Form.HasWords, Cell.getterName, Cell.setterName] <;> decide
  all_goals exact rfl

/-- The words of a form are letters, and its literal is decimal. -/
def Form.IsPlain : Form → Prop
  | .number text => ∃ n, text = Decimal.text n
  | .word letters | .call letters _ => isWord letters = true
  | .list _ | .choice _ _ _ => True

theorem Expr.IsDecimal.isPlain {e : Expr} (decimal : e.IsDecimal) : e.form.IsPlain := by
  have words := e.hasWords
  cases e with
  | number text => exact decimal
  | _ => exact words

/-- The expressions inside the form of an expression have decimal literals if it has. -/
theorem Expr.IsDecimal.of_mem_parts {e part : Expr} (decimal : e.IsDecimal)
    (member : part ∈ e.form.parts) : part.IsDecimal := by
  cases e
  case get cell | set cell value =>
    cases cell <;>
      simp [Expr.form, Form.parts, Cell.arguments, Argument.expr?] at member <;>
      simp only [Expr.IsDecimal, Cell.IsDecimal] at decimal <;>
      grind [Expr.IsDecimal]
  case array items => exact Expr.allDecimal_iff.1 decimal part member
  all_goals
    simp [Expr.form, Form.parts, Argument.expr?] at member <;>
    simp only [Expr.IsDecimal] at decimal <;>
    grind [Expr.IsDecimal]

theorem Form.spells {f : Form} (plain : f.IsPlain)
    (parts : ∀ e ∈ f.parts, Spells e.render.toList e.tokens) : Spells f.chars f.tokens := by
  cases f with
  | number text =>
    obtain ⟨n, rfl⟩ := plain
    exact .decimal n
  | word letters => exact .word plain
  | list items =>
    have inside := (Spells.commas parts).append (.mark (c := ']') (by decide) .nil)
      (apart_cons (by decide) _)
    exact .mark (by decide) inside
  | choice condition whenTrue whenFalse =>
    have last := (parts whenFalse (by simp [Form.parts])).append
      (.mark (c := ')') (by decide) .nil) (apart_cons (by decide) _)
    have later := (parts whenTrue (by simp [Form.parts])).append
      (.spaced (c := ':') (by decide) last) (apart_cons (by decide) _)
    have all := (parts condition (by simp [Form.parts])).append
      (.spaced (c := '?') (by decide) later) (apart_cons (by decide) _)
    exact .mark (by decide) all
  | call callee arguments =>
    have each : ∀ a ∈ arguments, Spells a.chars a.tokens := by
      intro a member
      cases a with
      | name s => exact .name s
      | value e => exact parts e (List.mem_filterMap.2 ⟨_, member, rfl⟩)
    have inside := (Spells.commas each).append (.mark (c := ')') (by decide) .nil)
      (apart_cons (by decide) _)
    exact (Spells.word plain).append (.mark (c := '(') (by decide) inside)
      (apart_cons (by decide) _)

/-- An expression with decimal literals is written in its tokens. -/
theorem Expr.spells (e : Expr) : e.IsDecimal → Spells e.render.toList e.tokens := by
  induction e using Expr.induction_on_parts with
  | step e ih =>
    intro decimal
    rw [Expr.toList_render, Expr.tokens_eq]
    have parts : ∀ part ∈ e.form.parts, Spells part.render.toList part.tokens :=
      fun part member => ih part member (decimal.of_mem_parts member)
    exact Form.spells decimal.isPlain parts

/-- Expressions with decimal literals that are written alike are equal. -/
theorem Expr.eq_of_render_eq {e e' : Expr} (decimal : e.IsDecimal) (decimal' : e'.IsDecimal)
    (same : e.render = e'.render) : e = e' := by
  have lexed := (e.spells decimal).lexes
  rw [same] at lexed
  have tokens : e.tokens = e'.tokens := lexed.unique (e'.spells decimal').lexes
  have ends : Closes [.mark ';'] := closes_mark (by decide) []
  exact (e.legible e' _ _ ends ends (congrArg (· ++ [.mark ';']) tokens)).1

end ArithCircuit
