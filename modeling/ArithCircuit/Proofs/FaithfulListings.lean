import ArithCircuit.Listing.Circuit
import ArithCircuit.Proofs.Outlines

set_option autoImplicit false
set_option relaxedAutoImplicit false

/-!
# Listings are faithful

What is written for statements is made of the tokens of their outlines, at any level of indentation.
Bodies of compiled circuits that are listed alike therefore have the same outlines, and expressions
that are written alike are the same. Main statement: `Node.outlines_of_listings`.
-/

namespace ArithCircuit

open Listing
open Lowering (runFrom)
open Writing (runOn)

/-! ### The text of a clause -/

/-- The text of a part of a clause. -/
def partText : Option Expr → String
  | none => ""
  | some e => e.render

/-- The text of a clause. -/
def Clause.text (c : Clause) : String := commaList (c.parts.map partText)

/-- Every expression of a clause has decimal literals. -/
def Clause.IsDecimal (c : Clause) : Prop := ∀ e, some e ∈ c.parts → e.IsDecimal

theorem Clause.spells {c : Clause} (decimal : c.IsDecimal) : Spells c.text.toList c.tokens := by
  have each : ∀ part ∈ c.parts, Spells (partText part).toList (partTokens part) := by
    intro part member
    cases part with
    | none => exact .nil
    | some e => exact e.spells (decimal e member)
  have all := Spells.commas each
  rw [Clause.text, toList_commaList, List.map_map]
  exact all

theorem commaList_cons (first : String) {more : List String} (ne_nil : more ≠ []) :
    commaList (first :: more) = first ++ ", " ++ commaList more := by
  obtain ⟨second, rest, rfl⟩ := List.exists_cons_of_ne_nil ne_nil
  apply String.toList_inj.1
  simp [toList_commaList, commaChars, List.intercalate_cons_cons]

theorem Clause.text_append (c d : Clause) : (c.append d).text = c.text ++ ", " ++ d.text := by
  have both : ∀ (first : String) (l m : List String), m ≠ [] →
      commaList (first :: (l ++ m)) = commaList (first :: l) ++ ", " ++ commaList m := by
    intro first l m ne_nil
    induction l generalizing first with
    | nil => exact commaList_cons first ne_nil
    | cons second l ih =>
      rw [List.cons_append, commaList_cons first (by simp), ih, commaList_cons first (by simp)]
      simp only [String.append_assoc]
  rw [Clause.text, Clause.parts_append, List.map_append]
  exact both _ _ _ (by simp [Clause.parts])

private theorem bind_eq_ok {ε α β : Type} {x : Except ε α} {f : α → Except ε β} {b : β} :
    x >>= f = .ok b ↔ ∃ a, x = .ok a ∧ f a = .ok b := by
  cases x <;> simp [bind, Except.bind]

mutual

/-- What is written of a clause is the text of the clause that a statement makes. -/
theorem Stmt.clause?_of_clause {text : String} : (s : Stmt) → s.clause = .ok text →
    ∃ c, s.clause? = some c ∧ text = c.text
  | .expr e, written => by
    cases written
    exact ⟨⟨some e, []⟩, rfl, rfl⟩
  | .block body, written => by
    rw [Stmt.clause, bind_eq_ok] at written
    obtain ⟨texts, written, ⟨⟩⟩ := written
    exact Stmt.blockClause?_of_clauses body written
  | .forLoop .., written | .whileLoop .., written | .ret .., written => by cases written

theorem Stmt.blockClause?_of_clauses {texts : List String} : (ss : List Stmt) →
    Stmt.clauses ss = .ok texts → ∃ c, Stmt.blockClause? ss = some c ∧ commaList texts = c.text
  | [], written => by
    cases written
    exact ⟨.absent, rfl, rfl⟩
  | [s], written => by
    simp only [Stmt.clauses, bind_eq_ok] at written
    obtain ⟨text, written, _, ⟨⟩, ⟨⟩⟩ := written
    obtain ⟨c, made, rfl⟩ := Stmt.clause?_of_clause s written
    exact ⟨c, made, rfl⟩
  | s :: s' :: ss, written => by
    rw [Stmt.clauses, bind_eq_ok] at written
    obtain ⟨text, first, written⟩ := written
    rw [bind_eq_ok] at written
    obtain ⟨texts, rest, ⟨⟩⟩ := written
    have ne_nil : texts ≠ [] := by
      simp only [Stmt.clauses, bind_eq_ok] at rest
      obtain ⟨_, _, _, _, ⟨⟩⟩ := rest
      nofun
    obtain ⟨c, made, rfl⟩ := Stmt.clause?_of_clause s first
    obtain ⟨d, madeRest, same⟩ := Stmt.blockClause?_of_clauses (s' :: ss) rest
    refine ⟨c.append d, ?_, ?_⟩
    · rw [Stmt.blockClause?, made, madeRest]
      · rfl
      · simp
    · rw [commaList_cons _ ne_nil, same, Clause.text_append]

end

theorem Stmt.optionClause?_of_optionClause {s : Option Stmt} {text : String}
    (written : Stmt.optionClause s = .ok text) :
    ∃ c, Stmt.optionClause? s = some c ∧ text = c.text := by
  cases s with
  | none =>
    cases written
    exact ⟨.absent, rfl, rfl⟩
  | some s => exact Stmt.clause?_of_clause s written

theorem Clause.isDecimal_absent : Clause.absent.IsDecimal := by
  intro e member
  simp [Clause.absent, Clause.parts] at member

mutual

theorem Stmt.isDecimal_clause? {c : Clause} : (s : Stmt) → s.IsDecimal → s.clause? = some c →
    c.IsDecimal
  | .expr e, decimal, made => by
    cases made
    intro e' member
    simp only [Clause.parts, List.mem_singleton, Option.some.injEq] at member
    exact member ▸ decimal
  | .block body, decimal, made => Stmt.isDecimal_blockClause? body decimal made
  | .forLoop .., _, made | .whileLoop .., _, made | .ret .., _, made => by cases made

theorem Stmt.isDecimal_blockClause? {c : Clause} : (ss : List Stmt) → Stmt.AllDecimal ss →
    Stmt.blockClause? ss = some c → c.IsDecimal
  | [], _, made => by
    cases made
    exact Clause.isDecimal_absent
  | [s], decimal, made => Stmt.isDecimal_clause? s decimal.1 made
  | s :: s' :: ss, decimal, made => by
    rw [Stmt.blockClause?] at made
    · simp only [Option.bind_eq_bind, Option.bind_eq_some_iff] at made
      obtain ⟨first, madeFirst, rest, madeRest, ⟨⟩⟩ := made
      have firstDecimal := Stmt.isDecimal_clause? s decimal.1 madeFirst
      have restDecimal := Stmt.isDecimal_blockClause? (s' :: ss) decimal.2 madeRest
      intro e member
      rw [Clause.parts_append, List.mem_append] at member
      exact member.elim (firstDecimal e) (restDecimal e)
    · simp

end

theorem Stmt.isDecimal_optionClause? {s : Option Stmt} {c : Clause} (decimal : Stmt.OptionDecimal s)
    (made : Stmt.optionClause? s = some c) : c.IsDecimal := by
  cases s with
  | none =>
    cases made
    exact Clause.isDecimal_absent
  | some s => exact Stmt.isDecimal_clause? s decimal made

/-- The header of a `for` loop is made of its two clauses and its condition. -/
theorem forHeader_eq_ok {init step : Option Stmt} {condition : Expr} {header : String}
    (written : forHeader init condition step = .ok header) :
    ∃ c d, Stmt.optionClause? init = some c ∧ Stmt.optionClause? step = some d ∧
      header = "for (" ++ c.text ++ "; " ++ condition.render ++ "; " ++ d.text ++ ")" := by
  simp only [forHeader, bind_eq_ok] at written
  obtain ⟨_, first, _, second, ⟨⟩⟩ := written
  obtain ⟨c, madeFirst, rfl⟩ := Stmt.optionClause?_of_optionClause first
  obtain ⟨d, madeSecond, rfl⟩ := Stmt.optionClause?_of_optionClause second
  exact ⟨c, d, madeFirst, madeSecond, rfl⟩

/-! ### Writing -/

namespace Listing

section

variable {ε α β : Type} {p p₁ p' : Page} {tokens tokens' : List Token}

theorem Writing.runOn_bind_eq_ok {step : Writing ε α} {next : α → Writing ε β} {b : β} :
    runOn p (step >>= next) = (.ok b, p') ↔
      ∃ a p₁, runOn p step = (.ok a, p₁) ∧ runOn p₁ (next a) = (.ok b, p') := by
  rw [Writing.runOn_bind]
  rcases runOn p step with ⟨_ | a, p₁⟩
  · simp
  · simp only [Prod.mk.injEq, Except.ok.injEq, and_assoc, exists_and_left, exists_eq_left']

theorem Writing.runOn_line (text : String) :
    runOn p (Writing.line text : Writing ε Unit) =
      (.ok (), p.write (p.indentation ++ text ++ "\n")) := rfl

/-- What stands on the line that opens a block. -/
def openLine (header : String) : String := if header.isEmpty then "\x7b" else header ++ " \x7b"

/-- The body of a block is written one level deeper, between its two lines. The level is given back
in any case; the second line follows only if the body succeeds. -/
theorem Writing.runOn_block (header : String) (body : Writing ε Unit) :
    runOn p (Writing.block header body) =
      match runOn (p.write (p.indentation ++ openLine header ++ "\n")).indent body with
      | (.ok (), p₁) => (.ok (), p₁.dedent.write (p₁.dedent.indentation ++ "\x7d" ++ "\n"))
      | (.error e, p₁) => (.error e, p₁.dedent) := by
  have inside : ∀ p : Page, runOn p (ExceptT.mk (m := StateM Page) do
      modify Page.indent
      let outcome ← ExceptT.run body
      modify Page.dedent
      return outcome) = ((runOn p.indent body).1, (runOn p.indent body).2.dedent) := fun _ => rfl
  rw [Writing.block, Writing.runOn_bind, Writing.runOn_line]
  simp only [Writing.runOn_bind]
  rw [inside, ← openLine]
  rcases runOn (p.write (p.indentation ++ openLine header ++ "\n")).indent body with ⟨_ | _, p₁⟩
  · rfl
  · rfl

/-- A block is written if its body is. -/
theorem Writing.runOn_block_eq_ok {header : String} {body : Writing ε Unit} :
    runOn p (Writing.block header body) = (.ok (), p') ↔
      ∃ p₁, runOn (p.write (p.indentation ++ openLine header ++ "\n")).indent body = (.ok (), p₁) ∧
        p' = p₁.dedent.write (p₁.dedent.indentation ++ "\x7d" ++ "\n") := by
  rw [Writing.runOn_block]
  rcases runOn (p.write (p.indentation ++ openLine header ++ "\n")).indent body with ⟨_ | _, p₁⟩
  · simp
  · simp [eq_comm]

/-- Indentation is made of blanks. -/
def Page.IsBlank (p : Page) : Prop := ∀ c ∈ p.unit.toList, charClass c = .blank

theorem Page.isBlank_ofConfig (config : Config) (level : Nat) :
    Page.IsBlank { Page.ofConfig config with level } := by
  have unit : ∀ c ∈ config.indent.unit.toList, charClass c = .blank := by
    cases config.indent with
    | spaces count =>
      intro c member
      rw [Indent.unit, String.toList_ofList] at member
      rw [List.eq_of_mem_replicate member]
      decide
    | tabs =>
      intro c member
      have tab : c = '\t' := by simpa [Indent.unit] using member
      rw [tab]
      decide
  exact unit

theorem Page.IsBlank.indentation (blank : p.IsBlank) :
    ∀ c ∈ p.indentation.toList, charClass c = .blank := by
  intro c member
  rw [Page.indentation, String.toList_join] at member
  obtain ⟨chars, ofUnit, member⟩ := List.mem_flatMap.1 member
  rw [List.eq_of_mem_replicate ofUnit] at member
  exact blank c member

/-- A page has gained lines that are made of tokens. -/
def Page.Gains (p : Page) (tokens : List Token) (p' : Page) : Prop :=
  ∃ text, p' = p.write text ∧ SpellsLines text.toList tokens

theorem Page.write_write (p : Page) (text text' : String) :
    (p.write text).write text' = p.write (text ++ text') := by
  simp only [Page.write, String.append_assoc]

theorem Page.Gains.refl (p : Page) : p.Gains [] p := by
  refine ⟨"", ?_, .nil⟩
  rw [Page.write, String.append_empty]

theorem Page.Gains.trans (first : p.Gains tokens p₁) (second : p₁.Gains tokens' p') :
    p.Gains (tokens ++ tokens') p' := by
  obtain ⟨text, rfl, spells⟩ := first
  obtain ⟨text', rfl, spells'⟩ := second
  refine ⟨text ++ text', Page.write_write p text text', ?_⟩
  rw [String.toList_append]
  exact spells.append spells'

theorem Page.Gains.isBlank (gains : p.Gains tokens p') (blank : p.IsBlank) : p'.IsBlank := by
  obtain ⟨text, rfl, -⟩ := gains
  exact blank

theorem Page.gains_line (blank : p.IsBlank) {text : String} (spells : Spells text.toList tokens) :
    p.Gains tokens (p.write (p.indentation ++ text ++ "\n")) := by
  refine ⟨_, rfl, ?_⟩
  rw [String.toList_append, String.toList_append]
  exact SpellsLines.line blank.indentation spells

/-- A block gains the tokens of its two lines and of its body. -/
theorem Page.gains_block (blank : p.IsBlank) {header : String} {body : Writing ε Unit}
    {openTokens : List Token} (opens : Spells (openLine header).toList openTokens)
    {outlines : Option (List Outline)}
    (inside : ∀ {p₁ p₂ : Page}, p₁.IsBlank → runOn p₁ body = (.ok (), p₂) →
      ∃ os, outlines = some os ∧ p₁.Gains (Outline.allTokens os) p₂)
    (ran : runOn p (Writing.block header body) = (.ok (), p')) :
    ∃ os, outlines = some os ∧
      p.Gains (openTokens ++ Outline.allTokens os ++ [.mark '\x7d']) p' := by
  have opened := Page.gains_line blank opens
  obtain ⟨p₁, written, rfl⟩ := Writing.runOn_block_eq_ok.1 ran
  generalize p.write (p.indentation ++ openLine header ++ "\n") = q at written opened
  have deeper : q.indent.IsBlank := opened.isBlank blank
  obtain ⟨os, rfl, text, rfl, spells⟩ := inside deeper written
  have dedented : (q.indent.write text).dedent = q.write text := rfl
  rw [dedented]
  have gained := opened.trans ⟨text, rfl, spells⟩
  exact ⟨os, rfl, gained.trans (Page.gains_line (gained.isBlank blank) (.mark (by decide) .nil))⟩

end

end Listing

/-! ### Lines of statements -/

section

variable {e : Expr} {c d : Clause}

theorem Expr.spells_line (decimal : e.IsDecimal) :
    Spells (e.render ++ ";").toList (e.tokens ++ [.mark ';']) := by
  rw [String.toList_append]
  exact (e.spells decimal).append (.mark (c := ';') (by decide) .nil) (apart_cons (by decide) _)

theorem spells_return (decimal : e.IsDecimal) :
    Spells ("return " ++ e.render ++ ";").toList (.word "return" :: (e.tokens ++ [.mark ';'])) := by
  have blank : Spells (' ' :: (e.render ++ ";").toList) (e.tokens ++ [.mark ';']) :=
    .blank (by decide) (Expr.spells_line decimal)
  rw [String.append_assoc, String.toList_append]
  exact (Spells.word (rfl : isWord "return" = true)).append blank (apart_cons (by decide) _)

/-- The tokens that end the header of a loop. -/
theorem spells_opening : Spells [')', ' ', '\x7b'] [.mark ')', .mark '\x7b'] :=
  .mark (by decide) (.blank (by decide) (.mark (by decide) .nil))

theorem spells_while (decimal : e.IsDecimal) :
    Spells (openLine ("while (" ++ e.render ++ ")")).toList
      (.word "while" :: .mark '(' :: (e.tokens ++ [.mark ')', .mark '\x7b'])) := by
  have line : (openLine ("while (" ++ e.render ++ ")")).toList =
      "while".toList ++ ' ' :: '(' :: (e.render.toList ++ [')', ' ', '\x7b']) := by
    simp [openLine]
  have condition := (e.spells decimal).append spells_opening (apart_cons (by decide) _)
  rw [line]
  exact (Spells.word (rfl : isWord "while" = true)).append
    (.blank (by decide) (.mark (by decide) condition)) (apart_cons (by decide) _)

theorem spells_for (init : c.IsDecimal) (condition : e.IsDecimal) (step : d.IsDecimal) :
    Spells (openLine ("for (" ++ c.text ++ "; " ++ e.render ++ "; " ++ d.text ++ ")")).toList
      (.word "for" :: .mark '(' :: (c.tokens ++ .mark ';' :: (e.tokens ++ .mark ';' ::
        (d.tokens ++ [.mark ')', .mark '\x7b'])))) := by
  have line : (openLine ("for (" ++ c.text ++ "; " ++ e.render ++ "; " ++ d.text ++ ")")).toList =
      "for".toList ++ ' ' :: '(' :: (c.text.toList ++ ';' :: ' ' :: (e.render.toList ++
        ';' :: ' ' :: (d.text.toList ++ [')', ' ', '\x7b']))) := by
    simp [openLine]
  have semicolon : ∀ {text tokens}, Spells text tokens →
      Spells (';' :: ' ' :: text) (.mark ';' :: tokens) := fun spells =>
    .mark (by decide) (.blank (by decide) spells)
  have last := (Clause.spells step).append spells_opening (apart_cons (by decide) _)
  have tested := (e.spells condition).append (semicolon last) (apart_cons (by decide) _)
  have all := (Clause.spells init).append (semicolon tested) (apart_cons (by decide) _)
  rw [line]
  exact (Spells.word (rfl : isWord "for" = true)).append
    (.blank (by decide) (.mark (by decide) all)) (apart_cons (by decide) _)

end

mutual

/-- What a statement is listed as is made of the tokens of its outline. -/
theorem Stmt.gains_of_list {p p' : Page} {inBraces : Bool} : (s : Stmt) → s.IsDecimal →
    p.IsBlank → runOn p (Stmt.list inBraces s) = (.ok (), p') →
      ∃ os, s.outlines? inBraces = some os ∧ p.Gains (Outline.allTokens os) p'
  | .expr e, decimal, blank, ran => by
    rw [Stmt.list, Writing.runOn_line] at ran
    cases ran
    refine ⟨[.expr e], rfl, ?_⟩
    rw [Outline.allTokens_singleton]
    exact Page.gains_line blank (Expr.spells_line decimal)
  | .ret e, decimal, blank, ran => by
    rw [Stmt.list, Writing.runOn_line] at ran
    cases ran
    refine ⟨[.ret e], rfl, ?_⟩
    rw [Outline.allTokens_singleton]
    exact Page.gains_line blank (spells_return decimal)
  | .block body, decimal, blank, ran => by
    rw [Stmt.list] at ran
    cases inBraces with
    | true =>
      obtain ⟨os, outlined, gains⟩ := Stmt.gains_of_listAll body decimal blank ran
      exact ⟨os, by rw [Stmt.outlines?, outlined]; rfl, gains⟩
    | false =>
      have opens : Spells (openLine "").toList [.mark '\x7b'] := .mark (by decide) .nil
      obtain ⟨os, outlined, gains⟩ := Page.gains_block blank opens
        (fun blank ran => Stmt.gains_of_listAll body decimal blank ran) ran
      refine ⟨[.block os], by rw [Stmt.outlines?, outlined]; rfl, ?_⟩
      rw [Outline.allTokens_singleton]
      exact gains
  | .whileLoop condition body, decimal, blank, ran => by
    rw [Stmt.list] at ran
    obtain ⟨os, outlined, gains⟩ := Page.gains_block blank (spells_while decimal.1)
      (fun blank ran => Stmt.gains_of_list body decimal.2 blank ran) ran
    refine ⟨[.whileLoop condition os], by rw [Stmt.outlines?, outlined]; rfl, ?_⟩
    rw [Outline.allTokens_singleton, Outline.tokens]
    simpa using gains
  | .forLoop init condition step body, decimal, blank, ran => by
    rw [Stmt.list, Writing.runOn_bind_eq_ok] at ran
    obtain ⟨header, _, written, ran⟩ := ran
    obtain ⟨same, rfl⟩ := Prod.mk.inj written
    obtain ⟨c, d, madeInit, madeStep, rfl⟩ := forHeader_eq_ok same
    obtain ⟨initDecimal, conditionDecimal, stepDecimal, bodyDecimal⟩ := decimal
    have opens := spells_for (Stmt.isDecimal_optionClause? initDecimal madeInit) conditionDecimal
      (Stmt.isDecimal_optionClause? stepDecimal madeStep)
    obtain ⟨os, outlined, gains⟩ := Page.gains_block blank opens
      (fun blank ran => Stmt.gains_of_list body bodyDecimal blank ran) ran
    refine ⟨[.forLoop c condition d os], ?_, ?_⟩
    · rw [Stmt.outlines?, madeInit, madeStep, outlined]
      rfl
    · rw [Outline.allTokens_singleton, Outline.tokens]
      simpa using gains

theorem Stmt.gains_of_listAll {p p' : Page} : (ss : List Stmt) → Stmt.AllDecimal ss →
    p.IsBlank → runOn p (Stmt.listAll ss) = (.ok (), p') →
      ∃ os, Stmt.allOutlines? ss = some os ∧ p.Gains (Outline.allTokens os) p'
  | [], _, _, ran => by
    rw [Stmt.listAll, Writing.runOn_pure] at ran
    cases ran
    exact ⟨[], rfl, .refl p⟩
  | s :: ss, decimal, blank, ran => by
    rw [Stmt.listAll, Writing.runOn_bind_eq_ok] at ran
    obtain ⟨_, p₁, first, rest⟩ := ran
    obtain ⟨os, outlined, gains⟩ := Stmt.gains_of_list s decimal.1 blank first
    obtain ⟨os', outlined', gains'⟩ :=
      Stmt.gains_of_listAll ss decimal.2 (gains.isBlank blank) rest
    refine ⟨os ++ os', ?_, ?_⟩
    · rw [Stmt.allOutlines?, outlined, outlined']
      rfl
    · rw [Outline.allTokens_append]
      exact gains.trans gains'

end

/-- Statements with decimal literals that are listed alike have the same outlines. -/
theorem Stmt.allOutlines?_of_listAll {p p₁ p₂ : Page} {ss ss' : List Stmt}
    (decimal : Stmt.AllDecimal ss) (decimal' : Stmt.AllDecimal ss') (blank : p.IsBlank)
    (written : runOn p (Stmt.listAll ss) = (.ok (), p₁))
    (written' : runOn p (Stmt.listAll ss') = (.ok (), p₂)) (same : p₁.text = p₂.text) :
    ∃ os, Stmt.allOutlines? ss = some os ∧ Stmt.allOutlines? ss' = some os := by
  obtain ⟨os, outlined, text, rfl, spells⟩ := Stmt.gains_of_listAll ss decimal blank written
  obtain ⟨os', outlined', text', rfl, spells'⟩ := Stmt.gains_of_listAll ss' decimal' blank written'
  have texts : text = text' := by
    have joined : p.text ++ text = p.text ++ text' := same
    apply String.toList_inj.1
    have chars := congrArg String.toList joined
    rw [String.toList_append, String.toList_append] at chars
    exact List.append_cancel_left chars
  subst texts
  have tokens : Outline.allTokens os = Outline.allTokens os' := spells.lexes.unique spells'.lexes
  have ends : EndsBlock [] := .inl rfl
  obtain ⟨rfl, -⟩ := Outline.allTokens_inj os os' ends ends (congrArg (· ++ []) tokens)
  exact ⟨os, outlined, outlined'⟩

/-- Bodies of definitions in compiled circuits that are listed alike, at the same level and with the
same settings, have the same outlines; and lowered expressions that are written alike are equal. -/
theorem Node.outlines_of_listings :
    (∀ (root root' : Node) (field field' : Field) (circuit circuit' : Circuit)
      (kind kind' : SymbolKind) (name name' : String) (d d' : Definition),
      root.compile field = .ok circuit → root'.compile field' = .ok circuit' →
      circuit.registry.definition? name kind = some d →
      circuit'.registry.definition? name' kind' = some d' →
      ∀ (config : Config) (level : Nat) (p p' : Page),
        runOn { Page.ofConfig config with level } (Stmt.listAll d.body) = (.ok (), p) →
        runOn { Page.ofConfig config with level } (Stmt.listAll d'.body) = (.ok (), p') →
        p.text = p'.text →
        ∃ os, Stmt.allOutlines? d.body = some os ∧ Stmt.allOutlines? d'.body = some os) ∧
    (∀ (n n' : Node) (ctx ctx₁ ctx' ctx₁' : Context) (e e' : Expr),
      runFrom ctx n.lowerValue = (.ok e, ctx₁) → runFrom ctx' n'.lowerValue = (.ok e', ctx₁') →
      e.render = e'.render → e = e') := by
  constructor
  · intro root root' field field' circuit circuit' kind kind' name name' d d' compiled compiled'
      found found' config level p p' written written' same
    exact Stmt.allOutlines?_of_listAll (Node.allDecimal_of_compile compiled found)
      (Node.allDecimal_of_compile compiled' found') (Page.isBlank_ofConfig config level)
      written written' same
  · intro n n' ctx ctx₁ ctx' ctx₁' e e' lowered lowered' same
    have decimal := Node.isDecimal_of_lower n (runFrom_valueOf_eq_ok.1 lowered)
    have decimal' := Node.isDecimal_of_lower n' (runFrom_valueOf_eq_ok.1 lowered')
    exact Expr.eq_of_render_eq decimal decimal' same

/-- `function f(n) { for (init; n < 2; n++) body }` -/
def Node.countingLoop (init body : Node) : Node :=
  let n : Node := .var .unknown "n" []
  .function .unknown "f" ["n"] (.block .unknown [.forLoop .unknown init
    (.op .unknown "<" [n, .number .unknown 2]) (.op .unknown "PLUSPLUSRIGHT" [n]) body])

/-- A loop without a first clause, over a statement, and one with an empty block as its first
clause, over a block of the statement. -/
theorem Node.outlines_of_listings_countingLoop :
    let call : Node := .call .unknown "log" [.var .unknown "n" []]
    ∃ circuit circuit' d d' os,
      (countingLoop (.inclusion .unknown none none) call).compile .bn254 = .ok circuit ∧
      (countingLoop (.block .unknown []) (.block .unknown [call])).compile .bn254 = .ok circuit' ∧
      circuit.function? "f" = some d ∧ circuit'.function? "f" = some d' ∧
      Stmt.allOutlines? d.body = some os ∧ Stmt.allOutlines? d'.body = some os := by
  intro call
  have compiled : (countingLoop (.inclusion .unknown none none) call).compile .bn254 = .ok _ := rfl
  have compiled' :
      (countingLoop (.block .unknown []) (.block .unknown [call])).compile .bn254 = .ok _ := rfl
  obtain ⟨os, outlined, outlined'⟩ := Node.outlines_of_listings.1 _ _ _ _ _ _ .function .function
    "f" "f" _ _ compiled compiled' rfl rfl .plain 0 _ _ rfl rfl rfl
  exact ⟨_, _, _, _, os, compiled, compiled', rfl, rfl, outlined, outlined'⟩

end ArithCircuit
