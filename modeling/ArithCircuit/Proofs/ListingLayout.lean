import ArithCircuit.Proofs.SingleLines

set_option autoImplicit false
set_option relaxedAutoImplicit false

/-!
# The layout of listings

The lines of a listing are those of the outlines of the statements, each indented by as many levels
as there are blocks around it; every line that opens a block has its closing line at the same depth,
with deeper lines only between the two. Writing gives back the level it started from, also when it
fails in the middle of a block. Main statement: `Stmt.listing_layout`.
-/

namespace ArithCircuit

open Listing
open Writing (runOn)

/-! ### Lines -/

namespace Listing

/-- A line of a listing: how many blocks are around it, and what stands on it. -/
structure Line where
  depth : Nat
  content : String
  deriving DecidableEq, Repr

namespace Line

/-- The line with one more block around it. -/
def deeper (l : Line) : Line := { l with depth := l.depth + 1 }

/-- Whether the line opens a block. -/
def opens (l : Line) : Bool := l.content.toList.getLast? = some '\x7b'

/-- The line on a page: the indentation of the level of the page and of the blocks around the line,
then the content. -/
def text (p : Page) (l : Line) : String :=
  String.join (List.replicate (p.level + l.depth) p.unit) ++ l.content ++ "\n"

theorem text_deeper (p : Page) (l : Line) : l.deeper.text p = l.text p.indent := by
  have deeper : p.level + (l.depth + 1) = p.level + 1 + l.depth := by omega
  rw [text, text, Line.deeper, deeper]
  rfl

end Line

/-- The lines of a block with a header, around the lines inside it. -/
def blockLines (header : String) (inside : List Line) : List Line :=
  ⟨0, openLine header⟩ :: (inside.map Line.deeper ++ [⟨0, "\x7d"⟩])

/-- Every line that opens a block is closed at its depth, and the lines between lie deeper. -/
def Closed (lines : List Line) : Prop :=
  ∀ before l after, lines = before ++ l :: after → l.opens = true →
    ∃ inside rest, after = inside ++ ⟨l.depth, "\x7d"⟩ :: rest ∧ ∀ m ∈ inside, l.depth < m.depth

section

variable {lines lines' : List Line} {header : String}

theorem closed_nil : Closed [] := by
  intro before l after same
  simp at same

theorem closed_singleton {l : Line} (plain : l.opens = false) : Closed [l] := by
  intro before m after same opens
  have member : m ∈ [l] := same ▸ List.mem_append_right _ (.head _)
  rw [List.mem_singleton.1 member, plain] at opens
  cases opens

theorem Closed.append (first : Closed lines) (second : Closed lines') :
    Closed (lines ++ lines') := by
  intro before l after same opens
  rcases List.append_eq_append_iff.1 same with ⟨middle, rfl, parts⟩ | ⟨middle, rfl, parts⟩
  · exact second middle l after parts opens
  · rcases middle with _ | ⟨head, tail⟩
    · exact second [] l after parts.symm opens
    · obtain ⟨rfl, rfl⟩ := List.cons.inj parts
      obtain ⟨inside, rest, rfl, deep⟩ := first before _ tail rfl opens
      exact ⟨inside, rest ++ lines', by simp, deep⟩

theorem Closed.deeper (closed : Closed lines) : Closed (lines.map Line.deeper) := by
  intro before l after same opens
  obtain ⟨before', rest', rfl, rfl, mapped⟩ := List.map_eq_append_iff.1 same
  obtain ⟨l', after', rfl, rfl, rfl⟩ := List.map_eq_cons_iff.1 mapped
  obtain ⟨inside, rest, rfl, deep⟩ := closed before' l' after' rfl opens
  refine ⟨inside.map Line.deeper, rest.map Line.deeper, ?_, ?_⟩
  · rw [List.map_append, List.map_cons]
    rfl
  · intro m member
    obtain ⟨m', shallower, rfl⟩ := List.mem_map.1 member
    exact Nat.succ_lt_succ (deep m' shallower)

theorem Closed.blockLines (closed : Closed lines) (header : String) :
    Closed (blockLines header lines) := by
  have ending : Closed [⟨0, "\x7d"⟩] := closed_singleton (by decide)
  intro before l after same opens
  rcases before with _ | ⟨first, before⟩
  · obtain ⟨rfl, rfl⟩ := List.cons.inj same
    refine ⟨lines.map Line.deeper, [], rfl, ?_⟩
    intro m member
    obtain ⟨m', -, rfl⟩ := List.mem_map.1 member
    exact Nat.succ_pos _
  · exact (closed.deeper.append ending) before l after (List.cons.inj same).2 opens

end

end Listing

mutual

/-- The lines of a statement. -/
def Outline.lines : Outline → List Line
  | .expr e => [⟨0, e.render ++ ";"⟩]
  | .block body => blockLines "" (Outline.allLines body)
  | .forLoop init condition step body =>
    blockLines ("for (" ++ init.text ++ "; " ++ condition.render ++ "; " ++ step.text ++ ")")
      (Outline.allLines body)
  | .whileLoop condition body =>
    blockLines ("while (" ++ condition.render ++ ")") (Outline.allLines body)
  | .ret e => [⟨0, "return " ++ e.render ++ ";"⟩]

/-- The lines of statements. -/
def Outline.allLines : List Outline → List Line
  | [] => []
  | o :: os => o.lines ++ Outline.allLines os

end

namespace Outline

theorem allLines_append (os os' : List Outline) :
    allLines (os ++ os') = allLines os ++ allLines os' := by
  induction os with
  | nil => rfl
  | cons o os ih => rw [List.cons_append, allLines, ih, allLines, List.append_assoc]

theorem allLines_singleton (o : Outline) : allLines [o] = o.lines := by
  rw [allLines, allLines, List.append_nil]

/-- A line that ends in a semicolon opens no block. -/
private theorem opens_semicolon (text : String) : (⟨0, text ++ ";"⟩ : Line).opens = false := by
  simp [Line.opens, String.toList_append]

mutual

/-- Every block of a statement is closed. -/
theorem closed_lines : (o : Outline) → Closed o.lines
  | .expr e => closed_singleton (opens_semicolon e.render)
  | .ret e => closed_singleton (opens_semicolon ("return " ++ e.render))
  | .block body => (closed_allLines body).blockLines _
  | .forLoop _ _ _ body | .whileLoop _ body => (closed_allLines body).blockLines _

theorem closed_allLines : (os : List Outline) → Closed (allLines os)
  | [] => closed_nil
  | o :: os => (closed_lines o).append (closed_allLines os)

end

end Outline

/-! ### What is written -/

namespace Listing

variable {ε : Type} {p p₁ p' : Page} {lines lines' : List Line}

/-- A page has gained lines. -/
def Page.Adds (p : Page) (lines : List Line) (p' : Page) : Prop :=
  p' = p.write (String.join (lines.map (Line.text p)))

theorem Page.adds_nil (p : Page) : p.Adds [] p := by
  rw [Page.Adds, Page.write]
  simp

theorem Page.adds_line (p : Page) (content : String) :
    p.Adds [⟨0, content⟩] (p.write (p.indentation ++ content ++ "\n")) := by
  simp [Page.Adds, Line.text, Page.indentation]

theorem Page.Adds.trans (first : p.Adds lines p₁) (second : p₁.Adds lines' p') :
    p.Adds (lines ++ lines') p' := by
  subst first
  have same : Line.text (p.write (String.join (lines.map (Line.text p)))) = Line.text p := rfl
  rw [Page.Adds, same, Page.write_write] at second
  rw [Page.Adds, second, List.map_append]
  simp

/-- Lines that a page gains one level deeper have one more block around them. -/
theorem Page.Adds.dedent (added : p.indent.Adds lines p₁) :
    p.Adds (lines.map Line.deeper) p₁.dedent := by
  have texts : (lines.map Line.deeper).map (Line.text p) = lines.map (Line.text p.indent) := by
    rw [List.map_map]
    exact List.map_congr_left fun l _ => Line.text_deeper p l
  rw [Page.Adds, texts, added]
  rfl

/-- A block adds its two lines and, one level deeper, those of its body. -/
theorem Writing.adds_block {header : String} {body : Writing ε Unit}
    {outlines : Option (List Outline)}
    (inside : ∀ {p₁ p₂ : Page}, runOn p₁ body = (.ok (), p₂) →
      ∃ os, outlines = some os ∧ p₁.Adds (Outline.allLines os) p₂)
    (ran : runOn p (Writing.block header body) = (.ok (), p')) :
    ∃ os, outlines = some os ∧ p.Adds (blockLines header (Outline.allLines os)) p' := by
  have opened := p.adds_line (openLine header)
  obtain ⟨p₁, written, rfl⟩ := Writing.runOn_block_eq_ok.1 ran
  obtain ⟨os, outlined, added⟩ := inside written
  exact ⟨os, outlined, opened.trans (added.dedent.trans (p₁.dedent.adds_line "\x7d"))⟩

end Listing

mutual

/-- A statement that is listed adds the lines of its outlines. -/
theorem Stmt.adds_of_list {p p' : Page} {inBraces : Bool} : (s : Stmt) →
    runOn p (Stmt.list inBraces s) = (.ok (), p') →
      ∃ os, s.outlines? inBraces = some os ∧ p.Adds (Outline.allLines os) p'
  | .expr e, ran => by
    rw [Stmt.list, Writing.runOn_line] at ran
    cases ran
    exact ⟨[.expr e], rfl, p.adds_line _⟩
  | .ret e, ran => by
    rw [Stmt.list, Writing.runOn_line] at ran
    cases ran
    exact ⟨[.ret e], rfl, p.adds_line _⟩
  | .block body, ran => by
    rw [Stmt.list] at ran
    cases inBraces with
    | true =>
      obtain ⟨os, outlined, added⟩ := Stmt.adds_of_listAll body ran
      exact ⟨os, by rw [Stmt.outlines?, outlined]; rfl, added⟩
    | false =>
      obtain ⟨os, outlined, added⟩ := Writing.adds_block (Stmt.adds_of_listAll body) ran
      refine ⟨[.block os], by rw [Stmt.outlines?, outlined]; rfl, ?_⟩
      rwa [Outline.allLines_singleton]
  | .whileLoop condition body, ran => by
    rw [Stmt.list] at ran
    obtain ⟨os, outlined, added⟩ := Writing.adds_block (Stmt.adds_of_list body) ran
    refine ⟨[.whileLoop condition os], by rw [Stmt.outlines?, outlined]; rfl, ?_⟩
    rwa [Outline.allLines_singleton]
  | .forLoop init condition step body, ran => by
    rw [Stmt.list, Writing.runOn_bind_eq_ok] at ran
    obtain ⟨header, _, written, ran⟩ := ran
    obtain ⟨same, rfl⟩ := Prod.mk.inj written
    obtain ⟨c, d, madeInit, madeStep, rfl⟩ := forHeader_eq_ok same
    obtain ⟨os, outlined, added⟩ := Writing.adds_block (Stmt.adds_of_list body) ran
    refine ⟨[.forLoop c condition d os], ?_, ?_⟩
    · rw [Stmt.outlines?, madeInit, madeStep, outlined]
      rfl
    · rwa [Outline.allLines_singleton]

theorem Stmt.adds_of_listAll {p p' : Page} : (ss : List Stmt) →
    runOn p (Stmt.listAll ss) = (.ok (), p') →
      ∃ os, Stmt.allOutlines? ss = some os ∧ p.Adds (Outline.allLines os) p'
  | [], ran => by
    rw [Stmt.listAll, Writing.runOn_pure] at ran
    cases ran
    exact ⟨[], rfl, p.adds_nil⟩
  | s :: ss, ran => by
    rw [Stmt.listAll, Writing.runOn_bind_eq_ok] at ran
    obtain ⟨_, p₁, first, rest⟩ := ran
    obtain ⟨os, outlined, added⟩ := Stmt.adds_of_list s first
    obtain ⟨os', outlined', added'⟩ := Stmt.adds_of_listAll ss rest
    refine ⟨os ++ os', ?_, ?_⟩
    · rw [Stmt.allOutlines?, outlined, outlined']
      rfl
    · rw [Outline.allLines_append]
      exact added.trans added'

end

/-! ### The level is given back -/

namespace Listing.Writing

variable {ε α β : Type}

/-- A step of writing ends at the level it started from, whether it succeeds or fails. -/
def KeepsLevel (step : Writing ε α) : Prop := ∀ p, (runOn p step).2.level = p.level

/-- A header and a body between braces, as `block` writes them, with another way to write a line. -/
def blockBy (line : String → Writing ε Unit) (header : String) (body : Writing ε Unit) :
    Writing ε Unit := do
  line (openLine header)
  ExceptT.mk do
    modify Page.indent
    let outcome ← ExceptT.run body
    modify Page.dedent
    return outcome
  line "\x7d"

theorem blockBy_line (header : String) (body : Writing ε Unit) :
    blockBy line header body = block header body := rfl

theorem keepsLevel_lift (outcome : Except ε α) :
    KeepsLevel (ExceptT.mk (pure outcome) : Writing ε α) := fun _ => rfl

theorem keepsLevel_line (text : String) : KeepsLevel (line text : Writing ε Unit) := fun _ => rfl

theorem KeepsLevel.bind {step : Writing ε α} {next : α → Writing ε β} (first : KeepsLevel step)
    (second : ∀ a, KeepsLevel (next a)) : KeepsLevel (step >>= next) := by
  intro p
  have kept := first p
  rw [runOn_bind]
  rcases ran : runOn p step with ⟨_ | a, p₁⟩ <;> rw [ran] at kept
  · exact kept
  · exact (second a p₁).trans kept

/-- A block goes one level deeper and back, also if its body fails. -/
theorem KeepsLevel.blockBy {line : String → Writing ε Unit} {body : Writing ε Unit}
    (steady : ∀ text, KeepsLevel (line text)) (inside : KeepsLevel body) (header : String) :
    KeepsLevel (blockBy line header body) := by
  have deeper : KeepsLevel (ExceptT.mk (m := StateM Page) do
      modify Page.indent
      let outcome ← ExceptT.run body
      modify Page.dedent
      return outcome) := by
    intro p
    have level : (runOn p.indent body).2.level = p.level + 1 := inside p.indent
    have up : (runOn p.indent body).2.dedent.level = p.level := by
      rw [Page.dedent, level]
      rfl
    exact up
  exact (steady _).bind fun _ => deeper.bind fun _ => steady _

end Listing.Writing

open Writing (KeepsLevel)

section

variable {ε : Type}

mutual

/-- Write a statement as `Stmt.list` does, with another way to write a line, which may fail too. -/
def Stmt.listBy (line : String → Writing ε Unit) (failure : ListingError → ε) (inBraces : Bool) :
    Stmt → Writing ε Unit
  | .expr e => line (e.render ++ ";")
  | .block body =>
    if inBraces then Stmt.listAllBy line failure body
    else Writing.blockBy line "" (Stmt.listAllBy line failure body)
  | .forLoop init condition step body => do
    let header ← ExceptT.mk (pure ((forHeader init condition step).mapError failure))
    Writing.blockBy line header (Stmt.listBy line failure true body)
  | .whileLoop condition body =>
    Writing.blockBy line ("while (" ++ condition.render ++ ")") (Stmt.listBy line failure true body)
  | .ret e => line ("return " ++ e.render ++ ";")

/-- Write statements one after the other, with another way to write a line. -/
def Stmt.listAllBy (line : String → Writing ε Unit) (failure : ListingError → ε) :
    List Stmt → Writing ε Unit
  | [] => return ()
  | s :: ss => do
    Stmt.listBy line failure false s
    Stmt.listAllBy line failure ss

end

mutual

theorem Stmt.listBy_line (inBraces : Bool) :
    (s : Stmt) → s.listBy Writing.line id inBraces = s.list inBraces
  | .expr _ | .ret _ => by rw [Stmt.listBy, Stmt.list]
  | .block body => by
    rw [Stmt.listBy, Stmt.list, Stmt.listAllBy_line body, Writing.blockBy_line]
  | .whileLoop condition body => by
    rw [Stmt.listBy, Stmt.list, Stmt.listBy_line true body, Writing.blockBy_line]
  | .forLoop init condition step body => by
    have same : (forHeader init condition step).mapError id = forHeader init condition step := by
      cases forHeader init condition step <;> rfl
    rw [Stmt.listBy, Stmt.list, Stmt.listBy_line true body, same]
    rfl

theorem Stmt.listAllBy_line : (ss : List Stmt) →
    Stmt.listAllBy Writing.line id ss = Stmt.listAll ss
  | [] => by rw [Stmt.listAllBy, Stmt.listAll]
  | s :: ss => by
    rw [Stmt.listAllBy, Stmt.listAll, Stmt.listBy_line false s, Stmt.listAllBy_line ss]

end

mutual

/-- As long as writing a line keeps the level, so does writing a statement. -/
theorem Stmt.keepsLevel_listBy {line : String → Writing ε Unit} {failure : ListingError → ε}
    (steady : ∀ text, KeepsLevel (line text)) (inBraces : Bool) :
    (s : Stmt) → KeepsLevel (s.listBy line failure inBraces)
  | .expr e => steady _
  | .ret e => steady _
  | .block body => by
    have inside : KeepsLevel (Stmt.listAllBy line failure body) :=
      Stmt.keepsLevel_listAllBy steady body
    cases inBraces with
    | true => exact inside
    | false => exact inside.blockBy steady ""
  | .whileLoop condition body =>
    (Stmt.keepsLevel_listBy steady true body).blockBy steady _
  | .forLoop init condition step body => by
    rw [Stmt.listBy]
    exact (Writing.keepsLevel_lift _).bind fun header =>
      (Stmt.keepsLevel_listBy steady true body).blockBy steady header

theorem Stmt.keepsLevel_listAllBy {line : String → Writing ε Unit} {failure : ListingError → ε}
    (steady : ∀ text, KeepsLevel (line text)) :
    (ss : List Stmt) → KeepsLevel (Stmt.listAllBy line failure ss)
  | [] => fun _ => rfl
  | s :: ss => by
    rw [Stmt.listAllBy]
    exact (Stmt.keepsLevel_listBy steady false s).bind fun _ => Stmt.keepsLevel_listAllBy steady ss

end

end

/-! ### One line each -/

/-- A statement whose expressions are each written on one line. -/
def Stmt.IsPlain (s : Stmt) : Prop := ∀ e, s.Holds e → '\n' ∉ e.render.toList

theorem Clause.newline_not_mem_text {c : Clause}
    (each : ∀ e, some e ∈ c.parts → '\n' ∉ e.render.toList) : '\n' ∉ c.text.toList := by
  rw [Clause.text, toList_commaList]
  apply newline_not_mem_commaChars
  intro x member
  rw [List.map_map] at member
  obtain ⟨part, inside, rfl⟩ := List.mem_map.1 member
  cases part with
  | none => exact List.not_mem_nil
  | some e => exact each e inside

namespace Listing

/-- No line has the end of a line in it. -/
def OneLineEach (lines : List Line) : Prop := ∀ l ∈ lines, '\n' ∉ l.content.toList

theorem oneLineEach_singleton {content : String} (plain : '\n' ∉ content.toList) :
    OneLineEach [⟨0, content⟩] := by
  intro l member
  rwa [List.mem_singleton.1 member]

theorem OneLineEach.append {lines lines' : List Line} (first : OneLineEach lines)
    (second : OneLineEach lines') : OneLineEach (lines ++ lines') := by
  intro l member
  exact (List.mem_append.1 member).elim (first l) (second l)

theorem OneLineEach.blockLines {lines : List Line} {header : String}
    (plain : '\n' ∉ header.toList) (inside : OneLineEach lines) :
    OneLineEach (blockLines header lines) := by
  have opening : '\n' ∉ (openLine header).toList := by
    rw [openLine]
    split
    · decide
    · simpa using plain
  have deeper : OneLineEach (lines.map Line.deeper) := by
    intro l member
    obtain ⟨l', shallower, rfl⟩ := List.mem_map.1 member
    exact inside l' shallower
  exact (oneLineEach_singleton opening).append
    (deeper.append (oneLineEach_singleton (by decide)))

end Listing

mutual

theorem Stmt.oneLineEach_of_outlines? {inBraces : Bool} {os : List Outline} : (s : Stmt) →
    s.IsPlain → s.outlines? inBraces = some os → OneLineEach (Outline.allLines os)
  | .expr e, plain, made => by
    cases made
    have own := plain e (Stmt.holds_of_mem (.head _))
    rw [Outline.allLines_singleton]
    exact oneLineEach_singleton (by simpa using own)
  | .ret e, plain, made => by
    cases made
    have own := plain e (Stmt.holds_of_mem (.head _))
    rw [Outline.allLines_singleton]
    exact oneLineEach_singleton (by simpa using own)
  | .block body, plain, made => by
    simp only [Stmt.outlines?, Option.bind_eq_bind, Option.bind_eq_some_iff] at made
    obtain ⟨inside, made, same⟩ := made
    have each := Stmt.oneLineEach_of_allOutlines? body
      (fun m member e holds => plain e (holds.of_child member)) made
    cases inBraces with
    | true =>
      cases same
      exact each
    | false =>
      obtain rfl : [.block inside] = os := Option.some.inj same
      rw [Outline.allLines_singleton]
      exact each.blockLines (by decide)
  | .whileLoop condition body, plain, made => by
    simp only [Stmt.outlines?, Option.bind_eq_bind, Option.bind_eq_some_iff] at made
    obtain ⟨inside, made, ⟨⟩⟩ := made
    have own := plain condition (Stmt.holds_of_mem (.head _))
    have each := Stmt.oneLineEach_of_outlines? body
      (fun e holds => plain e (holds.of_child (.head _))) made
    rw [Outline.allLines_singleton]
    exact each.blockLines (by simpa using own)
  | .forLoop init condition step body, plain, made => by
    simp only [Stmt.outlines?, Option.bind_eq_bind, Option.bind_eq_some_iff] at made
    obtain ⟨c, madeInit, d, madeStep, inside, made, ⟨⟩⟩ := made
    have child : ∀ m, m ∈ init ∨ m ∈ step ∨ m = body →
        m ∈ (Stmt.forLoop init condition step body).children := by
      simp [Stmt.children]
    have own := plain condition (Stmt.holds_of_mem (.head _))
    have first : '\n' ∉ c.text.toList := Clause.newline_not_mem_text fun e part => by
      obtain ⟨m, member, holds⟩ := Stmt.holds_of_optionClause? madeInit part
      exact plain e (holds.of_child (child m (.inl member)))
    have second : '\n' ∉ d.text.toList := Clause.newline_not_mem_text fun e part => by
      obtain ⟨m, member, holds⟩ := Stmt.holds_of_optionClause? madeStep part
      exact plain e (holds.of_child (child m (.inr (.inl member))))
    have each := Stmt.oneLineEach_of_outlines? body
      (fun e holds => plain e (holds.of_child (child body (.inr (.inr rfl))))) made
    rw [Outline.allLines_singleton]
    exact each.blockLines (by simp [own, first, second])

theorem Stmt.oneLineEach_of_allOutlines? {os : List Outline} : (ss : List Stmt) →
    (∀ s ∈ ss, s.IsPlain) → Stmt.allOutlines? ss = some os → OneLineEach (Outline.allLines os)
  | [], _, made => by
    cases made
    exact nofun
  | s :: ss, plain, made => by
    simp only [Stmt.allOutlines?, Option.bind_eq_bind, Option.bind_eq_some_iff] at made
    obtain ⟨first, madeFirst, rest, madeRest, ⟨⟩⟩ := made
    have one := Stmt.oneLineEach_of_outlines? s (plain s (.head _)) madeFirst
    have more := Stmt.oneLineEach_of_allOutlines? ss (fun t member => plain t (.tail _ member))
      madeRest
    rw [Outline.allLines_append]
    exact one.append more

end

/-! ### The whole listing -/

/-- Writing a statement ends at the level it started from, whether it succeeds or fails, and also if
lines are written in a way that may fail, such as to a device. If it succeeds and no literal holds
the end of a line, what is written are the lines of the outlines: each is one line that begins with
the units of the starting level and of the blocks around it, and every line that opens a block is
closed at its depth. -/
theorem Stmt.listing_layout (s : Stmt) (inBraces : Bool) (p : Page) :
    (∀ (ε : Type) (line : String → Writing ε Unit) (failure : ListingError → ε),
      (∀ text p, (runOn p (line text)).2.level = p.level) →
        (runOn p (s.listBy line failure inBraces)).2.level = p.level) ∧
    s.listBy Writing.line id inBraces = s.list inBraces ∧
    (runOn p (s.list inBraces)).2.level = p.level ∧
    ∀ p', runOn p (s.list inBraces) = (.ok (), p') →
      (∀ text, s.HasLiteral text → '\n' ∉ text.toList) →
        ∃ os, s.outlines? inBraces = some os ∧
          p' = p.write (String.join ((Outline.allLines os).map (Line.text p))) ∧
          (∀ l ∈ Outline.allLines os, '\n' ∉ l.content.toList) ∧ Closed (Outline.allLines os) := by
  refine ⟨fun ε line failure steady => Stmt.keepsLevel_listBy steady inBraces s p,
    Stmt.listBy_line inBraces s, ?_, ?_⟩
  · rw [← Stmt.listBy_line]
    exact Stmt.keepsLevel_listBy Writing.keepsLevel_line inBraces s p
  · intro p' ran literals
    obtain ⟨os, outlined, added⟩ := Stmt.adds_of_list s ran
    have plain : s.IsPlain := fun e holds =>
      e.newline_not_mem_render fun text literal => literals text ⟨e, holds, literal⟩
    exact ⟨os, outlined, added, Stmt.oneLineEach_of_outlines? s plain outlined,
      Outline.closed_allLines os⟩

/-- A loop around an expression and a block, on a page one level deep. -/
theorem Stmt.listing_layout_whileLoop :
    let s : Stmt := .whileLoop (.ofNat 1) (.block [.expr .prime, .block [.ret .mask]])
    let p : Page := ⟨1, "\t", true, ""⟩
    let p' : Page := ⟨1, "\t", true,
      "\twhile (1) \x7b\n\t\tP;\n\t\t\x7b\n\t\t\treturn MASK;\n\t\t\x7d\n\t\x7d\n"⟩
    (∀ text p, (runOn p (Writing.line text : Writing ListingError Unit)).2.level = p.level) ∧
      runOn p (s.list false) = (.ok (), p') ∧
      (∀ text, s.HasLiteral text → '\n' ∉ text.toList) ∧
      ∃ os, s.outlines? false = some os ∧
        p' = p.write (String.join ((Outline.allLines os).map (Line.text p))) ∧
        (Outline.allLines os).map Line.depth = [0, 1, 1, 2, 1, 0] := by
  intro s p p'
  have ran : runOn p (s.list false) = (.ok (), p') := rfl
  have decimal : s.IsDecimal := ⟨⟨1, rfl⟩, trivial, ⟨trivial, trivial⟩, trivial⟩
  have literals : ∀ text, s.HasLiteral text → '\n' ∉ text.toList :=
    fun _ literal => Stmt.newline_not_mem_of_isDecimal decimal literal
  obtain ⟨os, outlined, written, -, -⟩ := (Stmt.listing_layout s false p).2.2.2 p' ran literals
  refine ⟨Writing.keepsLevel_line, ran, literals, os, outlined, written, ?_⟩
  cases outlined
  rfl

end ArithCircuit
