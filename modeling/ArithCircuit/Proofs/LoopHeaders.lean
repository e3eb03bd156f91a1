import Mathlib.Data.List.Forall2
import ArithCircuit.Proofs.FaithfulListings
import ArithCircuit.Proofs.Faults
import ArithCircuit.Proofs.Registrations

set_option autoImplicit false
set_option relaxedAutoImplicit false

/-!
# Loop headers and listings

A listing fails for two reasons only: the registry is to be described over field constants that are
not valid, or a clause of some loop holds a loop or a `return`. The lowering accepts such clauses, so
what a compiled unit needs to have a listing is a condition on the loops of its source. Main
statements: `Circuit.isOk_listing` and `Node.listed_iff_of_compile`.
-/

namespace ArithCircuit

open Listing
open Lowering
open Writing (runOn)

/-! ### Statements that have a listing -/

mutual

/-- Whether a statement can stand in the header of a loop: it is an expression, or a block of such. -/
def Stmt.fitsHeader : Stmt → Bool
  | .expr _ => true
  | .block body => Stmt.allFitHeader body
  | _ => false

/-- Whether all of some statements can stand in the header of a loop. -/
def Stmt.allFitHeader : List Stmt → Bool
  | [] => true
  | s :: ss => s.fitsHeader && Stmt.allFitHeader ss

end

/-- A clause that is absent needs no place in the header. -/
def Stmt.optionFitsHeader : Option Stmt → Bool
  | none => true
  | some s => s.fitsHeader

mutual

/-- Whether the clauses of all loops of a statement fit in their headers. -/
def Stmt.headersFit : Stmt → Bool
  | .expr _ => true
  | .block body => Stmt.allHeadersFit body
  | .forLoop init _ step body =>
    Stmt.optionFitsHeader init && Stmt.optionFitsHeader step && body.headersFit
  | .whileLoop _ body => body.headersFit
  | .ret _ => true

/-- Whether the clauses of all loops of some statements fit in their headers. -/
def Stmt.allHeadersFit : List Stmt → Bool
  | [] => true
  | s :: ss => s.headersFit && Stmt.allHeadersFit ss

end

def Stmt.optionHeadersFit : Option Stmt → Bool
  | none => true
  | some s => s.headersFit

theorem Stmt.allFitHeader_append (ss ts : List Stmt) :
    Stmt.allFitHeader (ss ++ ts) = (Stmt.allFitHeader ss && Stmt.allFitHeader ts) := by
  induction ss with
  | nil => rfl
  | cons s ss ih => simp only [List.cons_append, Stmt.allFitHeader, ih, Bool.and_assoc]

theorem Stmt.allFitHeader_toList (s : Option Stmt) :
    Stmt.allFitHeader s.toList = Stmt.optionFitsHeader s := by
  cases s <;> simp [Stmt.allFitHeader, Stmt.optionFitsHeader]

theorem Stmt.allHeadersFit_append (ss ts : List Stmt) :
    Stmt.allHeadersFit (ss ++ ts) = (Stmt.allHeadersFit ss && Stmt.allHeadersFit ts) := by
  induction ss with
  | nil => rfl
  | cons s ss ih => simp only [List.cons_append, Stmt.allHeadersFit, ih, Bool.and_assoc]

theorem Stmt.allHeadersFit_toList (s : Option Stmt) :
    Stmt.allHeadersFit s.toList = Stmt.optionHeadersFit s := by
  cases s <;> simp [Stmt.allHeadersFit, Stmt.optionHeadersFit]

theorem Stmt.headersFit_getD (s : Option Stmt) :
    (s.getD (.block [])).headersFit = Stmt.optionHeadersFit s := by
  cases s <;> simp [Stmt.headersFit, Stmt.allHeadersFit, Stmt.optionHeadersFit]

private theorem isOk_bind_map {ε α β γ : Type} (x : Except ε α) (y : Except ε β) (f : α → β → γ) :
    (x >>= fun a => y >>= fun b => pure (f a b)).isOk = (x.isOk && y.isOk) := by
  cases x <;> cases y <;> rfl

mutual

theorem Stmt.isOk_clause : (s : Stmt) → s.clause.isOk = s.fitsHeader
  | .expr _ => rfl
  | .block body => by
    have parts := Stmt.isOk_clauses body
    rw [Stmt.clause, Stmt.fitsHeader, ← parts]
    cases Stmt.clauses body <;> rfl
  | .forLoop .. | .whileLoop .. | .ret .. => rfl

theorem Stmt.isOk_clauses : (ss : List Stmt) → (Stmt.clauses ss).isOk = Stmt.allFitHeader ss
  | [] => rfl
  | s :: ss => by
    have first := Stmt.isOk_clause s
    have rest := Stmt.isOk_clauses ss
    rw [Stmt.clauses, Stmt.allFitHeader, ← first, ← rest]
    exact isOk_bind_map _ _ _

end

theorem isOk_forHeader (init : Option Stmt) (condition : Expr) (step : Option Stmt) :
    (forHeader init condition step).isOk =
      (Stmt.optionFitsHeader init && Stmt.optionFitsHeader step) := by
  have clause : ∀ s, (Stmt.optionClause s).isOk = Stmt.optionFitsHeader s := by
    rintro (_ | s)
    · rfl
    · exact Stmt.isOk_clause s
  rw [forHeader, ← clause init, ← clause step]
  exact isOk_bind_map _ _ _

/-! ### Writing on any page -/

/-- Whether a step of writing succeeds, which does not depend on the page. -/
def Listing.Writing.Settles {ε : Type} (step : Writing ε Unit) (ok : Bool) : Prop :=
  ∀ p, (runOn p step).1.isOk = ok

namespace Listing.Writing

variable {ε : Type} {step step' : Writing ε Unit} {ok ok' : Bool}

theorem settles_pure : Settles (pure () : Writing ε Unit) true := fun _ => rfl

theorem settles_throw (e : ε) : Settles (throw e : Writing ε Unit) false := fun _ => rfl

theorem settles_line (text : String) : Settles (line text : Writing ε Unit) true := fun _ => rfl

theorem settles_blank : Settles (blank : Writing ε Unit) true := fun _ => rfl

theorem settles_comment (text : String) : Settles (comment text : Writing ε Unit) true := fun _ => rfl

theorem Settles.bind (first : Settles step ok) (second : Settles step' ok') :
    Settles (step >>= fun _ => step') (ok && ok') := by
  intro p
  have settled := first p
  rw [runOn_bind]
  rcases ran : runOn p step with ⟨_ | _, p₁⟩ <;> rw [ran] at settled
  · subst settled
    rfl
  · subst settled
    exact second p₁

theorem settles_get {next : Page → Writing ε Unit} (settles : ∀ p, Settles (next p) ok) :
    Settles (get >>= next) ok := fun p => settles p p

theorem Settles.block (inside : Settles step ok) (header : String) :
    Settles (Writing.block header step) ok := by
  intro p
  have settled := inside (p.write (p.indentation ++ openLine header ++ "\n")).indent
  rw [runOn_block]
  rcases ran : runOn (p.write (p.indentation ++ openLine header ++ "\n")).indent step
    with ⟨_ | _, p₁⟩ <;> rw [ran] at settled
  · exact settled
  · exact settled

end Listing.Writing

open Writing (Settles)

mutual

/-- A statement is written exactly if the clauses of all its loops fit in their headers. -/
theorem Stmt.settles_list (inBraces : Bool) :
    (s : Stmt) → Settles (Stmt.list inBraces s) s.headersFit
  | .expr e => Writing.settles_line _
  | .block body => by
    have inside := Stmt.settles_listAll body
    cases inBraces with
    | true => exact inside
    | false => exact inside.block ""
  | .forLoop init condition step body => by
    have inside := Stmt.settles_list true body
    intro p
    have fits := isOk_forHeader init condition step
    have ran : runOn p (ExceptT.mk (pure (forHeader init condition step)) : Writing _ _) =
      (forHeader init condition step, p) := rfl
    rw [Stmt.list, Stmt.headersFit, Writing.runOn_bind, ran, ← fits]
    cases forHeader init condition step with
    | error e => rfl
    | ok header => exact inside.block header p
  | .whileLoop condition body => (Stmt.settles_list true body).block _
  | .ret e => Writing.settles_line _

theorem Stmt.settles_listAll : (ss : List Stmt) → Settles (Stmt.listAll ss) (Stmt.allHeadersFit ss)
  | [] => Writing.settles_pure
  | s :: ss => (Stmt.settles_list false s).bind (Stmt.settles_listAll ss)

end

namespace Circuit

theorem settles_listDefinition (config : Config) (keyword name : String) (d : Definition)
    (registered : Option (List String)) :
    Settles (listDefinition config keyword name d registered) (Stmt.allHeadersFit d.body) := by
  have body : Settles
      (do
        let p ← get
        Writing.block (p.paint keyword .blue ++ " " ++ p.paint name .yellow ++ "(" ++
          commaList d.params ++ ")") (Stmt.listAll d.body)) (Stmt.allHeadersFit d.body) :=
    Writing.settles_get fun _ => (Stmt.settles_listAll d.body).block _
  -- The comments stand in front of what follows them in either branch.
  have commented : ∀ {rest : Writing ListingError Unit} {ok : Bool} (wanted : Bool) (text : String),
      Settles rest ok → Settles (if wanted then do Writing.comment text; rest else rest) ok := by
    intro rest ok wanted text settles
    cases wanted with
    | true => exact (Writing.settles_comment _).bind settles
    | false => exact settles
  unfold listDefinition
  cases registered with
  | none => exact commented _ _ body
  | some params => exact commented _ _ (commented _ _ body)

/-- Whether the header of a listing can be written: the width of the mask is described for valid
field constants only. -/
def describes (config : Config) (c : Circuit) : Bool :=
  !config.verbosity.showsRegistry || c.field.validated.isOk

theorem settles_listHeader (config : Config) (c : Circuit) :
    Settles (c.listHeader config) (c.describes config) := by
  rw [describes]
  apply (Writing.settles_line _).bind
  apply (Writing.settles_line _).bind
  cases config.verbosity.showsRegistry with
  | false => exact Writing.settles_pure
  | true =>
    apply (Writing.settles_comment _).bind
    cases c.field.validated with
    | ok field => exact Writing.settles_comment _
    | error e => exact Writing.settles_throw _

theorem settles_listSections {sections : List (Writing ListingError Unit)} {oks : List Bool}
    (each : List.Forall₂ Settles sections oks) : Settles (listSections sections) (oks.all id) := by
  induction each with
  | nil => exact Writing.settles_pure
  | @cons step ok more oks first rest ih =>
    cases more with
    | nil =>
      cases rest
      rw [List.all_cons, List.all_nil, Bool.and_true]
      exact first
    | cons next more =>
      have separated := Writing.settles_blank.bind ih
      exact first.bind separated

/-- The definitions of a circuit in the order of its listing. -/
def definitions (c : Circuit) : List Definition :=
  c.registry.templates.entries.map Prod.snd ++ c.registry.functions.entries.map Prod.snd

/-- A circuit has a listing exactly if the header, where it is wanted, can be written and the clauses
of all loops fit in their headers. -/
theorem isOk_listing (config : Config) (c : Circuit) :
    (c.listing config).1.isOk = ((!config.header || c.describes config) &&
      c.definitions.all fun d => Stmt.allHeadersFit d.body) := by
  have header : List.Forall₂ Settles (if config.header then [c.listHeader config] else [])
      (if config.header then [c.describes config] else []) := by
    split
    · exact .cons (c.settles_listHeader config) .nil
    · exact .nil
  have bodies : ∀ (keyword : String) (registered : String → Option (List String))
      (m : OrderedMap Definition), List.Forall₂ Settles
        (m.entries.map fun e => listDefinition config keyword e.1 e.2 (registered e.1))
        (m.entries.map fun e => Stmt.allHeadersFit e.2.body) := by
    intro keyword registered m
    simp only [List.forall₂_map_left_iff, List.forall₂_map_right_iff, List.forall₂_same]
    exact fun e _ => settles_listDefinition config keyword e.1 e.2 _
  have templates := bodies "template" (fun _ => none) c.registry.templates
  have functions := bodies "function" c.registry.functionParams.get? c.registry.functions
  have all := settles_listSections (List.rel_append (List.rel_append header templates) functions)
    (Page.ofConfig config)
  rw [listing, sections, all]
  simp only [definitions, List.all_append, List.all_map]
  cases config.header <;> simp [Bool.and_assoc, Function.comp_def]

end Circuit

/-! ### Loops of the source -/

/-- Whether a node is a loop or a `return`. -/
def Node.isControl : Node → Bool
  | .forLoop .. => true
  | .whileLoop .. => true
  | .ret .. => true
  | _ => false

/-- Whether a node can be a clause of a loop that has a listing: neither the node itself nor anything
in the blocks and inclusions that it is made of is a loop or a `return`. -/
def Node.fitsHeader (n : Node) : Bool := (n.statements false).all fun m => !m.isControl

/-- Whether the clauses of a node, if it is a loop with a header, fit in it. -/
def Node.clausesFit : Node → Bool
  | .forLoop _ init _ step _ => init.fitsHeader && step.fitsHeader
  | _ => true

/-- Whether the clauses of all loops of a node, outside definitions in it, fit in their headers. -/
def Node.headersFit (n : Node) : Bool := (n.statements false).all Node.clausesFit

namespace Node

variable {n : Node} {ctx ctx' : Context} {fragment : Fragment}

theorem isControl_of_isSimple (simple : n.isSimple = true)
    (ran : runFrom ctx n.lower = (.ok fragment, ctx')) (plain : ∀ s, fragment ≠ .stmt s) :
    n.isControl = false := by
  cases n
  case ret span value =>
    simp only [lower, runFrom_bind_eq_ok, runFrom_pure_eq_ok] at ran
    obtain ⟨e, _, -, rfl, -⟩ := ran
    exact absurd rfl (plain (.ret e))
  case forLoop | whileLoop => cases simple
  all_goals rfl

theorem headersFit_of_fitsHeader (fits : n.fitsHeader = true) : n.headersFit = true := by
  rw [fitsHeader, List.all_eq_true] at fits
  rw [headersFit, List.all_eq_true]
  intro m member
  have plain := fits m member
  cases m
  case forLoop => cases plain
  all_goals rfl

theorem all_statements_block_cons {p : Node → Bool} (blocks : ∀ span ns, p (.block span ns) = true)
    (span : Span) (n : Node) (ns : List Node) :
    ((Node.block span (n :: ns)).statements false).all p =
      ((n.statements false).all p && ((Node.block span ns).statements false).all p) := by
  simp only [statements, statementsAll, List.all_cons, List.all_append, blocks, Bool.true_and]

/-- A clause fits in the header of a loop exactly if the node that it is made of does. -/
theorem Lowers.optionFitsHeader (lowers : n.Lowers ctx fragment ctx') :
    Stmt.optionFitsHeader fragment.statement? = n.fitsHeader := by
  induction lowers with
  | @simple ctx ctx' n fragment simple ran =>
    rw [fitsHeader, statements_of_isSimple simple, List.all_cons, List.all_nil]
    obtain rfl | ⟨e, rfl⟩ | ⟨span, value, e, rfl, rfl, -⟩ := fragment_of_isSimple simple ran
    · rw [isControl_of_isSimple simple ran nofun]
      rfl
    · rw [isControl_of_isSimple simple ran nofun]
      rfl
    · rfl
  | blockNil => rfl
  | @blockCons ctx ctx₁ ctx' span n ns fragment ss _ _ ihFirst ihRest =>
    have rest : Stmt.allFitHeader ss = (Node.block span ns).fitsHeader := ihRest
    have both : Stmt.allFitHeader (fragment.statement?.toList ++ ss) =
        (n.fitsHeader && (Node.block span ns).fitsHeader) := by
      rw [Stmt.allFitHeader_append, Stmt.allFitHeader_toList, ihFirst, rest]
    rw [fitsHeader, all_statements_block_cons fun _ _ => rfl]
    exact both
  | forLoop | whileLoop | template | function | inclusionNone => rfl
  | inclusionSome _ ih =>
    rw [ih]
    rfl

/-- The clauses of all loops of a statement fit exactly if those of the node that it is made of do. -/
theorem Lowers.optionHeadersFit (lowers : n.Lowers ctx fragment ctx') :
    Stmt.optionHeadersFit fragment.statement? = n.headersFit := by
  induction lowers with
  | @simple ctx ctx' n fragment simple ran =>
    have plain : n.clausesFit = true := by
      cases n
      case forLoop => cases simple
      all_goals rfl
    rw [headersFit, statements_of_isSimple simple, List.all_cons, List.all_nil, plain]
    obtain rfl | ⟨e, rfl⟩ | ⟨span, value, e, rfl, rfl, -⟩ := fragment_of_isSimple simple ran <;> rfl
  | blockNil => rfl
  | @blockCons ctx ctx₁ ctx' span n ns fragment ss _ _ ihFirst ihRest =>
    have rest : Stmt.allHeadersFit ss = (Node.block span ns).headersFit := ihRest
    have both : Stmt.allHeadersFit (fragment.statement?.toList ++ ss) =
        (n.headersFit && (Node.block span ns).headersFit) := by
      rw [Stmt.allHeadersFit_append, Stmt.allHeadersFit_toList, ihFirst, rest]
    rw [headersFit, all_statements_block_cons fun _ _ => rfl]
    exact both
  | @forLoop _ _ _ _ _ span init condition step body f₁ f₂ f₃ c first _ second _ _ _ ihBody =>
    have loop : (Node.forLoop span init condition step body).headersFit =
        (init.fitsHeader && step.fitsHeader &&
          (init.headersFit && step.headersFit && body.headersFit)) := by
      simp only [headersFit, statements, List.all_cons, List.all_append, clausesFit]
    have code : Stmt.headersFit
        (.forLoop f₁.statement? c f₂.statement? (f₃.statement?.getD (.block []))) =
          (init.fitsHeader && step.fitsHeader && body.headersFit) := by
      rw [Stmt.headersFit, first.optionFitsHeader, second.optionFitsHeader, Stmt.headersFit_getD,
        ihBody]
    rw [loop]
    apply code.trans
    -- A clause that fits has no loops whose clauses could fail to.
    cases fits : init.fitsHeader with
    | false => rfl
    | true =>
      cases fits' : step.fitsHeader with
      | false => rfl
      | true => rw [headersFit_of_fitsHeader fits, headersFit_of_fitsHeader fits']; rfl
  | @whileLoop _ _ _ span condition body f c _ _ ihBody =>
    have code : Stmt.headersFit (.whileLoop c (f.statement?.getD (.block []))) = body.headersFit := by
      rw [Stmt.headersFit, Stmt.headersFit_getD, ihBody]
    exact code
  | template | function | inclusionNone => rfl
  | inclusionSome _ ih =>
    rw [ih]
    rfl

end Node

/-- The clauses of the loops of a body fit exactly if those of the loops of its block do. -/
theorem Site.Defines.headersFit {site : Site} {kind : SymbolKind} {name : String} {d : Definition}
    (defines : site.Defines kind name d) {block : Node} (isBody : site.node.body? = some block) :
    Stmt.allHeadersFit d.body = block.headersFit := by
  cases defines with
  | template lowered =>
    cases isBody
    obtain ⟨_, -, inner, -, -⟩ := Node.runFrom_lowerBody_enter.1 lowered
    exact (Node.lowers_of_runFrom block inner).optionHeadersFit
  | function lowered =>
    cases isBody
    obtain ⟨_, -, inner, -, -⟩ := Node.runFrom_lowerBody_enter.1 lowered
    exact (Node.lowers_of_runFrom block inner).optionHeadersFit

theorem Circuit.mem_definitions_iff {c : Circuit} {d : Definition} :
    d ∈ c.definitions ↔ ∃ kind name, c.registry.definition? name kind = some d := by
  simp only [definitions, List.mem_append, List.mem_map]
  constructor
  · rintro (⟨e, member, rfl⟩ | ⟨e, member, rfl⟩)
    · exact ⟨.template, e.1, OrderedMap.get?_eq_some_iff.2 member⟩
    · exact ⟨.function, e.1, OrderedMap.get?_eq_some_iff.2 member⟩
  · rintro ⟨kind, name, found⟩
    cases kind
    case template => exact .inl ⟨(name, d), OrderedMap.get?_eq_some_iff.1 found, rfl⟩
    case function => exact .inr ⟨(name, d), OrderedMap.get?_eq_some_iff.1 found, rfl⟩
    all_goals cases found

/-- A unit that compiles over valid field constants has a listing, whatever the settings, exactly if
no loop in a definition has a clause that holds a loop or a `return`. -/
theorem Node.listed_iff_of_compile {root : Node} {given field : Field} {circuit : Circuit}
    (valid : given.validated = .ok field) (compiled : root.compile field = .ok circuit)
    (config : Config) :
    (∃ text, circuit.listingText config = .ok text) ↔
      ∀ n ∈ root.definitions, ∀ block, n.body? = some block → block.headersFit = true := by
  have described : circuit.describes config = true := by
    obtain ⟨_, _, -, rfl⟩ := runFrom_of_compile compiled
    obtain ⟨rfl, bounds⟩ := Field.validated_eq_ok_iff.1 valid
    have again : field.validated = .ok field := Field.validated_eq_ok_iff.2 ⟨rfl, bounds⟩
    rw [Circuit.describes, again]
    exact Bool.or_true _
  have listed : (∃ text, circuit.listingText config = .ok text) ↔
      ∀ d ∈ circuit.definitions, Stmt.allHeadersFit d.body = true := by
    have outcome := circuit.isOk_listing config
    rw [described, Bool.or_true, Bool.true_and] at outcome
    rw [← List.all_eq_true, ← outcome, Circuit.listingText]
    rcases circuit.listing config with ⟨_ | _, text⟩
    · simp [Except.map, Except.isOk, Except.toBool]
    · simp [Except.map, Except.isOk, Except.toBool]
  rw [listed]
  constructor
  · intro each n member block isBody
    obtain ⟨ctx, kind, name, d, defines, found⟩ := exists_definition_of_compile compiled member
    rw [← defines.headersFit isBody]
    exact each d (Circuit.mem_definitions_iff.2 ⟨kind, name, found⟩)
  · intro each d member
    obtain ⟨kind, name, found⟩ := Circuit.mem_definitions_iff.1 member
    obtain ⟨site, visited, defines⟩ := (definition?_of_compile compiled kind name d).1 found
    have isDefinition : site.node ∈ root.definitions := by
      rw [← map_node_definitionSites root .empty]
      exact List.mem_map_of_mem visited
    obtain ⟨block, isBody⟩ : ∃ block, site.node.body? = some block := by
      cases defines <;> exact ⟨_, rfl⟩
    rw [defines.headersFit isBody]
    exact each site.node isDefinition block isBody

/-- A loop whose header holds a block with a declaration, a store and the definition of a function. -/
theorem Node.listed_iff_of_compile_countingLoop :
    let i : Node := .var .unknown "i" []
    let init : Node := .block .unknown
      [.declare .unknown "VARIABLE" i, .op .unknown "=" [i, .number .unknown 0],
        .function .unknown "g" [] (.block .unknown [.ret .unknown (.number .unknown 1)])]
    let body : Node := .block .unknown []
    Field.bn254.validated = .ok .bn254 ∧
    ∃ circuit, (Node.countingLoop init body).compile .bn254 = .ok circuit ∧
      ∃ text, circuit.listingText .plain = .ok text := by
  intro i init body
  have valid : Field.bn254.validated = .ok .bn254 := by decide +kernel
  have compiled : (Node.countingLoop init body).compile .bn254 = .ok _ := rfl
  refine ⟨valid, _, compiled, (Node.listed_iff_of_compile valid compiled .plain).2 ?_⟩
  decide

/-- A loop whose header holds a loop compiles, but has no listing. -/
theorem Node.not_listed_of_compile_countingLoop :
    let loop : Node := .whileLoop .unknown (.number .unknown 0) (.block .unknown [])
    ∃ circuit, (Node.countingLoop loop (.block .unknown [])).compile .bn254 = .ok circuit ∧
      Field.bn254.validated = .ok .bn254 ∧
      circuit.listingText .plain = .error (.loopClause (.whileLoop (.number "0") (.block []))) :=
  ⟨_, rfl, by decide +kernel, rfl⟩

end ArithCircuit
