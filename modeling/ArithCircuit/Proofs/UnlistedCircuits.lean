import ArithCircuit.Proofs.LoopHeaders

set_option autoImplicit false
set_option relaxedAutoImplicit false

/-!
# Circuits without a listing

There are two reasons for which a circuit, compiled or read from an artifact, cannot be listed: its
field constants are to be described and are no valid ones, or a clause of some loop in a definition
holds a loop or a `return`. Nothing else that stands in a circuit matters. Main statement:
`Circuit.unlisted_iff`.
-/

namespace ArithCircuit

open Listing

namespace Stmt

/-! ### Statements in statements -/

/-- The clauses of a statement, if it is a loop with a header. -/
def headerClauses : Stmt → List Stmt
  | .forLoop init _ step _ => init.toList ++ step.toList
  | _ => []

/-- The statements right below a statement. -/
def children : Stmt → List Stmt
  | .block body => body
  | .forLoop init _ step body => init.toList ++ step.toList ++ [body]
  | .whileLoop _ body => [body]
  | _ => []

/-- The statements in a statement, at any depth. -/
inductive Contains (root : Stmt) : Stmt → Prop where
  | self : Contains root root
  | child {s t : Stmt} : Contains root s → t ∈ s.children → Contains root t

/-- The statements that a clause is made of: nested blocks count for what is in them. -/
inductive Shows : Stmt → Stmt → Prop where
  | self (s : Stmt) : Shows s s
  | block {body : List Stmt} {s t : Stmt} : s ∈ body → Shows s t → Shows (.block body) t

/-- Whether a statement is a loop or a `return`. -/
def isControl : Stmt → Bool
  | .forLoop .. | .whileLoop .. | .ret .. => true
  | _ => false

variable {s t : Stmt}

theorem Contains.eq_or_below (inside : s.Contains t) : t = s ∨ ∃ m ∈ s.children, m.Contains t := by
  induction inside with
  | self => exact .inl rfl
  | child _ member ih =>
    rcases ih with rfl | ⟨m, first, below⟩
    · exact .inr ⟨_, member, .self⟩
    · exact .inr ⟨m, first, below.child member⟩

theorem Contains.of_mem {m : Stmt} (member : m ∈ s.children) (inside : m.Contains t) :
    s.Contains t := by
  induction inside with
  | self => exact .child .self member
  | child _ further ih => exact ih.child further

/-! ### Clauses that fit in a header -/

theorem allFitHeader_iff {ss : List Stmt} :
    Stmt.allFitHeader ss = true ↔ ∀ s ∈ ss, s.fitsHeader = true := by
  induction ss with
  | nil => simp [Stmt.allFitHeader]
  | cons s ss ih => simp [Stmt.allFitHeader, ih]

theorem allHeadersFit_iff {ss : List Stmt} :
    Stmt.allHeadersFit ss = true ↔ ∀ s ∈ ss, s.headersFit = true := by
  induction ss with
  | nil => simp [Stmt.allHeadersFit]
  | cons s ss ih => simp [Stmt.allHeadersFit, ih]

/-- In a clause that fits in a header everything fits, whatever it lies in. -/
theorem fitsHeader_of_contains (fits : s.fitsHeader = true) (inside : s.Contains t) :
    t.fitsHeader = true := by
  induction inside with
  | self => exact fits
  | @child m t _ member ih =>
    cases m with
    | block body => exact allFitHeader_iff.1 ih t member
    | expr e => cases member
    | forLoop | whileLoop | ret => cases ih

theorem isControl_of_fitsHeader (fits : s.fitsHeader = true) : s.isControl = false := by
  cases s with
  | expr | block => rfl
  | forLoop | whileLoop | ret => cases fits

theorem Shows.contains (shows : s.Shows t) : s.Contains t := by
  induction shows with
  | self => exact .self
  | block member _ ih => exact .of_mem member ih

/-- A clause that does not fit in a header shows a loop or a `return`. -/
theorem exists_shows_of_fitsHeader : (s : Stmt) → s.fitsHeader = false →
    ∃ t, s.Shows t ∧ t.isControl = true
  | .expr e, unfit => by cases unfit
  | .block body, unfit => by
    have some : ¬ ∀ m ∈ body, m.fitsHeader = true := by
      intro all
      rw [Stmt.fitsHeader, allFitHeader_iff.2 all] at unfit
      cases unfit
    obtain ⟨m, member, unfitPart⟩ : ∃ m, ∃ _ : m ∈ body, m.fitsHeader = false := by
      simpa using some
    obtain ⟨t, shows, control⟩ := exists_shows_of_fitsHeader m unfitPart
    exact ⟨t, .block member shows, control⟩
  | .forLoop init condition step body, _ => ⟨_, .self _, rfl⟩
  | .whileLoop condition body, _ => ⟨_, .self _, rfl⟩
  | .ret e, _ => ⟨_, .self _, rfl⟩

theorem fitsHeader_iff : s.fitsHeader = true ↔ ∀ t, s.Shows t → t.isControl = false := by
  constructor
  · intro fits t shows
    exact isControl_of_fitsHeader (fitsHeader_of_contains fits shows.contains)
  · intro plain
    by_contra unfit
    obtain ⟨t, shows, control⟩ := exists_shows_of_fitsHeader s (by simpa using unfit)
    rw [plain t shows] at control
    cases control

/-! ### Loops whose clauses fit -/

/-- Whether the clauses of a statement, if it is a loop with a header, fit in it. -/
def clausesFit (s : Stmt) : Bool := s.headerClauses.all Stmt.fitsHeader

/-- A clause that fits holds no loop whose clauses could fail to. -/
theorem clausesFit_of_fitsHeader (fits : s.fitsHeader = true) (inside : s.Contains t) :
    t.clausesFit = true := by
  have plain := isControl_of_fitsHeader (fitsHeader_of_contains fits inside)
  cases t with
  | forLoop => cases plain
  | expr | block | whileLoop | ret => rfl

/-- The clauses of all loops fit in their headers exactly if those of each loop in the statement do,
wherever it lies. -/
theorem headersFit_iff : (s : Stmt) →
    (s.headersFit = true ↔ ∀ t, s.Contains t → t.clausesFit = true)
  | .expr e => by
    refine ⟨fun _ t inside => ?_, fun _ => rfl⟩
    obtain rfl | ⟨m, member, -⟩ := inside.eq_or_below
    · rfl
    · cases member
  | .ret e => by
    refine ⟨fun _ t inside => ?_, fun _ => rfl⟩
    obtain rfl | ⟨m, member, -⟩ := inside.eq_or_below
    · rfl
    · cases member
  | .block body => by
    rw [Stmt.headersFit, allHeadersFit_iff]
    constructor
    · intro each t inside
      obtain rfl | ⟨m, member, below⟩ := inside.eq_or_below
      · rfl
      · have member : m ∈ body := member
        exact (headersFit_iff m).1 (each m member) t below
    · intro all m member
      exact (headersFit_iff m).2 fun t below => all t (.of_mem member below)
  | .whileLoop condition body => by
    rw [Stmt.headersFit, headersFit_iff body]
    constructor
    · intro each t inside
      obtain rfl | ⟨m, member, below⟩ := inside.eq_or_below
      · rfl
      · cases List.mem_singleton.1 member
        exact each t below
    · intro all t below
      exact all t (.of_mem (.head _) below)
  | .forLoop init condition step body => by
    have own : (Stmt.forLoop init condition step body).clausesFit =
        (Stmt.optionFitsHeader init && Stmt.optionFitsHeader step) := by
      cases init <;> cases step <;> simp [clausesFit, headerClauses, Stmt.optionFitsHeader]
    rw [Stmt.headersFit, ← own, Bool.and_eq_true, headersFit_iff body]
    constructor
    · rintro ⟨fit, each⟩ t inside
      obtain rfl | ⟨m, member, below⟩ := inside.eq_or_below
      · exact fit
      · rcases List.mem_append.1 member with clause | member
        · exact clausesFit_of_fitsHeader (List.all_eq_true.1 fit m clause) below
        · cases List.mem_singleton.1 member
          exact each t below
    · intro all
      have last : body ∈ (Stmt.forLoop init condition step body).children :=
        List.mem_append_right _ (.head _)
      exact ⟨all _ .self, fun t below => all t (.of_mem last below)⟩

/-- Some loop in a statement has a clause that shows a loop or a `return`. -/
def HasCrowdedHeader (s : Stmt) : Prop :=
  ∃ loop, s.Contains loop ∧ ∃ clause ∈ loop.headerClauses, ∃ t, clause.Shows t ∧ t.isControl = true

theorem headersFit_eq_false_iff : s.headersFit = false ↔ s.HasCrowdedHeader := by
  have all : s.headersFit = true ↔ ∀ loop, s.Contains loop → ∀ clause ∈ loop.headerClauses,
      ∀ t, clause.Shows t → t.isControl = false := by
    simp only [headersFit_iff, clausesFit, List.all_eq_true, fitsHeader_iff]
  rw [← Bool.not_eq_true, all, HasCrowdedHeader]
  push Not
  simp only [ne_eq, Bool.not_eq_false]

end Stmt

namespace Circuit

theorem describes_eq_false_iff {config : Config} {c : Circuit} :
    c.describes config = false ↔
      config.verbosity = .verbose ∧ (c.field.prime ≤ 1 ∨ c.field.mask = 0) := by
  have registry : config.verbosity.showsRegistry = true ↔ config.verbosity = .verbose := by
    cases config.verbosity <;> simp [Verbosity.showsRegistry]
  have valid : c.field.validated.isOk = false ↔ c.field.prime ≤ 1 ∨ c.field.mask = 0 := by
    unfold Field.validated
    split
    · next small => simp [Except.isOk, Except.toBool, small]
    · next large =>
      split
      · next zero => simp [Except.isOk, Except.toBool, zero]
      · next nonzero => simp [Except.isOk, Except.toBool, large, nonzero]
  rw [describes, Bool.or_eq_false_iff, Bool.not_eq_false', registry, valid]

/-- A circuit has no listing, neither written out nor as a text, exactly if the header is wanted with
all details and the field constants are not valid, or a loop in the body of some definition has a
clause that shows a loop or a `return`. -/
theorem unlisted_iff (config : Config) (c : Circuit) :
    ((∃ e, (c.emit config .text).1 = .error e) ↔
      (config.header = true ∧ config.verbosity = .verbose ∧
        (c.field.prime ≤ 1 ∨ c.field.mask = 0)) ∨
      ∃ d ∈ c.definitions, ∃ s ∈ d.body, s.HasCrowdedHeader) ∧
    ((∃ e, c.listingText config = .error e) ↔ ∃ e, (c.emit config .text).1 = .error e) := by
  have fails : ∀ {α : Type} (x : Except ListingError α), (∃ e, x = .error e) ↔ x.isOk = false := by
    intro α x
    cases x <;> simp [Except.isOk, Except.toBool]
  have body : ∀ d : Definition, Stmt.allHeadersFit d.body = false ↔
      ∃ s ∈ d.body, s.HasCrowdedHeader := by
    intro d
    simp only [← Bool.not_eq_true, Stmt.allHeadersFit_iff, ← Stmt.headersFit_eq_false_iff]
    push Not
    rfl
  have bodies : (c.definitions.all fun d => Stmt.allHeadersFit d.body) = false ↔
      ∃ d ∈ c.definitions, ∃ s ∈ d.body, s.HasCrowdedHeader := by
    simp only [List.all_eq_false, Bool.not_eq_true, body]
  constructor
  · rw [fails, emit, isOk_listing, Bool.and_eq_false_iff, Bool.or_eq_false_iff,
      Bool.not_eq_false', describes_eq_false_iff, bodies]
  · rw [fails, fails, listingText, emit]
    rcases c.listing config with ⟨_ | _, text⟩ <;> rfl

end Circuit

end ArithCircuit
