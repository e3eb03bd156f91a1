import ArithCircuit.Proofs.Records
import ArithCircuit.Proofs.Written

set_option autoImplicit false
set_option relaxedAutoImplicit false

/-!
# Trees without faults

A tree is whole if no part of it is cut or unreadable. This is what a reader finds out that takes in
the whole value before it looks at the shape. Main statements: `Schema.sound_reader_iff`, and
`Tree.Spells.isWhole`, the grammar spells whole trees only.
-/

namespace ArithCircuit.Json

namespace Tree

mutual

/-- Whether every part of a tree can be read. -/
def isWhole : Tree → Bool
  | array items ending => allWhole items && ending = .closed
  | object members ending => membersWhole members && ending = .closed
  | unreadable => false
  | broken _ => false
  | _ => true

/-- Whether every part of the items of an array can be read. -/
def allWhole : List Tree → Bool
  | [] => true
  | t :: ts => t.isWhole && allWhole ts

/-- Whether every part of the members of an object can be read. -/
def membersWhole : List (Label × Tree) → Bool
  | [] => true
  | (.text _, t) :: ms => t.isWhole && membersWhole ms
  | _ => false

end

theorem allWhole_iff {ts : List Tree} : allWhole ts = true ↔ ∀ t ∈ ts, t.isWhole = true := by
  induction ts with
  | nil => simp [allWhole]
  | cons t ts ih => simp [allWhole, ih]

theorem membersWhole_iff {ms : List (Label × Tree)} :
    membersWhole ms = true ↔ ∀ m ∈ ms, (∃ key, m.1 = .text key) ∧ m.2.isWhole = true := by
  induction ms with
  | nil => simp [membersWhole]
  | cons m ms ih =>
    obtain ⟨_ | _ | _, t⟩ := m
    · simp [membersWhole, ih]
    · simp [membersWhole]
    · simp [membersWhole]

theorem isWhole_array {ts : List Tree} :
    (array ts .closed).isWhole = true ↔ ∀ t ∈ ts, t.isWhole = true := by
  rw [← allWhole_iff]
  simp [isWhole]

theorem isWhole_object {ms : List (Label × Tree)} :
    (object ms .closed).isWhole = true ↔ membersWhole ms = true := by
  simp [isWhole]

mutual

theorem Spells.isWhole {t : Tree} {s : List Char} (spells : t.Spells s) : t.isWhole = true := by
  match spells with
  | .null | .yes | .no | .string _ | .number _ _ | .emptyArray _ | .emptyObject _ => rfl
  | .array _ items => simp [Tree.isWhole, items.allWhole]
  | .object _ members => simp [Tree.isWhole, members.membersWhole]

theorem SpellsItems.allWhole {ts : List Tree} {s : List Char} (spells : SpellsItems ts s) :
    allWhole ts = true := by
  match spells with
  | .last first _ => simp [Tree.allWhole, first.isWhole]
  | .more first _ _ others => simp [Tree.allWhole, first.isWhole, others.allWhole]

theorem SpellsMembers.membersWhole {ms : List (Label × Tree)} {s : List Char}
    (spells : SpellsMembers ms s) : membersWhole ms = true := by
  match spells with
  | .last _ _ _ value _ => simp [Tree.membersWhole, value.isWhole]
  | .more _ _ _ value _ _ others =>
    simp [Tree.membersWhole, value.isWhole, others.membersWhole]

end

end Tree

mutual

theorem Value.isWhole_tree : (v : Value) → v.tree.isWhole = true
  | .null | .bool _ | .number _ | .string _ => rfl
  | .array items => by simp [Value.tree, Tree.isWhole, Value.allWhole_treeItems items]
  | .object members => by simp [Value.tree, Tree.isWhole, Value.membersWhole_treeMembers members]

theorem Value.allWhole_treeItems : (vs : List Value) → Tree.allWhole (Value.treeItems vs) = true
  | [] => rfl
  | v :: vs => by
    simp [Value.treeItems, Tree.allWhole, Value.isWhole_tree v, Value.allWhole_treeItems vs]

theorem Value.membersWhole_treeMembers :
    (ms : List (String × Value)) → Tree.membersWhole (Value.treeMembers ms) = true
  | [] => rfl
  | (_, v) :: ms => by
    simp [Value.treeMembers, Tree.membersWhole, Value.isWhole_tree v,
      Value.membersWhole_treeMembers ms]

end

/-! ### Readers for trees -/

namespace Schema

variable (S : Schema)

/-- A reader for one layer. -/
def ofLayer (layer : Layer (Reader S.Carrier)) : Reader S.Carrier where
  read s := S.readLayer s layer
  skip := layer.skip
  sound := layer.sound

/-- The readers for the members of an object. -/
def readers (ms : List (Label × Tree)) : List (Label × Reader S.Carrier) :=
  ms.map fun m => (m.1, S.reader m.2)

theorem reader_array (ts : List Tree) (ending : Ending) :
    S.reader (.array ts ending) = S.ofLayer (.array (ts.map S.reader) ending) := by
  have items : Tree.foldItems S.ofLayer ts = ts.map S.reader := by
    induction ts with
    | nil => rfl
    | cons t ts ih =>
      rw [Tree.foldItems, ih]
      rfl
  rw [← items]
  rfl

theorem reader_object (ms : List (Label × Tree)) (ending : Ending) :
    S.reader (.object ms ending) = S.ofLayer (.object (S.readers ms) ending) := by
  have members : Tree.foldMembers S.ofLayer ms = S.readers ms := by
    induction ms with
    | nil => rfl
    | cons m ms ih =>
      rw [Tree.foldMembers, ih]
      rfl
  rw [← members]
  rfl

variable {S}

private theorem forM_eq_ok_iff {α : Type} {l : List α} {f : α → Except Fault Unit} :
    l.forM f = .ok () ↔ ∀ a ∈ l, f a = .ok () := by
  induction l with
  | nil => simp [pure, Except.pure]
  | cons a l ih =>
    rw [List.forM_eq_forM, List.forM_cons, List.forall_mem_cons, ← List.forM_eq_forM, ← ih]
    cases f a <;> simp [bind, Except.bind]

private theorem then_eq_ok_iff {x y : Except Fault Unit} :
    (do x; y) = .ok () ↔ x = .ok () ∧ y = .ok () := by
  cases x <;> simp [bind, Except.bind]

private theorem endingFault_eq_ok_iff {ending : Ending} :
    Layer.endingFault ending = .ok () ↔ ending = .closed := by
  cases ending <;> simp [Layer.endingFault]

mutual

/-- A reader that takes in a whole value succeeds exactly on whole trees. -/
theorem sound_reader_iff : (t : Tree) → ((S.reader t).sound = .ok () ↔ t.isWhole = true)
  | .null | .bool _ | .number _ | .string _ => ⟨fun _ => rfl, fun _ => rfl⟩
  | .array ts ending => by
    rw [reader_array, ofLayer, Layer.sound, then_eq_ok_iff, forM_eq_ok_iff, endingFault_eq_ok_iff,
      Tree.isWhole, Bool.and_eq_true, decide_eq_true_eq, ← sound_items_iff ts,
      List.forall_mem_map]
  | .object ms ending => by
    rw [reader_object, ofLayer, Layer.sound, then_eq_ok_iff, forM_eq_ok_iff,
      endingFault_eq_ok_iff, Tree.isWhole, Bool.and_eq_true, decide_eq_true_eq,
      ← sound_members_iff ms, readers, List.forall_mem_map]
    apply and_congr_left'
    apply forall₂_congr
    rintro ⟨label, t⟩ _
    cases label <;> simp [bind, Except.bind]
  | .unreadable => ⟨nofun, nofun⟩
  | .broken _ => ⟨nofun, nofun⟩

theorem sound_items_iff :
    (ts : List Tree) → ((∀ t ∈ ts, (S.reader t).sound = .ok ()) ↔ Tree.allWhole ts = true)
  | [] => by simp [Tree.allWhole]
  | t :: ts => by
    simp only [List.forall_mem_cons, Tree.allWhole, Bool.and_eq_true, sound_reader_iff t,
      sound_items_iff ts]

theorem sound_members_iff :
    (ms : List (Label × Tree)) →
      ((∀ m ∈ ms, (∃ key, m.1 = .text key) ∧ (S.reader m.2).sound = .ok ()) ↔
        Tree.membersWhole ms = true)
  | [] => by simp [Tree.membersWhole]
  | (label, t) :: ms => by
    simp only [List.forall_mem_cons, sound_reader_iff t, sound_members_iff ms]
    cases label <;> simp [Tree.membersWhole]

end

mutual

/-- A whole tree can be passed over. -/
theorem skip_reader : (t : Tree) → t.isWhole = true → (S.reader t).skip = .ok ()
  | .null, _ | .bool _, _ | .number _, _ | .string _, _ => rfl
  | .array ts ending, whole => by
    rw [Tree.isWhole, Bool.and_eq_true, decide_eq_true_eq] at whole
    rw [reader_array, ofLayer, Layer.skip, then_eq_ok_iff, forM_eq_ok_iff, endingFault_eq_ok_iff,
      List.forall_mem_map]
    exact ⟨skip_items ts whole.1, whole.2⟩
  | .object ms ending, whole => by
    rw [Tree.isWhole, Bool.and_eq_true, decide_eq_true_eq] at whole
    rw [reader_object, ofLayer, Layer.skip, then_eq_ok_iff, forM_eq_ok_iff,
      endingFault_eq_ok_iff, readers, List.forall_mem_map]
    refine ⟨?_, whole.2⟩
    intro m member
    obtain ⟨⟨key, text⟩, skipped⟩ := skip_members ms whole.1 m member
    rw [text]
    exact skipped

theorem skip_items :
    (ts : List Tree) → Tree.allWhole ts = true → ∀ t ∈ ts, (S.reader t).skip = .ok ()
  | [], _ => by simp
  | t :: ts, whole => by
    rw [Tree.allWhole, Bool.and_eq_true] at whole
    exact List.forall_mem_cons.2 ⟨skip_reader t whole.1, skip_items ts whole.2⟩

theorem skip_members :
    (ms : List (Label × Tree)) → Tree.membersWhole ms = true →
      ∀ m ∈ ms, (∃ key, m.1 = .text key) ∧ (S.reader m.2).skip = .ok ()
  | [], _ => by simp
  | (.text key, t) :: ms, whole => by
    rw [Tree.membersWhole, Bool.and_eq_true] at whole
    exact List.forall_mem_cons.2
      ⟨⟨⟨key, rfl⟩, skip_reader t whole.1⟩, skip_members ms whole.2⟩

end

/-- The members of a whole object are fields of a record or can be passed over. -/
theorem passes_readers {ms : List (Label × Tree)} (whole : Tree.membersWhole ms = true)
    (fs : List (Field S.Carrier)) : ∀ member ∈ S.readers ms, Record.Passes fs member := by
  rw [readers, List.forall_mem_map]
  rintro ⟨label, t⟩ member
  obtain ⟨⟨key, rfl⟩, skipped⟩ := skip_members (S := S) ms whole _ member
  exact fun _ => skipped

/-- A record is read from a whole object exactly if its fields have values there. -/
theorem ofMembers_readers_iff {α : Type} {fs : List (Field S.Carrier)}
    {build : Record.Builder α fs} (distinct : (fs.map Field.name).Nodup)
    {ms : List (Label × Tree)} (whole : Tree.membersWhole ms = true) {a : α} :
    Record.ofMembers fs build (S.readers ms) .closed = .ok a ↔
      Record.gather (S.readers ms) fs build = some a := by
  rw [Record.ofMembers_eq_ok_iff distinct]
  exact ⟨And.right, fun gathered => ⟨passes_readers whole fs, gathered⟩⟩

/-- A text is read if its tree is and nothing follows. -/
theorem read_eq_ok_iff {s : S.Slot} {text : String} {a : S.Carrier s} :
    S.read s text = .ok a ↔
      (S.reader (Document.ofText text).root).read s = .ok a ∧
        (Document.ofText text).isAlone = true := by
  rw [read, Result.bind_eq_ok_iff]
  constructor
  · rintro ⟨a', read, ended⟩
    split at ended
    · cases ended
      exact ⟨read, by assumption⟩
    · cases ended
  · rintro ⟨read, alone⟩
    exact ⟨a, read, by rw [if_pos alone]⟩

end Schema

end ArithCircuit.Json
