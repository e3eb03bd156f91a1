import ArithCircuit.Proofs.NodeStorage
import Mathlib.Data.List.Nodup
import Mathlib.Logic.Relation

set_option autoImplicit false
set_option relaxedAutoImplicit false

/-!
# Other texts of a source tree

A source tree can be stored in many ways: the members of an object come in any order, members that
nobody reads are passed over, and a member that only repeats its default may be left out. `Change`
says what may be changed at one place of a text, at any depth; `read_of_change` says that one change
keeps what is read, and `Node.ofText_of_changes` that any number of them does. Values have to be
legible even where nobody reads them: `Node.ofText_overflowingMember`.
-/

namespace ArithCircuit.Json.Schema

/-! ### What the fields of an object keep -/

variable {S : Schema} {fs : List (Field S.Carrier)} {f : Field S.Carrier}
  {before after ms ms' : List (Label × Tree)} {t t' : Tree}

/-- The fields that have a value among some members have it among others. -/
def Keeps (S : Schema) (fs : List (Field S.Carrier)) (ms ms' : List (Label × Tree)) : Prop :=
  ∀ f ∈ fs, ∀ value, f.value? (S.readers ms) = some value → f.value? (S.readers ms') = some value

theorem readers_append (before : List (Label × Tree)) (label : Label) (t : Tree)
    (after : List (Label × Tree)) :
    S.readers (before ++ (label, t) :: after) =
      S.readers before ++ (label, S.reader t) :: S.readers after := by
  rw [readers, List.map_append, List.map_cons]
  rfl

theorem keeps_of_perm (permuted : ms.Perm ms') : S.Keeps fs ms ms' := by
  intro f _ value given
  have same := Field.value?_perm (permuted.map fun m => (m.1, S.reader m.2)) f
  exact same.symm.trans given

theorem keeps_of_insert {key : String} (other : key ∉ fs.map Field.name) (t : Tree) :
    S.Keeps fs (before ++ after) (before ++ (.text key, t) :: after) := by
  intro f member value given
  have different : key ≠ f.name := by
    rintro rfl
    exact other (List.mem_map_of_mem member)
  rw [readers_append, Field.value?_of_other different, readers, readers, ← List.map_append]
  exact given

/-- A member can go if its field is read without it as it is read from it. -/
theorem keeps_of_remove (distinct : (fs.map Field.name).Nodup) (member : f ∈ fs)
    (spare : ∀ value, (S.reader t).read f.slot = .ok value → f.absence.value? = some value) :
    S.Keeps fs (before ++ (.text f.name, t) :: after) (before ++ after) := by
  intro g member' value given
  rw [readers_append] at given
  have split : S.readers (before ++ after) = S.readers before ++ S.readers after := List.map_append
  by_cases same : g.name = f.name
  · obtain rfl := List.inj_on_of_nodup_map distinct member' member same
    obtain ⟨alone, read⟩ := Field.value?_self_iff.1 given
    rw [Field.value?, split, alone]
    exact spare value read
  · rw [Field.value?_of_other (Ne.symm same)] at given
    rw [split]
    exact given

theorem keeps_of_member (distinct : (fs.map Field.name).Nodup) (member : f ∈ fs)
    (inner : ∀ value, (S.reader t).read f.slot = .ok value →
      (S.reader t').read f.slot = .ok value) :
    S.Keeps fs (before ++ (.text f.name, t) :: after) (before ++ (.text f.name, t') :: after) := by
  intro g member' value given
  rw [readers_append] at given ⊢
  by_cases same : g.name = f.name
  · obtain rfl := List.inj_on_of_nodup_map distinct member' member same
    obtain ⟨alone, read⟩ := Field.value?_self_iff.1 given
    exact Field.value?_self_iff.2 ⟨alone, inner value read⟩
  · rw [Field.value?_of_other (Ne.symm same)] at given ⊢
    exact given

/-- A list keeps its items if one of them is read as before. -/
theorem asList_of_item {item : S.Slot} {before after : List Tree}
    (inner : ∀ a, (S.reader t).read item = .ok a → (S.reader t').read item = .ok a)
    {as : List (S.Carrier item)}
    (read : Layer.asList item (.array ((before ++ t :: after).map S.reader) .closed) = .ok as) :
    Layer.asList item (.array ((before ++ t' :: after).map S.reader) .closed) = .ok as := by
  obtain ⟨_, items, ⟨⟩⟩ := Result.bind_eq_ok_iff.1 read
  refine Result.bind_eq_ok_iff.2 ⟨as, ?_, rfl⟩
  rw [List.map_append, List.map_cons, List.mapM_append, List.mapM_cons] at items ⊢
  obtain ⟨firsts, read, items⟩ := Result.bind_eq_ok_iff.1 items
  refine Result.bind_eq_ok_iff.2 ⟨firsts, read, ?_⟩
  obtain ⟨rest, read, items⟩ := Result.bind_eq_ok_iff.1 items
  obtain ⟨a, changed, read⟩ := Result.bind_eq_ok_iff.1 read
  refine Result.bind_eq_ok_iff.2 ⟨rest, ?_, items⟩
  exact Result.bind_eq_ok_iff.2 ⟨a, inner a changed, read⟩

end ArithCircuit.Json.Schema

namespace ArithCircuit

open Json (Value Schema Label Tree Result)

namespace Node.Stored

/-! ### Changes -/

/-- The value of a `type` member names a kind, by its word or by its number. -/
inductive Names : Tree → NodeKind → Prop where
  | word (kind : NodeKind) : Names (.string kind.tag) kind
  | index {i : Nat} {kind : NodeKind} : NodeKind.all[i]? = some kind →
      Names (.number (.natural i)) kind

/-- The members of an object that are read at a place: those of the kind of a node, and the two of a
reference. -/
inductive Holds : Slot → List (Label × Tree) → List (Json.Field Carrier) → Prop where
  | node {ms : List (Label × Tree)} {t : Tree} {kind : NodeKind} :
      (.text "type", t) ∈ ms → Names t kind → Holds .node ms (membersOf kind)
  | reference {ms : List (Label × Tree)} : Holds .reference ms referenceFields

/-- A member that repeats what holds without it: a zero in a span, an empty list of selectors,
arguments or parameters, and no file or contents of an inclusion. -/
inductive Repeats : Json.Field Carrier → Tree → Prop where
  | zero (name : String) : Repeats (defaulted name .word32 (0 : UInt32)) (.number (.natural 0))
  | noNodes (name : String) : Repeats (defaulted name .nodes ([] : List Node)) (.array [] .closed)
  | noTexts (name : String) : Repeats (defaulted name .texts ([] : List String)) (.array [] .closed)
  | noFile (name : String) : Repeats (defaulted name .file (none : Option String)) .null
  | noNode (name : String) : Repeats (defaulted name .splice (none : Option Node)) .null

/-- One change of a stored text, in a part that is read at a place. -/
inductive Change : Slot → Tree → Tree → Prop where
  | permute {s : Slot} {ms ms' : List (Label × Tree)} {fs : List (Json.Field Carrier)} :
      Holds s ms fs → ms.Perm ms' → Change s (.object ms .closed) (.object ms' .closed)
  /-- Any value is put under a name that is not read. -/
  | insert {s : Slot} {before after : List (Label × Tree)} {fs : List (Json.Field Carrier)}
      {key : String} {t : Tree} : Holds s (before ++ after) fs → key ∉ fs.map Json.Field.name →
      Change s (.object (before ++ after) .closed)
        (.object (before ++ (.text key, t) :: after) .closed)
  | remove {s : Slot} {before after : List (Label × Tree)} {fs : List (Json.Field Carrier)}
      {f : Json.Field Carrier} {t : Tree} : Holds s (before ++ (.text f.name, t) :: after) fs →
      f ∈ fs → Repeats f t →
      Change s (.object (before ++ (.text f.name, t) :: after) .closed)
        (.object (before ++ after) .closed)
  /-- A change inside of a member. -/
  | member {s : Slot} {before after : List (Label × Tree)} {fs : List (Json.Field Carrier)}
      {f : Json.Field Carrier} {t t' : Tree} : Holds s (before ++ (.text f.name, t) :: after) fs →
      f ∈ fs → Change f.slot t t' →
      Change s (.object (before ++ (.text f.name, t) :: after) .closed)
        (.object (before ++ (.text f.name, t') :: after) .closed)
  /-- A change inside of a node in a list. -/
  | item {before after : List Tree} {t t' : Tree} : Change .node t t' →
      Change .nodes (.array (before ++ t :: after) .closed) (.array (before ++ t' :: after) .closed)
  /-- A change inside of contents that may be absent. -/
  | splice {t t' : Tree} : Change .node t t' → Change .splice t t'
  /-- A change inside of the selectors of a reference that is given as an array. -/
  | selectors {name t t' : Tree} {more : List Tree} : Change .nodes t t' →
      Change .reference (.array (name :: t :: more) .closed) (.array (name :: t' :: more) .closed)

/-! ### Trees without faults -/

/-- A tree was without faults before a change if it is so after it. -/
theorem Change.isWhole {s : Slot} {t t' : Tree} (change : Change s t t')
    (whole : t'.isWhole = true) : t.isWhole = true := by
  induction change with
  | permute _ permuted =>
    simp only [Tree.isWhole_object, Tree.membersWhole_iff] at whole ⊢
    exact fun m member => whole m (permuted.mem_iff.1 member)
  | insert _ _ =>
    simp only [Tree.isWhole_object, Tree.membersWhole_iff, List.forall_mem_append,
      List.forall_mem_cons] at whole ⊢
    exact ⟨whole.1, whole.2.2⟩
  | @remove _ _ _ _ f t _ _ repeats =>
    have spare : t.isWhole = true := by cases repeats <;> rfl
    simp only [Tree.isWhole_object, Tree.membersWhole_iff, List.forall_mem_append,
      List.forall_mem_cons] at whole ⊢
    exact ⟨whole.1, ⟨⟨f.name, rfl⟩, spare⟩, whole.2⟩
  | member _ _ _ ih =>
    simp only [Tree.isWhole_object, Tree.membersWhole_iff, List.forall_mem_append,
      List.forall_mem_cons] at whole ⊢
    exact ⟨whole.1, ⟨whole.2.1.1, ih whole.2.1.2⟩, whole.2.2⟩
  | item _ ih =>
    simp only [Tree.isWhole_array, List.forall_mem_append, List.forall_mem_cons] at whole ⊢
    exact ⟨whole.1, ih whole.2.1, whole.2.2⟩
  | splice _ ih => exact ih whole
  | selectors _ ih =>
    simp only [Tree.isWhole_array, List.forall_mem_cons] at whole ⊢
    exact ⟨whole.1, ih whole.2.1, whole.2.2⟩

/-! ### One change -/

theorem Holds.nodup {s : Slot} {ms : List (Label × Tree)} {fs : List (Json.Field Carrier)}
    (holds : Holds s ms fs) : (fs.map Json.Field.name).Nodup := by
  cases holds with
  | node => exact nodup_membersOf _
  | reference => decide

theorem read_of_names {t : Tree} {kind : NodeKind} (names : Names t kind) :
    (schema.reader t).read .kind = .ok kind := by
  cases names with
  | word => cases kind <;> rfl
  | @index i _ known =>
    have read : (schema.reader (.number (.natural i))).read .kind = asKind (.number (.natural i)) := rfl
    rw [read, asKind, known]
    rfl

/-- The kind that an object names is the kind that is read from it. -/
theorem kind_eq_of_names {ms : List (Label × Tree)} {t : Tree} {kind kind' : NodeKind}
    (given : (.text "type", t) ∈ ms) (names : Names t kind)
    (gathered : Json.Record.gather (schema.readers ms) kindFields (fun kind : NodeKind => kind) =
      some kind') : kind' = kind := by
  obtain ⟨before, after, rfl⟩ := List.append_of_mem given
  obtain ⟨value, found, built⟩ := Option.bind_eq_some_iff.1 gathered
  rw [Schema.readers_append] at found
  obtain ⟨-, read⟩ := Json.Field.value?_self_iff.1 found
  have same := Except.ok.inj (read.symm.trans (read_of_names names))
  exact (Option.some.inj built).symm.trans same

/-- What is read from an object depends on the values of its fields alone. -/
theorem read_of_keeps {s : Slot} {ms ms' : List (Label × Tree)} {fs : List (Json.Field Carrier)}
    (holds : Holds s ms fs) (whole : Tree.membersWhole ms' = true)
    (keeps : schema.Keeps fs ms ms') {a : Carrier s}
    (read : (schema.reader (.object ms .closed)).read s = .ok a) :
    (schema.reader (.object ms' .closed)).read s = .ok a := by
  cases holds with
  | @node _ t kind given names =>
    obtain ⟨-, kind', make, span, first, second, third, made⟩ := read_node_iff.1 read
    obtain rfl := kind_eq_of_names given names first
    refine read_node_iff.2 ⟨whole, kind', make, span, ?_, ?_, ?_, made⟩
    · refine Json.Record.gather_mono ?_ first
      intro f member
      exact keeps f (List.mem_append_left _ member)
    · refine Json.Record.gather_mono ?_ second
      intro f member
      exact keeps f (List.mem_append_right _ (List.mem_append_left _ member))
    · refine Json.Record.gather_mono ?_ third
      intro f member
      exact keeps f (List.mem_append_right _ (List.mem_append_right _ member))
  | reference =>
    have layer : ∀ ms, (schema.reader (.object ms .closed)).read .reference =
        Json.Record.ofMembers referenceFields Reference.mk (schema.readers ms) .closed := by
      intro ms
      rw [Schema.reader_object]
      rfl
    have distinct : (referenceFields.map Json.Field.name).Nodup := by decide
    have gathered := ((Json.Record.ofMembers_eq_ok_iff distinct).1 ((layer ms).symm.trans read)).2
    have gathered' := Json.Record.gather_mono keeps gathered
    exact (layer ms').trans ((Schema.ofMembers_readers_iff distinct whole).2 gathered')

/-- A member that repeats what holds without it can go. -/
theorem Repeats.spare {f : Json.Field Carrier} {t : Tree} (repeats : Repeats f t) :
    ∀ value, (schema.reader t).read f.slot = .ok value → f.absence.value? = some value := by
  intro value read
  cases repeats with
  | zero | noNodes | noTexts | noFile | noNode => exact congrArg some (Except.ok.inj read)

/-- Where contents may be absent, an object is read as a node. -/
theorem read_splice_iff {ms : List (Label × Tree)} {n : Option Node} :
    (schema.reader (.object ms .closed)).read .splice = .ok n ↔
      ∃ m, (schema.reader (.object ms .closed)).read .node = .ok m ∧ some m = n := by
  have layer : (schema.reader (.object ms .closed)).read .splice =
      Except.map some ((schema.reader (.object ms .closed)).read .node) := by
    rw [Schema.reader_object]
    rfl
  rw [layer]
  exact Result.map_eq_ok_iff

/-- A reference in an array is its name and its selectors, and nothing else. -/
theorem read_reference_array_iff {name selectors : Tree} {more : List Tree} {r : Reference} :
    (schema.reader (.array (name :: selectors :: more) .closed)).read .reference = .ok r ↔
      (schema.reader name).read .text = .ok r.name ∧
        (schema.reader selectors).read .nodes = .ok r.selectors ∧ more = [] := by
  rw [Schema.reader_array]
  constructor
  · intro read
    obtain ⟨word, first, read⟩ := Result.bind_eq_ok_iff.1 read
    obtain ⟨ns, second, read⟩ := Result.bind_eq_ok_iff.1 read
    obtain ⟨_, ended, made⟩ := Result.bind_eq_ok_iff.1 read
    cases made
    cases more with
    | nil => exact ⟨first, second, rfl⟩
    | cons => cases ended
  · rintro ⟨first, second, rfl⟩
    refine Result.bind_eq_ok_iff.2 ⟨r.name, first, ?_⟩
    exact Result.bind_eq_ok_iff.2 ⟨r.selectors, second, rfl⟩

theorem Change.exists_objects {t t' : Tree} (change : Change .node t t') :
    ∃ ms ms', t = .object ms .closed ∧ t' = .object ms' .closed := by
  cases change with
  | permute | insert | remove | member => exact ⟨_, _, rfl, rfl⟩

/-- One change keeps what is read. -/
theorem read_of_change {s : Slot} {t t' : Tree} (change : Change s t t')
    (whole : t'.isWhole = true) :
    ∀ a, (schema.reader t).read s = .ok a → (schema.reader t').read s = .ok a := by
  induction change with
  | permute holds permuted =>
    intro a read
    rw [Tree.isWhole_object] at whole
    exact read_of_keeps holds whole (Schema.keeps_of_perm permuted) read
  | @insert s before after fs key t holds other =>
    intro a read
    rw [Tree.isWhole_object] at whole
    exact read_of_keeps holds whole (Schema.keeps_of_insert other t) read
  | remove holds member repeats =>
    intro a read
    rw [Tree.isWhole_object] at whole
    exact read_of_keeps holds whole (Schema.keeps_of_remove holds.nodup member repeats.spare) read
  | @member s before after fs f t t' holds member change ih =>
    intro a read
    rw [Tree.isWhole_object] at whole
    have inner : t'.isWhole = true := by
      rw [Tree.membersWhole_iff, List.forall_mem_append, List.forall_mem_cons] at whole
      exact whole.2.1.2
    exact read_of_keeps holds whole (Schema.keeps_of_member holds.nodup member (ih inner)) read
  | @item before after t t' change ih =>
    intro as read
    have inner : t'.isWhole = true := by
      rw [Tree.isWhole_array, List.forall_mem_append, List.forall_mem_cons] at whole
      exact whole.2.1
    rw [Schema.reader_array] at read ⊢
    exact Schema.asList_of_item (S := schema) (ih inner) read
  | splice change ih =>
    intro n read
    obtain ⟨ms, ms', rfl, rfl⟩ := change.exists_objects
    obtain ⟨m, read', rfl⟩ := read_splice_iff.1 read
    exact read_splice_iff.2 ⟨m, ih whole m read', rfl⟩
  | @selectors name t t' more change ih =>
    intro r read
    have inner : t'.isWhole = true := by
      rw [Tree.isWhole_array, List.forall_mem_cons, List.forall_mem_cons] at whole
      exact whole.2.1
    obtain ⟨first, second, alone⟩ := read_reference_array_iff.1 read
    exact read_reference_array_iff.2 ⟨first, ih inner r.selectors second, alone⟩

/-! ### Any number of changes -/

theorem read_of_changes {s : Slot} {t t' : Tree} (changes : Relation.ReflTransGen (Change s) t t')
    (whole : t'.isWhole = true) :
    t.isWhole = true ∧
      ∀ a, (schema.reader t).read s = .ok a → (schema.reader t').read s = .ok a := by
  induction changes using Relation.ReflTransGen.head_induction_on with
  | refl => exact ⟨whole, fun _ read => read⟩
  | head change _ ih =>
    obtain ⟨whole', kept⟩ := ih
    exact ⟨change.isWhole whole', fun a read => kept a (read_of_change change whole' a read)⟩

end Node.Stored

/-- What is read from a text is read from each text that spells its tree after any number of
changes: members in another order, members under names that are not read, and no members that only
repeat their defaults, in nodes and references at any depth. -/
theorem Node.ofText_of_changes {text text' : String} {n : Node} {t' : Tree}
    (accepted : Node.ofText text = .ok n)
    (changes : Relation.ReflTransGen (Stored.Change .node) (Json.Document.ofText text).root t')
    (spelled : t'.IsSpelledBy text') : Node.ofText text' = .ok n := by
  have document := Json.Document.ofText_of_spelled spelled
  obtain ⟨b, s, b', -, spells, -, -⟩ := spelled
  obtain ⟨-, kept⟩ := Stored.read_of_changes changes spells.isWhole
  have read := (Schema.read_eq_ok_iff (S := Stored.schema)).1 accepted
  refine (Schema.read_eq_ok_iff (S := Stored.schema)).2 ?_
  rw [document]
  exact ⟨kept n read.1, rfl⟩

/-- A `RETURN` whose parts stand in another order, without a zero of its span and the empty
selectors of its variable, and with arguments that no variable has. -/
theorem Node.ofText_of_changes_shuffledReturn :
    Node.ofText ("\x7b\"type\":\"RETURN\",\"value\":\x7b\"type\":\"VARIABLE\",\"name\":\"x\"," ++
        "\"selectors\":[]\x7d,\"first_line\":0\x7d") = .ok (.ret .unknown (.var .unknown "x" [])) ∧
      Node.ofText ("\x7b\"value\":\x7b\"name\":\"x\",\"params\":null,\"type\":\"VARIABLE\"\x7d," ++
        "\"type\":\"RETURN\"\x7d") = .ok (.ret .unknown (.var .unknown "x" [])) := by
  let v : Value := .object [("type", .string "RETURN"),
    ("value", .object [("type", .string "VARIABLE"), ("name", .string "x"),
      ("selectors", .array [])]), ("first_line", .number 0)]
  let v' : Value := .object [("value", .object [("name", .string "x"), ("params", .null),
    ("type", .string "VARIABLE")]), ("type", .string "RETURN")]
  let outer (t : Tree) : Tree :=
    .object [(.text "value", t), (.text "type", .string "RETURN")] .closed
  let kind : Label × Tree := (.text "type", .string "VARIABLE")
  let name : Label × Tree := (.text "name", .string "x")
  let selectors : Label × Tree := (.text "selectors", .array [] .closed)
  let params : Label × Tree := (.text "params", .null)
  let line : Label × Tree := (.text "first_line", .number (.natural 0))
  let swap : Tree := .object [(.text "value", .object [kind, name, selectors] .closed),
    (.text "type", .string "RETURN"), line] .closed
  have swapped : Stored.Change .node v.tree swap :=
    .permute (.node List.mem_cons_self (.word .ret)) (.swap _ _ _)
  have unplaced : Stored.Change .node swap (outer (.object [kind, name, selectors] .closed)) := by
    refine @Stored.Change.remove _ [_, _] [] (Stored.membersOf .ret)
      (Stored.defaulted "first_line" .word32 (0 : UInt32)) _ (.node ?_ (.word .ret)) ?_ (.zero _)
    · exact .tail _ List.mem_cons_self
    · exact .tail _ (.tail _ List.mem_cons_self)
  have moved : Stored.Change .node (.object [kind, name, selectors] .closed)
      (.object [name, selectors, kind] .closed) :=
    .permute (.node List.mem_cons_self (.word .var))
      (@List.perm_append_comm _ [kind] [name, selectors])
  have unselected : Stored.Change .node (.object [name, selectors, kind] .closed)
      (.object [name, kind] .closed) := by
    refine @Stored.Change.remove _ [name] [kind] (Stored.membersOf .var)
      (Stored.defaulted "selectors" .nodes ([] : List Node)) _ (.node ?_ (.word .var)) ?_
      (.noNodes _)
    · exact .tail _ (.tail _ List.mem_cons_self)
    · exact .tail _ (.tail _ List.mem_cons_self)
  have inserted : Stored.Change .node (.object [name, kind] .closed)
      (.object [name, params, kind] .closed) := by
    refine @Stored.Change.insert _ [name] [kind] (Stored.membersOf .var) "params" _
      (.node ?_ (.word .var)) (by decide)
    exact .tail _ List.mem_cons_self
  have inside : ∀ t t', Stored.Change .node t t' → Stored.Change .node (outer t) (outer t') := by
    intro t t' change
    refine @Stored.Change.member _ [] _ (Stored.membersOf .ret) (Stored.required "value" .node) _ _
      (.node ?_ (.word .ret)) ?_ change
    · exact .tail _ List.mem_cons_self
    · exact .tail _ List.mem_cons_self
  have changes : Relation.ReflTransGen (Stored.Change .node) v.tree v'.tree :=
    .head swapped <| .head unplaced <| .head (inside _ _ moved) <| .head (inside _ _ unselected) <|
      .head (inside _ _ inserted) .refl
  have spelled : v.tree.IsSpelledBy (v.text .compact) :=
    Value.isSpelledBy (by decide) .compact Json.blanks_nil (List.append_nil _).symm
  have spelled' : v'.tree.IsSpelledBy (v'.text .compact) :=
    Value.isSpelledBy (by decide) .compact Json.blanks_nil (List.append_nil _).symm
  have root : (Json.Document.ofText (v.text .compact)).root = v.tree :=
    congrArg Json.Document.root (Json.Document.ofText_of_spelled spelled)
  rw [← root] at changes
  have reads : Stored.schema.Reads .node v (Node.ret .unknown (.var .unknown "x" [])) := by rfl
  have accepted : Node.ofText (v.text .compact) = .ok (.ret .unknown (.var .unknown "x" [])) :=
    Schema.read_text (S := Stored.schema) (by decide) reads .compact Json.blanks_nil
      (List.append_nil _).symm
  exact ⟨accepted, Node.ofText_of_changes accepted changes spelled'⟩

set_option maxRecDepth 4000 in
/-- A number that exceeds all floating-point numbers is JSON, but it makes the whole node
unreadable, even in a member that nobody reads. -/
theorem Node.ofText_overflowingMember :
    Node.ofText "\x7b\"type\":\"BLOCK\",\"statements\":[]\x7d" = .ok (.block .unknown []) ∧
      Stored.Change .node
        (Json.Document.ofText "\x7b\"type\":\"BLOCK\",\"statements\":[]\x7d").root
        (Json.Document.ofText "\x7b\"type\":\"BLOCK\",\"statements\":[],\"x\":1e999\x7d").root ∧
      (Json.Document.ofText
        "\x7b\"type\":\"BLOCK\",\"statements\":[],\"x\":1e999\x7d").isAlone = true ∧
      Node.ofText "\x7b\"type\":\"BLOCK\",\"statements\":[],\"x\":1e999\x7d" =
        Json.Fault.malformed.raise := by
  let kind : Label × Tree := (.text "type", .string "BLOCK")
  let statements : Label × Tree := (.text "statements", .array [] .closed)
  let v : Value := .object [("type", .string "BLOCK"), ("statements", .array [])]
  have written : v.text .compact = "\x7b\"type\":\"BLOCK\",\"statements\":[]\x7d" := rfl
  have spelled : v.tree.IsSpelledBy (v.text .compact) :=
    Value.isSpelledBy (by decide) .compact Json.blanks_nil (List.append_nil _).symm
  have plain := Json.Document.ofText_of_spelled spelled
  rw [written] at plain
  have chars : "\x7b\"type\":\"BLOCK\",\"statements\":[],\"x\":1e999\x7d".toList =
      ['\x7b', '"', 't', 'y', 'p', 'e', '"', ':', '"', 'B', 'L', 'O', 'C', 'K', '"', ',', '"',
        's', 't', 'a', 't', 'e', 'm', 'e', 'n', 't', 's', '"', ':', '[', ']', ',', '"', 'x', '"',
        ':', '1', 'e', '9', '9', '9', '\x7d'] := rfl
  have padded :
      Json.Document.ofText "\x7b\"type\":\"BLOCK\",\"statements\":[],\"x\":1e999\x7d" =
        ⟨.object [kind, statements, (.text "x", .unreadable)] .closed, true⟩ := by
    rw [Json.Document.ofText, chars]
    rfl
  have reads : Stored.schema.Reads .node v (Node.block .unknown []) := by rfl
  refine ⟨?_, ?_, ?_, ?_⟩
  · exact Schema.read_text (S := Stored.schema) (by decide) reads .compact Json.blanks_nil
      (List.append_nil _).symm
  · rw [plain, padded]
    exact @Stored.Change.insert _ [kind, statements] [] (Stored.membersOf .block) "x" _
      (.node List.mem_cons_self (.word .block)) (by decide)
  · rw [padded]
  · have refused : (Stored.schema.reader (.object [kind, statements, (.text "x", .unreadable)]
        .closed)).read .node = Json.Fault.malformed.raise := rfl
    have read : ∀ document, Json.Document.ofText
        "\x7b\"type\":\"BLOCK\",\"statements\":[],\"x\":1e999\x7d" = document →
        Node.ofText "\x7b\"type\":\"BLOCK\",\"statements\":[],\"x\":1e999\x7d" =
          (do
            let value ← (Stored.schema.reader document.root).read .node
            if document.isAlone then .ok value else Json.Fault.malformed.raise) := by
      rintro _ rfl
      rfl
    rw [read _ padded, refused]
    rfl

end ArithCircuit
