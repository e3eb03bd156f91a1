import ArithCircuit.Proofs.CompleteValues
import ArithCircuit.Proofs.Readback

set_option autoImplicit false
set_option relaxedAutoImplicit false

/-!
# Objects with given values

The text of an object with any texts as the values of its members. Each of them has to be one
complete value, but it may be one that no place can read. Main statements:
`Document.ofText_objectText`, such an object is read as the object of the trees of its values,
`Value.text_object`, the objects that are written are of this form, and `Schema.read_objectText`,
what record is read from one.
-/

namespace ArithCircuit.Json

/-! ### Texts of one value -/

/-- The text is one complete value with blanks around it, whether or not the value can be read. -/
def IsValueText (text : String) : Prop :=
  ∃ rest, (scanValue (2 * text.toList.length + 2) text.toList).2 = some rest ∧ Blanks rest

theorem dropBlanks_eq_nil {b : List Char} (blank : Blanks b) : dropBlanks b = [] := by
  have dropped := dropBlanks_append blank []
  rwa [List.append_nil] at dropped

/-- A text that spells a tree is a value. -/
theorem Tree.IsSpelledBy.isValueText {t : Tree} {text : String} (spelled : t.IsSpelledBy text) :
    IsValueText text := by
  obtain ⟨b, s, b', before, spells, after, whole⟩ := spelled
  have ends : EndsNumber b' := by
    have ends := endsNumber_nil.append_blanks after
    rwa [List.append_nil] at ends
  refine ⟨b', ?_, after⟩
  rw [whole, scanValue_of_spells _ spells before ends (by simp; omega)]

/-- Nothing stands behind a value. -/
theorem IsValueText.isAlone {text : String} (value : IsValueText text) :
    (Document.ofText text).isAlone = true := by
  obtain ⟨rest, scanned, blank⟩ := value
  have alone : (some rest).map (fun rest => (dropBlanks rest).isEmpty) = some true := by
    rw [Option.map_some, dropBlanks_eq_nil blank, List.isEmpty_nil]
  rw [← scanned] at alone
  exact congrArg (Option.getD · true) alone

/-- A value is scanned as itself in front of any text, unless that continues a number. -/
theorem IsValueText.scanValue_append {text : String} (value : IsValueText text) {fuel : Nat}
    (enough : 2 * text.toList.length + 2 ≤ fuel) {x : List Char} (ends : EndsNumber x) :
    ∃ rest, scanValue fuel (text.toList ++ x) = ((Document.ofText text).root, some (rest ++ x)) ∧
      Blanks rest := by
  obtain ⟨rest, scanned, blank⟩ := value
  exact ⟨rest, (stable ends enough).value (Prod.ext rfl scanned), blank⟩

theorem scanValue_append_blanks {b : List Char} (blank : Blanks b) (fuel : Nat) (s : List Char) :
    scanValue fuel (b ++ s) = scanValue fuel s := by
  cases fuel with
  | zero => rfl
  | succ fuel => rw [scanValue, scanValue, dropBlanks_append blank]

/-! ### The text of an object -/

/-- The members of an object in one of the two styles, each with the text of its value, from behind
the quote that opens the first key. -/
def membersText (style : Style) : List (String × String) → List Char
  | [] => []
  | (key, u) :: ms =>
    key.toList.flatMap escape ++ '"' :: (style.colon ++ (u.toList ++
      if ms.isEmpty then style.gap 0 ++ ['\x7d']
      else ',' :: (style.gap 1 ++ '"' :: membersText style ms)))

/-- An object with the given texts as the values of its members. -/
def objectText (style : Style) (ms : List (String × String)) : String :=
  String.ofList ('\x7b' :: (style.gap 1 ++ '"' :: membersText style ms))

/-- The members with the trees of their values. -/
def memberTrees (ms : List (String × String)) : List (Label × Tree) :=
  ms.map fun m => (.text m.1, (Document.ofText m.2).root)

/-- The key, the colon and the value of a member, in front of a comma or bracket. -/
theorem scanMembers_member (style : Style) {key u : String} (value : IsValueText u)
    {b : List Char} (blank : Blanks b) {c : Char} (x : List Char)
    (ends : c.isDigit = false ∧ c ≠ '.' ∧ c ≠ 'e' ∧ c ≠ 'E') (visible : isBlank c = false)
    {fuel : Nat} (enough : (key.toList.flatMap escape).length < fuel)
    (enough' : 2 * u.toList.length + 2 ≤ fuel) :
    scanMembers (fuel + 1)
        (key.toList.flatMap escape ++ '"' :: (style.colon ++ (u.toList ++ (b ++ c :: x)))) =
      scanMembersBehind fuel (.text key, (Document.ofText u).root) (c :: x) := by
  obtain ⟨b', blank', colon⟩ := style.exists_blanks_colon
  have name := scanString_of_spells fuel (spellsText_escape key.toList) enough []
    (style.colon ++ (u.toList ++ (b ++ c :: x)))
  rw [List.reverse_nil, List.nil_append, String.ofList_toList] at name
  have first : dropBlanks (style.colon ++ (u.toList ++ (b ++ c :: x))) =
      ':' :: (b' ++ (u.toList ++ (b ++ c :: x))) := by
    rw [colon, List.cons_append, dropBlanks_cons rfl]
  obtain ⟨rest, scanned, blank''⟩ :=
    value.scanValue_append enough' ((endsNumber_cons ends x).append_blanks blank)
  have behind : dropBlanks (rest ++ (b ++ c :: x)) = c :: x := by
    rw [dropBlanks_append blank'', dropBlanks_append_cons blank visible]
  simp only [scanMembers_succ, name, ScannedString.label, first, scanValue_append_blanks blank',
    scanned, behind]

theorem scanMembers_membersText (style : Style) {ms : List (String × String)} (some' : ms ≠ [])
    (values : ∀ m ∈ ms, IsValueText m.2) {fuel : Nat}
    (enough : 2 * (membersText style ms).length + 1 ≤ fuel) :
    scanMembers fuel (membersText style ms) = (memberTrees ms, .closed, some []) := by
  induction ms generalizing fuel with
  | nil => exact absurd rfl some'
  | cons m ms ih =>
    obtain ⟨key, u⟩ := m
    obtain ⟨fuel, rfl⟩ : ∃ k, fuel = k + 1 := ⟨fuel - 1, by omega⟩
    have value : IsValueText u := values (key, u) List.mem_cons_self
    have others : ∀ m ∈ ms, IsValueText m.2 := fun m member => values m (.tail _ member)
    cases ms with
    | nil =>
      rw [membersText, List.isEmpty_nil, if_pos rfl] at enough ⊢
      simp only [List.length_append, List.length_cons] at enough
      rw [scanMembers_member style value (style.blanks_gap 0) [] (by decide) rfl (by omega)
        (by omega)]
      rfl
    | cons m ms =>
      have rest : 2 * (membersText style (m :: ms)).length + 1 ≤ fuel → _ :=
        ih (List.cons_ne_nil m ms) others
      rw [membersText, List.isEmpty_cons, if_neg Bool.false_ne_true] at enough ⊢
      simp only [List.length_append, List.length_cons] at enough
      rw [← List.nil_append (',' :: _),
        scanMembers_member style value blanks_nil _ (by decide) rfl (by omega) (by omega),
        scanMembersBehind, dropBlanks_append_cons (style.blanks_gap 1) rfl]
      simp only [rest (by omega)]
      rfl

/-- An object of complete values is read as the object of their trees. -/
theorem Document.ofText_objectText (style : Style) {ms : List (String × String)}
    (some' : ms ≠ []) (values : ∀ m ∈ ms, IsValueText m.2) :
    Document.ofText (objectText style ms) = ⟨.object (memberTrees ms) .closed, true⟩ := by
  have scanned : ∀ fuel, 2 * (membersText style ms).length + 1 ≤ fuel →
      scanValue (fuel + 1) ('\x7b' :: (style.gap 1 ++ '"' :: membersText style ms)) =
        (.object (memberTrees ms) .closed, some []) := by
    intro fuel enough
    rw [scanValue_brace, dropBlanks_append_cons (style.blanks_gap 1) rfl]
    simp only [scanMembers_membersText style some' values enough]
    rfl
  have whole : (objectText style ms).toList =
      '\x7b' :: (style.gap 1 ++ '"' :: membersText style ms) := String.toList_ofList
  have read := scanned
    (2 * ('\x7b' :: (style.gap 1 ++ '"' :: membersText style ms)).length + 1) (by simp; omega)
  simp only [Document.ofText, whole, read]
  rfl

/-! ### The objects that are written -/

namespace Value

/-- A value as it is written as a member of the outermost object. -/
def inner (style : Style) (v : Value) : String := String.ofList (v.onto style 1 [])

/-- Members with the texts that are written for their values. -/
def innerMembers (style : Style) (ms : List (String × Value)) : List (String × String) :=
  ms.map fun m => (m.1, m.2.inner style)

theorem isSpelledBy_inner {v : Value} (exact' : v.isExact = true) (style : Style) :
    v.tree.IsSpelledBy (v.inner style) := by
  obtain ⟨s, spells, written⟩ := exists_spells_onto style 1 v exact'
  refine ⟨[], s, [], blanks_nil, spells, blanks_nil, ?_⟩
  rw [inner, String.toList_ofList, written, List.nil_append]

theorem onto_eq_inner_append {v : Value} (exact' : v.isExact = true) (style : Style)
    (rest : List Char) : v.onto style 1 rest = (v.inner style).toList ++ rest := by
  obtain ⟨s, -, written⟩ := exists_spells_onto style 1 v exact'
  rw [inner, String.toList_ofList, written, written, List.append_nil]

theorem isValueText_innerMembers {ms : List (String × Value)} (exact' : membersExact ms = true)
    (style : Style) : ∀ m ∈ innerMembers style ms, IsValueText m.2 := by
  rw [innerMembers, List.forall_mem_map]
  intro m member
  exact (isSpelledBy_inner (membersExact_iff.1 exact' m member) style).isValueText

/-- Members that are written are read as their trees. -/
theorem memberTrees_innerMembers {ms : List (String × Value)} (exact' : membersExact ms = true)
    (style : Style) : memberTrees (innerMembers style ms) = treeMembers ms := by
  induction ms with
  | nil => rfl
  | cons m ms ih =>
    rw [membersExact, Bool.and_eq_true] at exact'
    have root := Document.ofText_of_spelled (isSpelledBy_inner exact'.1 style)
    rw [innerMembers, List.map_cons, memberTrees, List.map_cons, root]
    exact congrArg (List.cons _) (ih exact'.2)

theorem membersOnto_eq (style : Style) {ms : List (String × Value)} (some' : ms ≠ [])
    (exact' : membersExact ms = true) (first : Bool) :
    membersOnto style 0 first ms (style.gap 0 ++ ['\x7d']) =
      (if first then [] else [',']) ++
        (style.gap 1 ++ '"' :: membersText style (innerMembers style ms)) := by
  induction ms generalizing first with
  | nil => exact absurd rfl some'
  | cons m ms ih =>
    obtain ⟨key, v⟩ := m
    rw [membersExact, Bool.and_eq_true] at exact'
    have value := onto_eq_inner_append exact'.1 style
    cases ms with
    | nil => simp [membersOnto, stringOnto, value, innerMembers, membersText]
    | cons m ms =>
      have rest := ih (List.cons_ne_nil m ms) exact'.2 false
      rw [membersOnto, rest, value]
      simp [stringOnto, innerMembers, membersText]

/-- An object that is written is the object of what is written for its values. -/
theorem text_object (style : Style) {ms : List (String × Value)} (some' : ms ≠ [])
    (exact' : membersExact ms = true) :
    (object ms).text style = objectText style (innerMembers style ms) := by
  have filled : ms.isEmpty = false := by simpa using some'
  have members := membersOnto_eq style some' exact' true
  rw [if_pos rfl, List.nil_append] at members
  rw [text, onto, filled, if_neg Bool.false_ne_true, members, objectText]

end Value

/-! ### Records in an object -/

namespace Schema

theorem under_readers_of_not_mem (S : Schema) {ms : List (String × String)} {name : String}
    (absent : name ∉ ms.map Prod.fst) : Record.under name (S.readers (memberTrees ms)) = [] := by
  induction ms with
  | nil => rfl
  | cons m ms ih =>
    rw [List.map_cons, List.mem_cons, not_or] at absent
    exact (Record.under_cons_of_ne (Ne.symm absent.1) _ _).trans (ih absent.2)

/-- If no name is given twice, the reader for a member is all that stands under its name. -/
theorem under_readers (S : Schema) {ms : List (String × String)}
    (distinct : (ms.map Prod.fst).Nodup) {name u : String} (member : (name, u) ∈ ms) :
    Record.under name (S.readers (memberTrees ms)) = [S.reader (Document.ofText u).root] := by
  induction ms with
  | nil => cases member
  | cons m ms ih =>
    rw [List.map_cons, List.nodup_cons] at distinct
    rcases List.mem_cons.1 member with rfl | member
    · have nothing := S.under_readers_of_not_mem distinct.1
      exact (Record.under_cons_self _ _ _).trans (congrArg (List.cons _) nothing)
    · have different : m.1 ≠ name := by
        rintro rfl
        exact distinct.1 (List.mem_map.2 ⟨_, member, rfl⟩)
      exact (Record.under_cons_of_ne different _ _).trans (ih distinct.2 member)

/-- The record whose fields have the values that the given texts are read as. -/
def Takes (S : Schema) {α : Type} :
    (fs : List (Field S.Carrier)) → Record.Builder α fs → List String → α → Prop
  | [], build, [], a => build = a
  | f :: fs, build, u :: us, a =>
    ∃ value, (S.reader (Document.ofText u).root).read f.slot = .ok value ∧
      S.Takes fs (build value) us a
  | _, _, _, _ => False

/-- A record is gathered from the texts that stand under the names of its fields. -/
theorem gather_eq_some_iff (S : Schema) {α : Type} {ms : List (String × String)}
    (distinct : (ms.map Prod.fst).Nodup) {fs : List (Field S.Carrier)} {us : List String}
    (given : List.Forall₂ (fun f u => (f.name, u) ∈ ms) fs us) {build : Record.Builder α fs}
    {a : α} :
    Record.gather (S.readers (memberTrees ms)) fs build = some a ↔ S.Takes fs build us a := by
  induction given with
  | nil => exact Option.some_inj
  | @cons f u fs us first _ ih =>
    rw [Record.gather, Option.bind_eq_some_iff]
    apply exists_congr
    intro value
    rw [Field.value?, S.under_readers distinct first, ih]
    exact and_congr_left' Result.toOption_eq_some_iff

theorem forall₂_mem_of_names {Slot : Type} {Carrier : Slot → Type} {fs : List (Field Carrier)}
    {ms ms' : List (String × String)} (part : ms ⊆ ms')
    (names : ms.map Prod.fst = fs.map Field.name) :
    List.Forall₂ (fun f u => (f.name, u) ∈ ms') fs (ms.map Prod.snd) := by
  induction ms generalizing fs with
  | nil =>
    cases fs with
    | nil => exact .nil
    | cons f fs => cases names
  | cons m ms ih =>
    cases fs with
    | nil => cases names
    | cons f fs =>
      obtain ⟨same, names⟩ := List.cons.inj names
      obtain ⟨member, part⟩ := List.cons_subset.1 part
      exact .cons (same ▸ member) (ih part names)

/-- A record is read from an object that gives exactly its fields. -/
theorem read_objectText (S : Schema) (s : S.Slot) (fs : List (Field S.Carrier))
    (build : Record.Builder (S.Carrier s) fs)
    (layer : ∀ members, S.readLayer s (.object members .closed) =
      Record.ofMembers fs build members .closed) (distinct : (fs.map Field.name).Nodup)
    (style : Style) {ms : List (String × String)} (some' : ms ≠ [])
    (values : ∀ m ∈ ms, IsValueText m.2) (names : ms.map Prod.fst = fs.map Field.name)
    (a : S.Carrier s) :
    S.read s (objectText style ms) = .ok a ↔ S.Takes fs build (ms.map Prod.snd) a := by
  have passes : ∀ member ∈ S.readers (memberTrees ms), Record.Passes fs member := by
    rw [readers, List.forall_mem_map, memberTrees, List.forall_mem_map]
    intro m member absent
    exact absurd (names ▸ List.mem_map_of_mem member) absent
  have read : S.readLayer s (.object (S.readers (memberTrees ms)) .closed) = .ok a ↔ _ :=
    (layer _).symm ▸ Record.ofMembers_eq_ok_iff distinct
  have given := forall₂_mem_of_names (List.Subset.refl ms) names
  rw [Schema.read_eq_ok_iff, Document.ofText_objectText style some' values, reader_object,
    ← S.gather_eq_some_iff (names ▸ distinct) given]
  exact ⟨fun done => (read.1 done.1).2, fun gathered => ⟨read.2 ⟨passes, gathered⟩, rfl⟩⟩

/-- A value that is written as a member is read at its place. -/
theorem Reads.inner {S : Schema} {s : S.Slot} {v : Value} {a : S.Carrier s}
    (reads : S.Reads s v a) (exact' : v.isExact = true) (style : Style) :
    (S.reader (Document.ofText (v.inner style)).root).read s = .ok a := by
  rw [Document.ofText_of_spelled (v.isSpelledBy_inner exact' style)]
  exact reads

/-- From members that are written for a record exactly this record is taken. -/
theorem takes_innerMembers_iff {S : Schema} {α : Type} {fs : List (Field S.Carrier)}
    {build : Record.Builder α fs} {ms : List (String × Value)} {a : α}
    (gives : S.Gives fs build ms a) (exact' : Value.membersExact ms = true) (style : Style)
    {a' : α} : S.Takes fs build ((Value.innerMembers style ms).map Prod.snd) a' ↔ a' = a := by
  induction gives with
  | nil => exact eq_comm
  | @cons f fs build v value ms a reads _ ih =>
    rw [Value.membersExact, Bool.and_eq_true] at exact'
    have read := reads.inner exact'.1 style
    rw [← ih exact'.2]
    constructor
    · rintro ⟨value', read', rest⟩
      cases read.symm.trans read'
      exact rest
    · exact fun rest => ⟨value, read, rest⟩

/-- A text that is one value is read like the tree at its root. -/
theorem read_iff_of_isValueText {S : Schema} {s : S.Slot} {a : S.Carrier s} {text : String}
    (value : IsValueText text) :
    S.read s text = .ok a ↔ (S.reader (Document.ofText text).root).read s = .ok a := by
  rw [read_eq_ok_iff, value.isAlone]
  exact and_iff_left rfl

end Schema

end ArithCircuit.Json
