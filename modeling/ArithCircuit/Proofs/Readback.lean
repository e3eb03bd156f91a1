import ArithCircuit.Proofs.WholeTrees
import ArithCircuit.Span.Written
import Mathlib.Data.List.Forall2

set_option autoImplicit false
set_option relaxedAutoImplicit false

/-!
# Reading back what was written

`Schema.Reads` says that a written value is read as a given thing at some place of a format. Each
form of value has its lemma: a list by its items, a record by its fields, a choice by the name of
the variant, a map by its entries. Main statement: `Schema.read_text`, the text of a value is read as
what the value is read as.
-/

namespace ArithCircuit

/-- Writing the entries of a map one after the other gives the map. -/
theorem OrderedMap.ofList_entries {α : Type} (m : OrderedMap α) : ofList m.entries = m := by
  have written : ∀ (l : List (String × α)) (m' : OrderedMap α),
      ((m'.entries ++ l).map Prod.fst).Nodup →
        (l.foldl (fun m' e => m'.insert e.1 e.2) m').entries = m'.entries ++ l := by
    intro l
    induction l with
    | nil => simp
    | cons e l ih =>
      intro m' distinct
      have fresh : m'.get? e.1 = none := by
        rw [get?_eq_none_iff_not_mem_keys, keys]
        intro member
        rw [List.map_append, List.map_cons, List.nodup_append] at distinct
        exact distinct.2.2 e.1 member e.1 List.mem_cons_self rfl
      have added := entries_insert_of_fresh fresh e.2
      have rest := ih (m'.insert e.1 e.2) (by rw [added, List.append_assoc]; exact distinct)
      rw [List.foldl_cons, rest, added, List.append_assoc, List.singleton_append]
  exact OrderedMap.ext (written m.entries empty m.nodup)

theorem Span.membersExact (span : Span) : Json.Value.membersExact span.members = true := by
  have small : ∀ n : UInt32, n.toNat ≤ Json.maxSignificand := by
    intro n
    have bound := n.toNat_lt
    have room : 2 ^ 32 ≤ Json.maxSignificand := by decide
    omega
  simp [members, Json.Value.membersExact, Json.Value.isExact, small]

end ArithCircuit

namespace ArithCircuit.Json

/-! ### Scalars -/

namespace Layer

variable {ρ : Type}

theorem asDecimal_text (n : Nat) : asDecimal (.string (Decimal.text n) : Layer ρ) = .ok n := by
  rw [asDecimal, Decimal.value?_text]

theorem asWord32_toNat (n : UInt32) : asWord32 (.number (.natural n.toNat) : Layer ρ) = .ok n := by
  have small : n.toNat < Nat.pow 2 32 := n.toNat_lt
  rw [asWord32, asNatural, if_pos small]
  exact congrArg Except.ok UInt32.ofNat_toNat

end Layer

namespace Schema

/-- A written value is read as a given thing at a place. -/
def Reads (S : Schema) (s : S.Slot) (v : Value) (a : S.Carrier s) : Prop :=
  (S.reader v.tree).read s = .ok a

variable {S : Schema} {s : S.Slot} {α : Type}

/-- The readers for the members of a written object. -/
def fields (S : Schema) (ms : List (String × Value)) : List (Label × Reader S.Carrier) :=
  ms.map fun m => (.text m.1, S.reader m.2.tree)

theorem reads_array {vs : List Value} {a : S.Carrier s} :
    S.Reads s (.array vs) a ↔
      S.readLayer s (.array (vs.map fun v => S.reader v.tree) .closed) = .ok a := by
  have trees : Value.treeItems vs = vs.map Value.tree := by
    induction vs with
    | nil => rfl
    | cons v vs ih => rw [Value.treeItems, ih, List.map_cons]
  rw [Reads, Value.tree, reader_array, trees, List.map_map]
  rfl

theorem readers_treeMembers (ms : List (String × Value)) :
    S.readers (Value.treeMembers ms) = S.fields ms := by
  induction ms with
  | nil => rfl
  | cons m ms ih =>
    rw [Value.treeMembers, readers, List.map_cons, ← readers, ih]
    rfl

theorem reads_object {ms : List (String × Value)} {a : S.Carrier s} :
    S.Reads s (.object ms) a ↔ S.readLayer s (.object (S.fields ms) .closed) = .ok a := by
  rw [Reads, Value.tree, reader_object, readers_treeMembers]
  rfl

/-- A whole text is read as the value that it was written from. -/
theorem read_text {v : Value} {a : S.Carrier s} (exact' : v.isExact = true) (reads : S.Reads s v a)
    (style : Style) {text : String} {b : List Char} (after : Blanks b)
    (whole : text.toList = (v.text style).toList ++ b) : S.read s text = .ok a := by
  have spelled := Value.isSpelledBy exact' style after whole
  rw [read_eq_ok_iff, Document.ofText_of_spelled spelled]
  exact ⟨reads, rfl⟩

/-! ### Lists and maps -/

/-- A list is read by its items. -/
theorem asList_of_reads {item : S.Slot} {vs : List Value} {as : List (S.Carrier item)}
    (reads : List.Forall₂ (S.Reads item) vs as) :
    Layer.asList item (.array (vs.map fun v => S.reader v.tree) .closed) = .ok as := by
  have items : (vs.map fun v => S.reader v.tree).mapM (fun r => r.read item) = .ok as := by
    induction reads with
    | nil => rfl
    | cons first _ ih =>
      rw [List.map_cons, List.mapM_cons]
      exact Result.bind_eq_ok_iff.2 ⟨_, first, Result.bind_eq_ok_iff.2 ⟨_, ih, rfl⟩⟩
  exact Result.bind_eq_ok_iff.2 ⟨as, items, rfl⟩

/-- A map is read by its entries, which come in the order of the text. -/
theorem asMap_of_reads {item : S.Slot} {ms : List (String × Value)}
    {m : OrderedMap (S.Carrier item)}
    (reads : List.Forall₂ (fun w e => w.1 = e.1 ∧ S.Reads item w.2 e.2) ms m.entries) :
    Layer.asMap item (.object (S.fields ms) .closed) = .ok m := by
  have built : OrderedMap.ofList m.entries = m := OrderedMap.ofList_entries m
  generalize m.entries = es at reads built
  have entries : (S.fields ms).mapM (fun w => do
      let name ← Layer.key w.1
      let value ← w.2.read item
      return (name, value)) = .ok es := by
    clear built
    induction reads with
    | nil => rfl
    | @cons w e _ _ first _ ih =>
      obtain ⟨same, read⟩ := first
      rw [fields, List.map_cons, List.mapM_cons]
      refine Result.bind_eq_ok_iff.2 ⟨e, ?_, Result.bind_eq_ok_iff.2 ⟨_, ih, rfl⟩⟩
      refine Result.bind_eq_ok_iff.2 ⟨w.1, rfl, Result.bind_eq_ok_iff.2 ⟨e.2, read, ?_⟩⟩
      rw [same]
      rfl
  exact Result.bind_eq_ok_iff.2 ⟨es, entries, congrArg Except.ok built⟩

/-! ### Choices -/

/-- A variant is read by what stands beside its name. -/
theorem asChoice_of_tag {unit : Reader S.Carrier → Result Unit}
    {variants : List (String × Variant S.Carrier α)} {tag : String} {variant : Variant S.Carrier α}
    (known : variants.lookup tag = some variant) {v : Value} {a : α}
    (data : variant.ofData unit (S.reader v.tree) = .ok a) :
    Layer.asChoice unit variants (.object (S.fields [(tag, v)]) .closed) = .ok a := by
  have found : Variant.find variants tag = .ok variant := by rw [Variant.find, known]
  refine Result.bind_eq_ok_iff.2 ⟨tag, rfl, Result.bind_eq_ok_iff.2 ⟨variant, found, ?_⟩⟩
  exact Result.bind_eq_ok_iff.2 ⟨a, data, rfl⟩

/-! ### Records -/

/-- The members give the fields of a record in their order. -/
inductive Gives (S : Schema) : (fs : List (Field S.Carrier)) → Record.Builder α fs →
    List (String × Value) → α → Prop where
  | nil {a : α} : Gives S [] a [] a
  | cons {f : Field S.Carrier} {fs : List (Field S.Carrier)} {build : Record.Builder α (f :: fs)}
      {v : Value} {value : S.Carrier f.slot} {ms : List (String × Value)} {a : α} :
      S.Reads f.slot v value → Gives S fs (build value) ms a →
      Gives S (f :: fs) build ((f.name, v) :: ms) a

theorem Gives.names {fs : List (Field S.Carrier)} {build : Record.Builder α fs}
    {ms : List (String × Value)} {a : α} (gives : S.Gives fs build ms a) :
    ms.map Prod.fst = fs.map Field.name := by
  induction gives with
  | nil => rfl
  | cons _ _ ih => rw [List.map_cons, List.map_cons, ih]

/-- Nothing stands under a name that is none of the keys. -/
theorem under_fields_of_not_mem {name : String} {ms : List (String × Value)}
    (absent : name ∉ ms.map Prod.fst) : Record.under name (S.fields ms) = [] := by
  induction ms with
  | nil => rfl
  | cons m ms ih =>
    rw [List.map_cons, List.mem_cons, not_or] at absent
    rw [fields, List.map_cons, ← fields, Record.under_cons_of_ne (Ne.symm absent.1), ih absent.2]

/-- If no name is given twice, a member is all that stands under its name. -/
theorem under_fields_of_nodup {before after : List (String × Value)} {name : String} {v : Value}
    (distinct : ((before ++ (name, v) :: after).map Prod.fst).Nodup) :
    Record.under name (S.fields (before ++ (name, v) :: after)) = [S.reader v.tree] := by
  rw [List.map_append, List.map_cons, List.nodup_append, List.nodup_cons] at distinct
  obtain ⟨-, ⟨notAfter, -⟩, apart⟩ := distinct
  have notBefore : name ∉ before.map Prod.fst := by
    intro member
    exact apart name member name List.mem_cons_self rfl
  rw [fields, List.map_append, List.map_cons, ← fields, ← fields, Record.under_append,
    Record.under_cons_self, under_fields_of_not_mem notBefore, under_fields_of_not_mem notAfter]
  rfl

/-- A record is gathered from members that give its fields, whatever stands around them under other
names. -/
theorem gather_of_gives (before : List (String × Value)) {fs : List (Field S.Carrier)}
    {build : Record.Builder α fs} {ms after : List (String × Value)} {a : α}
    (distinct : ((before ++ (ms ++ after)).map Prod.fst).Nodup) (gives : S.Gives fs build ms a) :
    Record.gather (S.fields (before ++ (ms ++ after))) fs build = some a := by
  induction gives generalizing before with
  | nil => rfl
  | @cons f fs build v value ms a reads gives ih =>
    rw [List.cons_append] at distinct ⊢
    have given : f.value? (S.fields (before ++ (f.name, v) :: (ms ++ after))) = some value := by
      rw [Field.value?, under_fields_of_nodup distinct]
      exact Result.toOption_eq_some_iff.2 reads
    have shifted : before ++ (f.name, v) :: (ms ++ after) =
        (before ++ [(f.name, v)]) ++ (ms ++ after) := by simp
    rw [Record.gather, given]
    rw [shifted] at distinct ⊢
    exact ih _ distinct

/-- A record is read from an object that gives its fields in their order. -/
theorem reads_record {fs : List (Field S.Carrier)} {build : Record.Builder (S.Carrier s) fs}
    {ms : List (String × Value)} {a : S.Carrier s}
    (layer : ∀ members, S.readLayer s (.object members .closed) =
      Record.ofMembers fs build members .closed) (distinct : (fs.map Field.name).Nodup)
    (gives : S.Gives fs build ms a) : S.Reads s (.object ms) a := by
  have names : (([] ++ (ms ++ [])).map Prod.fst).Nodup := by
    rw [List.nil_append, List.append_nil, gives.names]
    exact distinct
  have gathered := gather_of_gives [] names gives
  rw [List.nil_append, List.append_nil, ← readers_treeMembers] at gathered
  rw [reads_object, layer, ← readers_treeMembers]
  exact (ofMembers_readers_iff distinct (Value.membersWhole_treeMembers ms)).2 gathered

end Schema

end ArithCircuit.Json
