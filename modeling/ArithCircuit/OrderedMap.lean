set_option autoImplicit false
set_option relaxedAutoImplicit false

/-!
# Maps that remember their order

Registries, symbol tables and the objects of the stored artifact are all maps from names, and in
each of them the order in which the names first came in is visible. `OrderedMap` is that map: a list
of entries with pairwise distinct names. Writing to a name that is present keeps its place.
-/

namespace ArithCircuit

/-- A finite map from names that keeps the order in which the names first came in. -/
structure OrderedMap (α : Type) where
  /-- The entries, oldest name first. -/
  entries : List (String × α)
  /-- No name has two entries. -/
  nodup : (entries.map Prod.fst).Nodup

namespace OrderedMap

variable {α : Type}

/-- The map without entries. -/
def empty : OrderedMap α := ⟨[], .nil⟩

instance : EmptyCollection (OrderedMap α) := ⟨empty⟩

instance : Inhabited (OrderedMap α) := ⟨empty⟩

/-- Two maps with the same entries in the same order are equal. -/
@[ext] theorem ext {m n : OrderedMap α} (h : m.entries = n.entries) : m = n := by
  cases m; cases n; cases h; rfl

instance [DecidableEq α] : DecidableEq (OrderedMap α) := fun m n =>
  decidable_of_iff (m.entries = n.entries) ⟨ext, congrArg entries⟩

/-- The names, oldest first. -/
def keys (m : OrderedMap α) : List String := m.entries.map Prod.fst

/-- The number of entries. -/
def size (m : OrderedMap α) : Nat := m.entries.length

/-- Whether the map has no entry. -/
def isEmpty (m : OrderedMap α) : Bool := m.entries.isEmpty

/-- The value under a name, if the name is present. -/
def get? (m : OrderedMap α) (name : String) : Option α := m.entries.lookup name

/-- Whether a name is present. -/
def contains (m : OrderedMap α) (name : String) : Bool := (m.get? name).isSome

/-- Write under a name in a list of entries: in the name's place if it has one, else at the end. -/
def assign (name : String) (value : α) : List (String × α) → List (String × α)
  | [] => [(name, value)]
  | (k, v) :: rest =>
    if k = name then (name, value) :: rest else (k, v) :: assign name value rest

theorem keys_assign (name : String) (value : α) (l : List (String × α)) :
    (assign name value l).map Prod.fst =
      if name ∈ l.map Prod.fst then l.map Prod.fst else l.map Prod.fst ++ [name] := by
  induction l with
  | nil => simp [assign]
  | cons e rest ih =>
    obtain ⟨k, v⟩ := e
    by_cases h : k = name
    · subst h; simp [assign]
    · have h' : ¬ name = k := fun e => h e.symm
      simp only [assign, h, if_false, List.map_cons, ih, List.mem_cons, h', false_or]
      split <;> simp

private theorem nodup_assign (name : String) (value : α) (l : List (String × α))
    (nodup : (l.map Prod.fst).Nodup) : ((assign name value l).map Prod.fst).Nodup := by
  rw [keys_assign]
  split
  · exact nodup
  · rename_i fresh
    refine List.nodup_append.2 ⟨nodup, by simp, ?_⟩
    intro a ha b hb equal
    cases List.mem_singleton.1 hb
    exact fresh (equal ▸ ha)

/-- Write under a name. A name that is present keeps its place; a new one comes last. -/
def insert (m : OrderedMap α) (name : String) (value : α) : OrderedMap α :=
  ⟨assign name value m.entries, nodup_assign name value m.entries m.nodup⟩

/-- The map that results from writing the entries of a list one after the other. -/
def ofList (l : List (String × α)) : OrderedMap α :=
  l.foldl (fun m e => m.insert e.1 e.2) empty

@[simp] theorem entries_empty : (∅ : OrderedMap α).entries = [] := rfl

@[simp] theorem entries_insert (m : OrderedMap α) (name : String) (value : α) :
    (m.insert name value).entries = assign name value m.entries := rfl

/-- Writing keeps the names in their order; a new name comes last. -/
theorem keys_insert (m : OrderedMap α) (name : String) (value : α) :
    (m.insert name value).keys = if name ∈ m.keys then m.keys else m.keys ++ [name] :=
  keys_assign name value m.entries

private theorem lookup_assign_self (name : String) (value : α) (l : List (String × α)) :
    (assign name value l).lookup name = some value := by
  induction l with
  | nil => simp [assign]
  | cons e rest ih =>
    obtain ⟨k, v⟩ := e
    by_cases h : k = name
    · simp [assign, h]
    · have h' : (name == k) = false := by simpa using fun e => h e.symm
      simp [assign, h, List.lookup_cons, h', ih]

private theorem lookup_assign_of_ne {name other : String} (h : other ≠ name) (value : α)
    (l : List (String × α)) : (assign name value l).lookup other = l.lookup other := by
  have hn : (other == name) = false := by simpa using h
  induction l with
  | nil => simp [assign, List.lookup_cons, hn]
  | cons e rest ih =>
    obtain ⟨k, v⟩ := e
    by_cases hk : k = name
    · subst hk; simp [assign, List.lookup_cons, hn]
    · simp only [assign, hk, if_false, List.lookup_cons, ih]

@[simp] theorem get?_empty (name : String) : (∅ : OrderedMap α).get? name = none := rfl

@[simp] theorem get?_insert_self (m : OrderedMap α) (name : String) (value : α) :
    (m.insert name value).get? name = some value := lookup_assign_self name value m.entries

theorem get?_insert_of_ne (m : OrderedMap α) {name other : String} (h : other ≠ name)
    (value : α) : (m.insert name value).get? other = m.get? other :=
  lookup_assign_of_ne h value m.entries

theorem get?_insert (m : OrderedMap α) (name other : String) (value : α) :
    (m.insert name value).get? other = if other = name then some value else m.get? other := by
  split
  · next same => rw [same, get?_insert_self]
  · next different => exact get?_insert_of_ne m different value

/-- A name is absent exactly if no entry has it. -/
theorem get?_eq_none_iff {m : OrderedMap α} {name : String} :
    m.get? name = none ↔ ∀ e ∈ m.entries, e.1 ≠ name := by
  simp only [get?, List.lookup_eq_none_iff, bne_iff_ne, ne_comm]

/-- Since no name has two entries, the value under a name is that of any entry with the name. -/
theorem get?_eq_some_iff {m : OrderedMap α} {name : String} {value : α} :
    m.get? name = some value ↔ (name, value) ∈ m.entries := by
  rw [get?, List.lookup_eq_some_iff]
  constructor
  · rintro ⟨before, after, entries, -⟩
    rw [entries]
    exact List.mem_append_cons_self
  · intro member
    obtain ⟨before, after, entries⟩ := List.append_of_mem member
    refine ⟨before, after, entries, ?_⟩
    intro e earlier
    have nodup := m.nodup
    rw [entries, List.map_append, List.map_cons, List.nodup_append] at nodup
    have different := nodup.2.2 e.1 (List.mem_map_of_mem earlier) name List.mem_cons_self
    simpa using different.symm

private theorem assign_of_fresh {name : String} (value : α) {l : List (String × α)}
    (fresh : ∀ e ∈ l, e.1 ≠ name) : assign name value l = l ++ [(name, value)] := by
  induction l with
  | nil => rfl
  | cons e rest ih =>
    have first : e.1 ≠ name := fresh e List.mem_cons_self
    have others : ∀ e' ∈ rest, e'.1 ≠ name := fun e' member => fresh e' (.tail e member)
    rw [assign, if_neg first, ih others, List.cons_append]

/-- A name that is new comes last. -/
theorem entries_insert_of_fresh {m : OrderedMap α} {name : String} (fresh : m.get? name = none)
    (value : α) : (m.insert name value).entries = m.entries ++ [(name, value)] :=
  assign_of_fresh value (get?_eq_none_iff.1 fresh)

theorem keys_insert_of_fresh {m : OrderedMap α} {name : String} (fresh : m.get? name = none)
    (value : α) : (m.insert name value).keys = m.keys ++ [name] := by
  rw [keys, entries_insert_of_fresh fresh, List.map_append]
  rfl

theorem get?_eq_none_iff_not_mem_keys {m : OrderedMap α} {name : String} :
    m.get? name = none ↔ name ∉ m.keys := by
  rw [get?_eq_none_iff, keys, List.mem_map]
  constructor
  · rintro absent ⟨e, member, same⟩
    exact absent e member same
  · intro absent e member same
    exact absent ⟨e, member, same⟩

theorem mem_keys_of_get? {m : OrderedMap α} {name : String} {value : α}
    (found : m.get? name = some value) : name ∈ m.keys :=
  List.mem_map.2 ⟨(name, value), get?_eq_some_iff.1 found, rfl⟩

theorem keys_subset_insert (m : OrderedMap α) (name : String) (value : α) :
    m.keys ⊆ (m.insert name value).keys := by
  rw [keys_insert]
  split
  · exact List.Subset.refl _
  · exact List.subset_append_left _ _

theorem mem_keys_insert_self (m : OrderedMap α) (name : String) (value : α) :
    name ∈ (m.insert name value).keys :=
  mem_keys_of_get? (get?_insert_self m name value)

/-- A name that is absent from a first part of the entries is written in the rest of them. -/
theorem assign_append {name : String} {before : List (String × α)}
    (other : name ∉ before.map Prod.fst) (value : α) (after : List (String × α)) :
    assign name value (before ++ after) = before ++ assign name value after := by
  induction before with
  | nil => rfl
  | cons e rest ih =>
    rw [List.map_cons, List.mem_cons, not_or] at other
    rw [List.cons_append, assign, if_neg (Ne.symm other.1), ih other.2, List.cons_append]

end OrderedMap

end ArithCircuit
