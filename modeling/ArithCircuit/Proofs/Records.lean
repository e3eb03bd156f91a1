import ArithCircuit.Json.Schema

set_option autoImplicit false
set_option relaxedAutoImplicit false

/-!
# What is read from an object

A record is read member by member, in the order of the text. What comes out does not depend on that
order: for each field it is what stands under the name of the field, if that is one member, or what
holds for an absent field. `Record.gather` says this without any order among the members. Main
statement: `Record.ofMembers_eq_ok_iff`.
-/

namespace ArithCircuit.Json

variable {Slot : Type} {Carrier : Slot → Type} {α : Type}

/-! ### Readings in sequence -/

namespace Result

variable {β : Type} {x : Result α} {b : β}

theorem map_eq_ok_iff {f : α → β} : x.map f = .ok b ↔ ∃ a, x = .ok a ∧ f a = b := by
  cases x <;> simp [Except.map]

theorem bind_eq_ok_iff {f : α → Result β} : x >>= f = .ok b ↔ ∃ a, x = .ok a ∧ f a = .ok b := by
  cases x <;> simp [bind, Except.bind]

theorem toOption_eq_some_iff {a : α} : x.toOption = some a ↔ x = .ok a := by
  cases x <;> simp [Except.toOption]

end Result

/-! ### The value of a field -/

namespace Record

/-- The readers that stand under a name. -/
def under (name : String) : List (Label × Reader Carrier) → List (Reader Carrier)
  | [] => []
  | (.text key, r) :: members => if key = name then r :: under name members else under name members
  | _ :: members => under name members

theorem under_append (name : String) (before after : List (Label × Reader Carrier)) :
    under name (before ++ after) = under name before ++ under name after := by
  induction before with
  | nil => rfl
  | cons member before ih =>
    obtain ⟨_ | _ | _, r⟩ := member
    · rw [List.cons_append, under, under, ih]
      split <;> rfl
    · exact ih
    · exact ih

theorem under_cons_self (name : String) (r : Reader Carrier)
    (members : List (Label × Reader Carrier)) :
    under name ((.text name, r) :: members) = r :: under name members := by
  rw [under, if_pos rfl]

theorem under_cons_of_ne {key name : String} (different : key ≠ name) (r : Reader Carrier)
    (members : List (Label × Reader Carrier)) :
    under name ((.text key, r) :: members) = under name members := by
  rw [under, if_neg different]

/-- The order of the members does not change what stands under a name, but for its order. -/
theorem under_perm {members members' : List (Label × Reader Carrier)}
    (permuted : members.Perm members') (name : String) :
    (under name members).Perm (under name members') := by
  induction permuted with
  | nil => exact .nil
  | @cons member _ _ _ ih =>
    obtain ⟨_ | _ | _, r⟩ := member
    · rw [under, under]
      split
      · exact ih.cons r
      · exact ih
    · exact ih
    · exact ih
  | swap first second members =>
    have swapped := List.perm_append_comm_assoc (under name [second]) (under name [first])
      (under name members)
    rw [← under_append, ← under_append, ← under_append, ← under_append] at swapped
    exact swapped
  | trans _ _ ih ih' => exact ih.trans ih'

end Record

/-- What holds for a field that an object does not give, if it may be left out. -/
def Absence.value? {β : Type} : Absence β → Option β
  | required => none
  | default b => some b
  | optional b => some b

/-- The value that the members of an object give to a field. -/
def Field.value? (f : Field Carrier) (members : List (Label × Reader Carrier)) :
    Option (Carrier f.slot) :=
  match Record.under f.name members with
  | [] => f.absence.value?
  | [r] => (r.read f.slot).toOption
  | _ => none

/-- The value of a field does not depend on the order of the members. -/
theorem Field.value?_perm {members members' : List (Label × Reader Carrier)}
    (permuted : members.Perm members') (f : Field Carrier) :
    f.value? members = f.value? members' := by
  have perm := Record.under_perm permuted f.name
  rw [Field.value?, Field.value?]
  cases given : Record.under f.name members with
  | nil =>
    rw [given] at perm
    rw [perm.nil_eq]
  | cons r rest =>
    cases rest with
    | nil =>
      rw [given] at perm
      rw [List.singleton_perm.1 perm]
    | cons r' rest =>
      obtain ⟨s, s', rest', given'⟩ :
          ∃ s s' rest', Record.under f.name members' = s :: s' :: rest' := by
        rw [given] at perm
        match Record.under f.name members', perm.length_eq with
        | s :: s' :: rest', _ => exact ⟨s, s', rest', rfl⟩
      rw [given']

/-- What stands under another name plays no part for a field. -/
theorem Field.value?_of_other {f : Field Carrier} {key : String} (other : key ≠ f.name)
    (before : List (Label × Reader Carrier)) (r : Reader Carrier)
    (after : List (Label × Reader Carrier)) :
    f.value? (before ++ (.text key, r) :: after) = f.value? (before ++ after) := by
  rw [value?, value?, Record.under_append, Record.under_cons_of_ne other, ← Record.under_append]

/-- A member under the name of a field gives the value, if there is no other one. -/
theorem Field.value?_self_iff {f : Field Carrier} {before after : List (Label × Reader Carrier)}
    {r : Reader Carrier} {value : Carrier f.slot} :
    f.value? (before ++ (.text f.name, r) :: after) = some value ↔
      Record.under f.name (before ++ after) = [] ∧ r.read f.slot = .ok value := by
  rw [value?, Record.under_append, Record.under_append, Record.under_cons_self]
  match Record.under f.name before, Record.under f.name after with
  | [], [] => simp [Result.toOption_eq_some_iff]
  | [], _ :: _ => simp
  | _ :: [], [] => simp
  | _ :: [], _ :: _ => simp
  | _ :: _ :: _, _ => simp

namespace Record

/-- The record whose fields have the values that the members of an object give. -/
def gather (members : List (Label × Reader Carrier)) :
    (fs : List (Field Carrier)) → Builder α fs → Option α
  | [], build => some build
  | f :: fs, build => (f.value? members).bind fun value => gather members fs (build value)

/-- A record depends on the values of its fields alone. -/
theorem gather_mono {members members' : List (Label × Reader Carrier)} {fs : List (Field Carrier)}
    {build : Builder α fs} {a : α}
    (kept : ∀ f ∈ fs, ∀ value, f.value? members = some value → f.value? members' = some value)
    (gathered : gather members fs build = some a) : gather members' fs build = some a := by
  induction fs with
  | nil => exact gathered
  | cons f fs ih =>
    obtain ⟨value, given, rest⟩ := Option.bind_eq_some_iff.1 gathered
    rw [gather, kept f List.mem_cons_self value given]
    exact ih (fun g member => kept g (.tail f member)) rest

/-! ### Reading one member after the other -/

/-- How the value of a field changes by what stands under its name in a part of an object: it is
read at most once. -/
inductive Fills (f : Field Carrier) :
    List (Reader Carrier) → Option (Carrier f.slot) → Option (Carrier f.slot) → Prop where
  | none {old : Option (Carrier f.slot)} : Fills f [] old old
  | one {r : Reader Carrier} {value : Carrier f.slot} : r.read f.slot = .ok value →
      Fills f [r] .none (some value)

/-- The filling after a part of an object, field by field. -/
def FillsAll (members : List (Label × Reader Carrier)) :
    (fs : List (Field Carrier)) → Filling fs → Filling fs → Prop
  | [], _, _ => True
  | f :: fs, (old, rest), (new, rest') =>
    Fills f (under f.name members) old new ∧ FillsAll members fs rest rest'

theorem fills_append {f : Field Carrier} {rs rs' : List (Reader Carrier)}
    {old new : Option (Carrier f.slot)} :
    Fills f (rs ++ rs') old new ↔ ∃ mid, Fills f rs old mid ∧ Fills f rs' mid new := by
  constructor
  · intro fills
    match rs, rs', fills with
    | [], _, fills => exact ⟨old, .none, fills⟩
    | [_], [], .one given => exact ⟨_, .one given, .none⟩
  · rintro ⟨mid, first, second⟩
    cases first with
    | none => exact second
    | one given =>
      cases second
      exact .one given

theorem fillsAll_append {members members' : List (Label × Reader Carrier)}
    {fs : List (Field Carrier)} {old new : Filling fs} :
    FillsAll (members ++ members') fs old new ↔
      ∃ mid, FillsAll members fs old mid ∧ FillsAll members' fs mid new := by
  induction fs with
  | nil => exact ⟨fun _ => ⟨(), trivial, trivial⟩, fun _ => trivial⟩
  | cons f fs ih =>
    obtain ⟨old, olds⟩ := old
    obtain ⟨new, news⟩ := new
    simp only [FillsAll, under_append, fills_append, ih]
    constructor
    · rintro ⟨⟨mid, first, second⟩, mids, firsts, seconds⟩
      exact ⟨(mid, mids), ⟨first, firsts⟩, second, seconds⟩
    · rintro ⟨⟨mid, mids⟩, ⟨first, firsts⟩, second, seconds⟩
      exact ⟨⟨mid, first, second⟩, mids, firsts, seconds⟩

/-- What stands under other names fills nothing. -/
theorem fillsAll_of_others {members : List (Label × Reader Carrier)} {fs : List (Field Carrier)}
    (others : ∀ f ∈ fs, under f.name members = []) {old new : Filling fs} :
    FillsAll members fs old new ↔ new = old := by
  induction fs with
  | nil => exact ⟨fun _ => rfl, fun _ => trivial⟩
  | cons f fs ih =>
    obtain ⟨old, olds⟩ := old
    obtain ⟨new, news⟩ := new
    rw [FillsAll, others f List.mem_cons_self, ih fun g member => others g (.tail f member)]
    constructor
    · rintro ⟨⟨⟩, rfl⟩
      rfl
    · rintro ⟨⟩
      exact ⟨.none, rfl⟩

/-- A member is a field of the record, or is passed over. -/
def Passes (fs : List (Field Carrier)) : Label × Reader Carrier → Prop
  | (.text key, r) => key ∉ fs.map Field.name → r.skip = .ok ()
  | _ => False

theorem fill_nil (key : String) (r : Reader Carrier) (filling : Filling []) :
    fill [] key r filling =
      match r.skip with
      | .ok () => .ok filling
      | .error f => f.raise := rfl

theorem fill_cons (f : Field Carrier) (fs : List (Field Carrier)) (key : String)
    (r : Reader Carrier) (old : Option (Carrier f.slot)) (olds : Filling fs) :
    fill (f :: fs) key r (old, olds) =
      if f.name = key then
        match old with
        | some _ => (ShapeError.duplicate key).raise
        | none => (r.read f.slot).map fun value => (some value, olds)
      else (fill fs key r olds).map fun rest => (old, rest) := by
  cases old <;> rfl

theorem fill_eq_ok_iff {fs : List (Field Carrier)} (distinct : (fs.map Field.name).Nodup)
    {key : String} {r : Reader Carrier} {old new : Filling fs} :
    fill fs key r old = .ok new ↔
      Passes fs (.text key, r) ∧ FillsAll [(.text key, r)] fs old new := by
  induction fs with
  | nil =>
    have same : old = new := rfl
    rw [fill_nil]
    cases skipped : r.skip with
    | ok => simp [Passes, FillsAll, skipped, same]
    | error => simp [Passes, skipped, Fault.raise]
  | cons f fs ih =>
    obtain ⟨old, olds⟩ := old
    obtain ⟨new, news⟩ := new
    rw [List.map_cons, List.nodup_cons] at distinct
    rw [fill_cons]
    by_cases same : f.name = key
    · subst same
      have others : ∀ g ∈ fs, under g.name [(.text f.name, r)] = [] := by
        intro g member
        apply under_cons_of_ne
        intro same
        exact distinct.1 (List.mem_map.2 ⟨g, member, same.symm⟩)
      have passes : Passes (f :: fs) (.text f.name, r) := fun absent =>
        absurd (List.mem_map_of_mem List.mem_cons_self) absent
      rw [if_pos rfl, FillsAll, fillsAll_of_others others, under_cons_self]
      constructor
      · intro filled
        cases old with
        | some _ => cases filled
        | none =>
          obtain ⟨value, given, ⟨⟩⟩ := Result.map_eq_ok_iff.1 filled
          exact ⟨passes, .one given, rfl⟩
      · rintro ⟨-, fills, rfl⟩
        cases fills with
        | one given => exact Result.map_eq_ok_iff.2 ⟨_, given, rfl⟩
    · have nothing : under f.name [(.text key, r)] = [] := under_cons_of_ne (Ne.symm same) r []
      have passes : Passes (f :: fs) (.text key, r) ↔ Passes fs (.text key, r) := by
        simp [Passes, Ne.symm same]
      rw [if_neg same, FillsAll, nothing, passes]
      constructor
      · intro filled
        obtain ⟨rest, filled, ⟨⟩⟩ := Result.map_eq_ok_iff.1 filled
        obtain ⟨passed, fills⟩ := (ih distinct.2).1 filled
        exact ⟨passed, .none, fills⟩
      · rintro ⟨passed, ⟨⟩, fills⟩
        exact Result.map_eq_ok_iff.2 ⟨news, (ih distinct.2).2 ⟨passed, fills⟩, rfl⟩

/-- What reading the members of an object does to the values of the fields. -/
theorem fillAll_eq_ok_iff {fs : List (Field Carrier)} (distinct : (fs.map Field.name).Nodup)
    {members : List (Label × Reader Carrier)} {old new : Filling fs} :
    fillAll fs members old = .ok new ↔
      (∀ member ∈ members, Passes fs member) ∧ FillsAll members fs old new := by
  induction members generalizing old with
  | nil =>
    have nothing : FillsAll [] fs old new ↔ new = old := fillsAll_of_others fun _ _ => rfl
    rw [fillAll, nothing]
    simp [eq_comm]
  | cons member members ih =>
    obtain ⟨key | _ | cut, r⟩ := member
    · have split : FillsAll ([(.text key, r)] ++ members) fs old new ↔ _ := fillsAll_append
      rw [List.singleton_append] at split
      rw [split, List.forall_mem_cons]
      constructor
      · intro filled
        obtain ⟨_, ⟨⟩, filled⟩ := Result.bind_eq_ok_iff.1 filled
        obtain ⟨mid, first, rest⟩ := Result.bind_eq_ok_iff.1 filled
        obtain ⟨passes, fills⟩ := (fill_eq_ok_iff distinct).1 first
        obtain ⟨passed, filled⟩ := ih.1 rest
        exact ⟨⟨passes, passed⟩, mid, fills, filled⟩
      · rintro ⟨⟨passes, passed⟩, mid, fills, filled⟩
        have first := (fill_eq_ok_iff distinct).2 ⟨passes, fills⟩
        have rest := ih.2 ⟨passed, filled⟩
        exact Result.bind_eq_ok_iff.2 ⟨key, rfl, Result.bind_eq_ok_iff.2 ⟨mid, first, rest⟩⟩
    · constructor
      · intro filled
        obtain ⟨_, ⟨⟩, -⟩ := Result.bind_eq_ok_iff.1 filled
      · rintro ⟨passes, -⟩
        exact (passes _ List.mem_cons_self).elim
    · constructor
      · intro filled
        obtain ⟨_, ⟨⟩, -⟩ := Result.bind_eq_ok_iff.1 filled
      · rintro ⟨passes, -⟩
        exact (passes _ List.mem_cons_self).elim

theorem finish_cons (f : Field Carrier) (fs : List (Field Carrier)) (build : Builder α (f :: fs))
    (value : Option (Carrier f.slot)) (rest : Filling fs) :
    finish (f :: fs) build (value, rest) =
      match value.or f.absence.value? with
      | some value => finish fs (build value) rest
      | none => (ShapeError.missing f.name).raise := by
  obtain ⟨name, slot, absence⟩ := f
  cases value <;> cases absence <;> rfl

/-- The value that a field ends with, if it has none at first. -/
theorem fills_none_iff {f : Field Carrier} {members : List (Label × Reader Carrier)}
    {value : Carrier f.slot} :
    (∃ new, Fills f (under f.name members) none new ∧ new.or f.absence.value? = some value) ↔
      f.value? members = some value := by
  rw [Field.value?]
  generalize under f.name members = rs
  match rs with
  | [] =>
    constructor
    · rintro ⟨_, ⟨⟩, ends⟩
      exact ends
    · intro absent
      exact ⟨none, .none, absent⟩
  | [r] =>
    constructor
    · rintro ⟨_, fills, ends⟩
      cases fills with
      | one given =>
        cases ends
        exact Result.toOption_eq_some_iff.2 given
    · intro given
      exact ⟨some value, .one (Result.toOption_eq_some_iff.1 given), rfl⟩
  | _ :: _ :: _ =>
    constructor
    · rintro ⟨_, ⟨⟩, -⟩
    · rintro ⟨⟩

/-- The fields of an object make the record that their values make. -/
theorem exists_finish_iff {fs : List (Field Carrier)} {build : Builder α fs} {a : α}
    {members : List (Label × Reader Carrier)} :
    (∃ filling, FillsAll members fs (Filling.none fs) filling ∧ finish fs build filling = .ok a) ↔
      gather members fs build = some a := by
  induction fs with
  | nil =>
    constructor
    · rintro ⟨_, -, ⟨⟩⟩
      rfl
    · rintro ⟨⟩
      exact ⟨(), trivial, rfl⟩
  | cons f fs ih =>
    rw [gather, Option.bind_eq_some_iff]
    constructor
    · rintro ⟨⟨new, news⟩, ⟨fills, fillsAll⟩, finished⟩
      rw [finish_cons] at finished
      cases ends : new.or f.absence.value? with
      | none =>
        rw [ends] at finished
        cases finished
      | some value =>
        rw [ends] at finished
        exact ⟨value, fills_none_iff.1 ⟨new, fills, ends⟩, ih.1 ⟨news, fillsAll, finished⟩⟩
    · rintro ⟨value, given, gathered⟩
      obtain ⟨new, fills, ends⟩ := fills_none_iff.2 given
      obtain ⟨news, fillsAll, finished⟩ := ih.2 gathered
      refine ⟨(new, news), ⟨fills, fillsAll⟩, ?_⟩
      rw [finish_cons, ends]
      exact finished

/-- A record is read from an object exactly if each member is a field or can be passed over, and the
fields then have values that make the record. The order of the members plays no part. -/
theorem ofMembers_eq_ok_iff {fs : List (Field Carrier)} (distinct : (fs.map Field.name).Nodup)
    {build : Builder α fs} {members : List (Label × Reader Carrier)} {a : α} :
    ofMembers fs build members .closed = .ok a ↔
      (∀ member ∈ members, Passes fs member) ∧ gather members fs build = some a := by
  rw [ofMembers, Result.bind_eq_ok_iff, ← exists_finish_iff]
  constructor
  · rintro ⟨filling, filled, finished⟩
    obtain ⟨_, -, finished⟩ := Result.bind_eq_ok_iff.1 finished
    obtain ⟨passes, fills⟩ := (fillAll_eq_ok_iff distinct).1 filled
    exact ⟨passes, filling, fills, finished⟩
  · rintro ⟨passes, filling, fills, finished⟩
    exact ⟨filling, (fillAll_eq_ok_iff distinct).2 ⟨passes, fills⟩, finished⟩

end Record

end ArithCircuit.Json
