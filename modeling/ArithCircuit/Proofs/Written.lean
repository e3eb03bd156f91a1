import ArithCircuit.Json.Value
import ArithCircuit.Proofs.Spelling

set_option autoImplicit false
set_option relaxedAutoImplicit false

/-!
# What is written can be read

A value that is written in either style spells its tree, so the text is read as that tree again. The
only condition is that its numbers fit into 64 bits, as all others would lose digits. Main
statement: `Value.isSpelledBy`.
-/

namespace ArithCircuit.Json

/-! ### The tree of a value -/

namespace Value

mutual

/-- The tree that a value is read as. -/
def tree : Value → Tree
  | null => .null
  | bool b => .bool b
  | number n => .number (.natural n)
  | string s => .string s
  | array items => .array (treeItems items) .closed
  | object members => .object (treeMembers members) .closed

/-- The trees of the items of an array. -/
def treeItems : List Value → List Tree
  | [] => []
  | v :: vs => v.tree :: treeItems vs

/-- The trees of the members of an object. -/
def treeMembers : List (String × Value) → List (Label × Tree)
  | [] => []
  | (key, v) :: ms => (.text key, v.tree) :: treeMembers ms

end

mutual

/-- Whether all numbers in a value fit into 64 bits. -/
def isExact : Value → Bool
  | number n => n ≤ maxSignificand
  | array items => allExact items
  | object members => membersExact members
  | _ => true

/-- Whether all numbers in the items of an array fit into 64 bits. -/
def allExact : List Value → Bool
  | [] => true
  | v :: vs => v.isExact && allExact vs

/-- Whether all numbers in the members of an object fit into 64 bits. -/
def membersExact : List (String × Value) → Bool
  | [] => true
  | (_, v) :: ms => v.isExact && membersExact ms

end

theorem allExact_iff {vs : List Value} : allExact vs = true ↔ ∀ v ∈ vs, v.isExact = true := by
  induction vs with
  | nil => simp [allExact]
  | cons v vs ih => simp [allExact, ih]

theorem membersExact_iff {ms : List (String × Value)} :
    membersExact ms = true ↔ ∀ m ∈ ms, m.2.isExact = true := by
  induction ms with
  | nil => simp [membersExact]
  | cons m ms ih => simp [membersExact, ih]

theorem isExact_texts (l : List String) : (texts l).isExact = true := by
  rw [texts, isExact, allExact_iff, List.forall_mem_map]
  intro s _
  rfl

end Value

/-! ### Numbers -/

/-- The decimal form of a number other than zero does not begin with a zero. -/
theorem head?_toDigits_ne {n : Nat} (positive : 0 < n) : (Nat.toDigits 10 n).head? ≠ some '0' := by
  induction n using Nat.strongRecOn with
  | ind n ih =>
    by_cases small : n < 10
    · have digits : ∀ d < 10, 0 < d → [Nat.digitChar d].head? ≠ some '0' := by decide
      rw [Nat.toDigits_of_lt_base small]
      exact digits n small positive
    · have whole : 0 < n / 10 := by omega
      have first := ih (n / 10) (by omega) whole
      rw [Nat.toDigits_of_base_le (by decide) (by omega), List.head?_append]
      cases head : (Nat.toDigits 10 (n / 10)).head? with
      | none => exact absurd (List.head?_eq_none_iff.1 head) Nat.toDigits_ne_nil
      | some d =>
        rw [head] at first
        exact first

theorem isDigits_toDigits (n : Nat) : IsDigits (Nat.toDigits 10 n) :=
  ⟨Nat.toDigits_ne_nil, fun _ member => Nat.isDigit_of_mem_toDigits (by decide) (by decide) member⟩

theorem spells_number {n : Nat} (small : n ≤ maxSignificand) :
    Tree.Spells (.number (.natural n)) (Nat.toDigits 10 n) := by
  have noZero : (Nat.toDigits 10 n).head? = some '0' → Nat.toDigits 10 n = ['0'] := by
    intro zero
    rcases Nat.eq_zero_or_pos n with rfl | positive
    · rfl
    · exact absurd zero (head?_toDigits_ne positive)
  have spells := @SpellsNumber.parts false _ _ _ _ _ (isDigits_toDigits n) noZero .none .none
  simp only [Bool.false_eq_true, if_false, List.nil_append, List.append_nil] at spells
  have value : NumberText.value? ⟨false, Nat.toDigits 10 n, none, none⟩ = some (.natural n) := by
    simp [NumberText.value?, Nat.ofDigitChars_ten_toDigits, small]
  exact .number spells value

/-! ### Strings -/

theorem hexValue?_hexDigit : ∀ n < 16, hexValue? (hexDigit n) = some n := by decide

/-- The escape of a control character by its number. -/
theorem spellsChar_control {c : Char} (control : c.toNat < 0x20) :
    SpellsChar c ['\\', 'u', '0', '0', hexDigit (c.toNat / 16), hexDigit (c.toNat % 16)] := by
  have high := hexValue?_hexDigit (c.toNat / 16) (by omega)
  have low := hexValue?_hexDigit (c.toNat % 16) (by omega)
  have zero : hexValue? '0' = some 0 := rfl
  have unit := SpellsUnit.digits zero zero high low
  have sum : ((0 * 16 + 0) * 16 + c.toNat / 16) * 16 + c.toNat % 16 = c.toNat := by omega
  rw [sum] at unit
  have notTrailing : isTrailing c.toNat = false := by
    simp only [isTrailing, Bool.and_eq_false_iff, decide_eq_false_iff_not]
    omega
  have notLeading : isLeading c.toNat = false := by
    simp only [isLeading, Bool.and_eq_false_iff, decide_eq_false_iff_not]
    omega
  have spells := SpellsChar.unit unit notTrailing notLeading
  rwa [Char.ofNat_toNat] at spells

/-- The escape of a character spells it. -/
theorem spellsChar_escape (c : Char) : SpellsChar c (escape c) := by
  unfold escape
  split
  case isTrue quote =>
    subst quote
    exact .short rfl
  case isFalse notQuote =>
  split
  case isTrue backslash =>
    subst backslash
    exact .short rfl
  case isFalse notBackslash =>
  split
  case isTrue newline => exact newline ▸ .short rfl
  split
  case isTrue ret => exact ret ▸ .short rfl
  split
  case isTrue tab => exact tab ▸ .short rfl
  split
  case isTrue backspace =>
    have same : Char.ofNat 8 = c := by rw [← backspace, Char.ofNat_toNat]
    exact same ▸ .short rfl
  split
  case isTrue feed =>
    have same : Char.ofNat 12 = c := by rw [← feed, Char.ofNat_toNat]
    exact same ▸ .short rfl
  split
  case isTrue control => exact spellsChar_control control
  case isFalse visible => exact .plain notQuote notBackslash (by omega)

theorem spellsText_escape (cs : List Char) : SpellsText cs (cs.flatMap escape) := by
  induction cs with
  | nil => exact .nil
  | cons c cs ih =>
    rw [List.flatMap_cons]
    exact .cons (spellsChar_escape c) ih

/-! ### Values -/

theorem Style.blanks_gap (style : Style) (level : Nat) : Blanks (style.gap level) := by
  intro c member
  cases style with
  | compact => cases member
  | pretty =>
    rw [Style.gap, List.mem_cons, List.mem_replicate] at member
    rcases member with rfl | ⟨-, rfl⟩ <;> rfl

theorem Style.exists_blanks_colon (style : Style) : ∃ b, Blanks b ∧ style.colon = ':' :: b := by
  cases style with
  | compact => exact ⟨[], blanks_nil, rfl⟩
  | pretty => exact ⟨[' '], by simp [Blanks, isBlank], rfl⟩

namespace Value

mutual

/-- The text of a value in front of a rest spells its tree. -/
theorem exists_spells_onto (style : Style) (level : Nat) :
    (v : Value) → v.isExact = true →
      ∃ s, v.tree.Spells s ∧ ∀ rest, v.onto style level rest = s ++ rest
  | null, _ => ⟨_, .null, fun _ => rfl⟩
  | bool true, _ => ⟨_, .yes, fun _ => rfl⟩
  | bool false, _ => ⟨_, .no, fun _ => rfl⟩
  | number n, exact' => by
    simp only [isExact, decide_eq_true_eq] at exact'
    exact ⟨_, spells_number exact', fun _ => rfl⟩
  | string s, _ => by
    have spells := Tree.Spells.string (spellsText_escape s.toList)
    rw [String.ofList_toList] at spells
    refine ⟨_, spells, ?_⟩
    intro rest
    simp [onto, stringOnto]
  | array [], _ => ⟨_, .emptyArray blanks_nil, fun _ => rfl⟩
  | array (v :: vs), exact' => by
    obtain ⟨s, spells, written⟩ := exists_spells_itemsOnto style level (v :: vs) nofun exact'
    refine ⟨_, .array (style.blanks_gap (level + 1)) spells, ?_⟩
    intro rest
    simp [onto, written]
  | object [], _ => ⟨_, .emptyObject blanks_nil, fun _ => rfl⟩
  | object (m :: ms), exact' => by
    obtain ⟨s, spells, written⟩ := exists_spells_membersOnto style level (m :: ms) nofun exact'
    refine ⟨_, .object (style.blanks_gap (level + 1)) spells, ?_⟩
    intro rest
    simp [onto, written]

theorem exists_spells_itemsOnto (style : Style) (level : Nat) :
    (vs : List Value) → vs ≠ [] → allExact vs = true →
      ∃ s, Tree.SpellsItems (treeItems vs) s ∧ ∀ first rest,
        itemsOnto style level first vs (style.gap level ++ ']' :: rest) =
          (if first then [] else [',']) ++ (style.gap (level + 1) ++ (s ++ rest))
  | [], some', _ => absurd rfl some'
  | [v], _, exact' => by
    simp only [allExact, Bool.and_true] at exact'
    obtain ⟨s, spells, written⟩ := exists_spells_onto style (level + 1) v exact'
    refine ⟨_, .last spells (style.blanks_gap level), ?_⟩
    intro first rest
    simp [itemsOnto, written]
  | v :: w :: vs, _, exact' => by
    rw [allExact, Bool.and_eq_true] at exact'
    obtain ⟨s, spells, written⟩ := exists_spells_onto style (level + 1) v exact'.1
    obtain ⟨u, others, written'⟩ := exists_spells_itemsOnto style level (w :: vs) nofun exact'.2
    refine ⟨_, .more spells blanks_nil (style.blanks_gap (level + 1)) others, ?_⟩
    intro first rest
    rw [itemsOnto, written', written]
    simp

theorem exists_spells_membersOnto (style : Style) (level : Nat) :
    (ms : List (String × Value)) → ms ≠ [] → membersExact ms = true →
      ∃ s, Tree.SpellsMembers (treeMembers ms) s ∧ ∀ first rest,
        membersOnto style level first ms (style.gap level ++ '\x7d' :: rest) =
          (if first then [] else [',']) ++ (style.gap (level + 1) ++ '"' :: (s ++ rest))
  | [], some', _ => absurd rfl some'
  | [(key, v)], _, exact' => by
    simp only [membersExact, Bool.and_true] at exact'
    obtain ⟨s, spells, written⟩ := exists_spells_onto style (level + 1) v exact'
    obtain ⟨b, blank, colon⟩ := style.exists_blanks_colon
    have name := spellsText_escape key.toList
    have member := Tree.SpellsMembers.last name blanks_nil blank spells (style.blanks_gap level)
    rw [String.ofList_toList] at member
    refine ⟨_, member, ?_⟩
    intro first rest
    simp [membersOnto, stringOnto, written, colon]
  | (key, v) :: m :: ms, _, exact' => by
    rw [membersExact, Bool.and_eq_true] at exact'
    obtain ⟨s, spells, written⟩ := exists_spells_onto style (level + 1) v exact'.1
    obtain ⟨u, others, written'⟩ := exists_spells_membersOnto style level (m :: ms) nofun exact'.2
    obtain ⟨b, blank, colon⟩ := style.exists_blanks_colon
    have name := spellsText_escape key.toList
    have member := Tree.SpellsMembers.more name blanks_nil blank spells blanks_nil
      (style.blanks_gap (level + 1)) others
    rw [String.ofList_toList] at member
    refine ⟨_, member, ?_⟩
    intro first rest
    rw [membersOnto, written', written]
    simp [stringOnto, colon]

end

end Value

/-- The text of a value spells the tree of the value, also with blanks behind it. -/
theorem Value.isSpelledBy {v : Value} (exact' : v.isExact = true) (style : Style) {text : String}
    {b : List Char} (after : Blanks b) (whole : text.toList = (v.text style).toList ++ b) :
    v.tree.IsSpelledBy text := by
  obtain ⟨s, spells, written⟩ := Value.exists_spells_onto style 0 v exact'
  refine ⟨[], s, b, blanks_nil, spells, after, ?_⟩
  rw [whole, Value.text, String.toList_ofList, written, List.append_nil, List.nil_append]

end ArithCircuit.Json
