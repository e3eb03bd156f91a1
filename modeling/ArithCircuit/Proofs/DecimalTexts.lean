import ArithCircuit.Proofs.ScannedTokens
import ArithCircuit.Proofs.WholeTrees

set_option autoImplicit false
set_option relaxedAutoImplicit false

/-!
# Numbers of any size in JSON texts

Where a text holds a natural number, an integer below `2 ^ 64` or a string of digits may stand, and
nothing else. `Denotes` says by the grammar which texts stand for which number. Main statements:
`Schema.read_decimal_iff`, exactly these texts are read, and `Decimal.isCanonical_iff`, what is
written is the one canonical form.
-/

namespace ArithCircuit

open Json (IsDigits)

/-! ### The canonical form -/

namespace Decimal

theorem digitChar_of_isDigit {c : Char} (digit : c.isDigit = true) :
    c.toNat - '0'.toNat < 10 ∧ Nat.digitChar (c.toNat - '0'.toNat) = c := by
  obtain ⟨low, high⟩ := Char.isDigit_iff_toNat.1 digit
  have zero : '0'.toNat = 48 := rfl
  have nine : '9'.toNat = 57 := rfl
  have small : c.toNat - '0'.toNat < 10 := by omega
  refine ⟨small, Char.toNat_inj.1 ?_⟩
  rw [Nat.toNat_digitChar_of_lt_ten small]
  omega

/-- Digits behind the canonical form of a number other than zero give a canonical form. -/
theorem toDigits_append_digits {ds : List Char} (digits : ∀ d ∈ ds, d.isDigit = true) {n : Nat}
    (positive : 0 < n) :
    Nat.toDigits 10 n ++ ds = Nat.toDigits 10 (Nat.ofDigitChars 10 ds n) := by
  induction ds generalizing n with
  | nil => rw [Nat.ofDigitChars_nil, List.append_nil]
  | cons d ds ih =>
    obtain ⟨small, same⟩ := digitChar_of_isDigit (digits d List.mem_cons_self)
    have next := Nat.toDigits_append_toDigits (b := 10) (by decide) positive small
    rw [Nat.toDigits_of_lt_base small, same] at next
    rw [Nat.ofDigitChars_cons, ← ih (fun d member => digits d (.tail _ member)) (by omega), ← next,
      List.append_assoc, List.singleton_append]

/-- Digits with no zero in front are the canonical form of the number that they denote. -/
theorem toDigits_ofDigitChars {ds : List Char} (digits : IsDigits ds)
    (noZero : ds.head? = some '0' → ds = ['0']) :
    Nat.toDigits 10 (Nat.ofDigitChars 10 ds 0) = ds := by
  obtain ⟨d, ds, rfl⟩ := List.exists_cons_of_ne_nil digits.1
  obtain ⟨small, same⟩ := digitChar_of_isDigit (digits.2 d List.mem_cons_self)
  rw [Nat.ofDigitChars_cons, Nat.mul_zero, Nat.zero_add]
  rcases Nat.eq_zero_or_pos (d.toNat - '0'.toNat) with zero | positive
  · rw [zero] at same
    subst same
    obtain ⟨-, rfl⟩ := List.cons.inj (noZero rfl)
    rfl
  · have rest := toDigits_append_digits (fun d member => digits.2 d (.tail _ member)) positive
    rw [← rest, Nat.toDigits_of_lt_base small, same, List.singleton_append]

/-- The digits of a number with no zero in front, unless it is zero. -/
def IsCanonical (s : String) (n : Nat) : Prop :=
  IsDigits s.toList ∧ (s.toList.head? = some '0' → s.toList = ['0']) ∧
    Nat.ofDigitChars 10 s.toList 0 = n

/-- Each number has exactly one canonical form, and that is what is written. -/
theorem isCanonical_iff {s : String} {n : Nat} : IsCanonical s n ↔ s = text n := by
  constructor
  · rintro ⟨digits, noZero, rfl⟩
    rw [← String.toList_inj, toList_text, toDigits_ofDigitChars digits noZero]
  · rintro rfl
    rw [IsCanonical, toList_text]
    refine ⟨Json.isDigits_toDigits n, ?_, Nat.ofDigitChars_ten_toDigits⟩
    intro zero
    rcases Nat.eq_zero_or_pos n with rfl | positive
    · rfl
    · exact absurd zero (Json.head?_toDigits_ne positive)

theorem value?_eq_some_iff {s : String} {n : Nat} :
    value? s = some n ↔ IsDigits s.toList ∧ Nat.ofDigitChars 10 s.toList 0 = n := by
  rw [value?]
  split
  case isTrue digits =>
    rw [Option.some.injEq]
    exact ⟨fun same => ⟨⟨digits.1, List.all_eq_true.1 digits.2⟩, same⟩, And.right⟩
  case isFalse other =>
    constructor
    · intro same
      cases same
    · rintro ⟨digits, -⟩
      exact absurd ⟨digits.1, List.all_eq_true.2 digits.2⟩ other

end Decimal

namespace Json

/-! ### Tokens -/

/-- The tokens that stand for a natural number in the place of a decimal: integers with neither
fraction nor exponent below `2 ^ 64`, and strings of digits. A zero with a minus sign is no
integer. -/
inductive SpellsDecimal : Nat → List Char → Prop where
  | integer {isNegative : Bool} {whole s : List Char} {n : Nat} :
      SpellsNumber ⟨isNegative, whole, none, none⟩ s → s ≠ ['-', '0'] →
      (if isNegative then -(Nat.ofDigitChars 10 whole 0 : Int)
        else Nat.ofDigitChars 10 whole 0) = (n : Int) →
      n < Nat.pow 2 64 → SpellsDecimal n s
  | string {ds s : List Char} : IsDigits ds → SpellsText ds s →
      SpellsDecimal (Nat.ofDigitChars 10 ds 0) ('"' :: (s ++ ['"']))

/-- A text is a token for a natural number with blanks around it. -/
def Denotes (text : String) (n : Nat) : Prop :=
  ∃ b s b', Blanks b ∧ SpellsDecimal n s ∧ Blanks b' ∧ text.toList = b ++ (s ++ b')

/-- The natural number that a tree stands for. -/
def Tree.decimal? : Tree → Option Nat
  | .number (.natural n) => some n
  | .string s => Decimal.value? s
  | _ => none

theorem Tree.decimal?_eq_some_iff {t : Tree} {n : Nat} :
    t.decimal? = some n ↔
      t = .number (.natural n) ∨ ∃ s, t = .string s ∧ Decimal.value? s = some n := by
  unfold decimal?
  split <;> simp_all

/-- The value of a number is natural exactly if it is an integer that 64 bits hold. -/
theorem NumberText.value?_eq_natural_iff {t : NumberText} {n : Nat} :
    t.value? = some (.natural n) ↔
      t.isNegative = false ∧ t.fraction = none ∧ t.exponent = none ∧
        Nat.ofDigitChars 10 t.whole 0 = n ∧ n ≤ maxSignificand := by
  have real : t.real? ≠ some (.natural n) := by
    rw [real?]
    intro same
    obtain ⟨_, -, ⟨⟩⟩ := Option.map_eq_some_iff.1 same
  rw [value?]
  split
  case isTrue plain =>
    rw [Option.isNone_iff_eq_none, Option.isNone_iff_eq_none] at plain
    dsimp only
    split
    case isTrue negative =>
      have refused : ¬t.isNegative = false := by simp [negative]
      split
      case isTrue => simp [refused]
      case isFalse => simp [refused, real]
    case isFalse positive =>
      rw [Bool.not_eq_true] at positive
      split
      case isTrue small =>
        constructor
        · rintro ⟨⟩
          exact ⟨positive, plain.1, plain.2, rfl, small⟩
        · rintro ⟨-, -, -, rfl, -⟩
          rfl
      case isFalse large =>
        constructor
        · exact fun same => absurd same real
        · rintro ⟨-, -, -, rfl, small⟩
          exact absurd small large
  case isFalse other =>
    constructor
    · exact fun same => absurd same real
    · rintro ⟨-, fraction, exponent, -⟩
      exact absurd ⟨by rw [fraction]; rfl, by rw [exponent]; rfl⟩ other

/-- Without a minus sign a number begins with a digit. -/
theorem SpellsNumber.head_isDigit {t : NumberText} {s : List Char} (spells : SpellsNumber t s)
    (positive : t.isNegative = false) : ∃ d ds, s = d :: ds ∧ d.isDigit = true := by
  cases spells with
  | @parts isNegative whole _ _ _ _ digits =>
    obtain ⟨d, ds, rfl⟩ := List.exists_cons_of_ne_nil digits.1
    change isNegative = false at positive
    subst positive
    exact ⟨d, _, rfl, digits.2 d List.mem_cons_self⟩

/-- A token for a natural number spells a tree that stands for it, and no other text does. -/
theorem spellsDecimal_iff {n : Nat} {s : List Char} :
    SpellsDecimal n s ↔ ∃ t : Tree, t.Spells s ∧ t.decimal? = some n := by
  constructor
  · intro spells
    cases spells with
    | @integer isNegative whole _ _ spells notZero value small =>
      cases isNegative with
      | true =>
        -- Only zero is natural with a minus sign, and its digits are the one that is ruled out.
        rw [if_pos rfl] at value
        have zero : Nat.ofDigitChars 10 whole 0 = 0 := by omega
        cases spells with
        | parts digits noZero fraction exponent =>
          cases fraction
          cases exponent
          have same := Decimal.toDigits_ofDigitChars digits noZero
          rw [zero] at same
          subst same
          exact absurd rfl notZero
      | false =>
        rw [if_neg Bool.false_ne_true] at value
        have same : Nat.ofDigitChars 10 whole 0 = n := by omega
        have bound : n ≤ maxSignificand := Nat.le_sub_one_of_lt small
        exact ⟨_, .number spells (NumberText.value?_eq_natural_iff.2 ⟨rfl, rfl, rfl, same, bound⟩),
          rfl⟩
    | @string ds s digits spells =>
      refine ⟨_, .string spells, Decimal.value?_eq_some_iff.2 ?_⟩
      rw [String.toList_ofList]
      exact ⟨digits, rfl⟩
  · rintro ⟨t, spells, value⟩
    rcases Tree.decimal?_eq_some_iff.1 value with rfl | ⟨str, rfl, value⟩
    · cases spells with
      | @number text _ _ spells number =>
        obtain ⟨isNegative, whole, fraction, exponent⟩ := text
        obtain ⟨rfl, rfl, rfl, rfl, bound⟩ := NumberText.value?_eq_natural_iff.1 number
        have small := Nat.lt_of_le_pred (Nat.two_pow_pos 64) bound
        refine .integer spells ?_ rfl small
        rintro rfl
        obtain ⟨_, _, ⟨⟩, digit⟩ := spells.head_isDigit rfl
        cases digit
    · cases spells with
      | string inside =>
        obtain ⟨digits, rfl⟩ := Decimal.value?_eq_some_iff.1 value
        rw [String.toList_ofList] at digits ⊢
        exact .string digits inside

/-! ### Whole texts -/

theorem blanks_of_dropBlanks {r : List Char} (dropped : dropBlanks r = []) : Blanks r := by
  obtain ⟨b, blank, whole⟩ := exists_blanks r
  rw [dropped, List.append_nil] at whole
  rwa [whole]

theorem Tree.isScalar_of_decimal? {t : Tree} {n : Nat} (value : t.decimal? = some n) :
    t.IsScalar := by
  rcases Tree.decimal?_eq_some_iff.1 value with rfl | ⟨_, rfl, -⟩ <;> trivial

theorem Tree.isWhole_of_decimal? {t : Tree} {n : Nat} (value : t.decimal? = some n) :
    t.isWhole = true := by
  rcases Tree.decimal?_eq_some_iff.1 value with rfl | ⟨_, rfl, -⟩ <;> rfl

/-- A text stands for a number exactly if the tree at its root does and nothing follows. -/
theorem denotes_iff {text : String} {n : Nat} :
    Denotes text n ↔
      (Document.ofText text).root.decimal? = some n ∧ (Document.ofText text).isAlone = true := by
  constructor
  · rintro ⟨b, s, b', before, token, after, whole⟩
    obtain ⟨t, spells, value⟩ := spellsDecimal_iff.1 token
    rw [Document.ofText_of_spelled ⟨b, s, b', before, spells, after, whole⟩]
    exact ⟨value, rfl⟩
  · rintro ⟨value, alone⟩
    have scanned : scanValue (2 * text.toList.length + 2) text.toList =
        ((Document.ofText text).root, (scanValue (2 * text.toList.length + 2) text.toList).2) := rfl
    have scalar := Tree.isScalar_of_decimal? value
    obtain ⟨b, s, r, left, before, whole, spells⟩ := scanValue_scalar scanned scalar
    have token := spellsDecimal_iff.2 ⟨_, spells, value⟩
    have rest : ((some r).map fun rest => (dropBlanks rest).isEmpty).getD true = true := by
      rw [← left]
      exact alone
    exact ⟨b, s, r, before, token, blanks_of_dropBlanks (List.isEmpty_iff.1 rest), whole⟩

/-! ### Readers -/

namespace Layer

variable {ρ α : Type}

theorem mismatch_ne_ok (expected : String) (layer : Layer ρ) (a : α) :
    layer.mismatch expected ≠ .ok a := by
  intro done
  obtain ⟨_, -, ⟨⟩⟩ := Result.bind_eq_ok_iff.1 done

theorem asDecimal_eq_ok_iff {layer : Layer ρ} {n : Nat} :
    layer.asDecimal = .ok n ↔
      layer = .number (.natural n) ∨ ∃ s, layer = .string s ∧ Decimal.value? s = some n := by
  unfold asDecimal
  split
  · simp
  · simp [ShapeError.raise]
  · next s =>
    split
    · next value => simp [value]
    · next value => simp [value, ShapeError.raise]
  · next number negative string =>
    have refused := mismatch_ne_ok "a non-negative integer or its decimal string" layer n
    constructor
    · exact fun done => absurd done refused
    · rintro (rfl | ⟨s, rfl, -⟩)
      · exact absurd rfl (number n)
      · exact absurd rfl (string s)

end Layer

/-- The layer at the root of a tree, with readers for what is below it. -/
def Schema.top (S : Schema) : Tree → Layer (Reader S.Carrier)
  | .null => .null
  | .bool b => .bool b
  | .number n => .number n
  | .string s => .string s
  | .array items ending => .array (items.map S.reader) ending
  | .object members ending => .object (S.readers members) ending
  | .unreadable => .unreadable
  | .broken cut => .broken cut

theorem Schema.reader_eq (S : Schema) (t : Tree) : S.reader t = S.ofLayer (S.top t) := by
  cases t with
  | array items ending => exact S.reader_array items ending
  | object members ending => exact S.reader_object members ending
  | _ => rfl

theorem Schema.asDecimal_top_iff (S : Schema) {t : Tree} {n : Nat} :
    (S.top t).asDecimal = .ok n ↔ t.decimal? = some n := by
  rw [Layer.asDecimal_eq_ok_iff, Tree.decimal?_eq_some_iff]
  cases t <;> simp [Schema.top]

/-- In the place of a decimal exactly the texts are read that stand for a number. -/
theorem Schema.read_decimal_iff (S : Schema) {s : S.Slot} {a : S.Carrier s} {n : Nat}
    (decimal : ∀ layer, S.readLayer s layer = .ok a ↔ layer.asDecimal = .ok n) {text : String} :
    S.read s text = .ok a ↔ Denotes text n := by
  rw [Schema.read_eq_ok_iff, Schema.reader_eq, denotes_iff, ← S.asDecimal_top_iff, ← decimal]
  rfl

end Json

end ArithCircuit
