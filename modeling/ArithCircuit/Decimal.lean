set_option autoImplicit false
set_option relaxedAutoImplicit false

/-!
# Natural numbers in decimal

Numbers of any size leave and enter the library as decimal text. `Decimal.text` writes the canonical
form and `Decimal.value?` reads one or more ASCII digits; leading zeros are the only freedom. Main
statement: `value?_text`, reading what was written gives the number back.
-/

namespace ArithCircuit.Decimal

/-- The canonical decimal form: no sign, no leading zero. -/
def text (n : Nat) : String := String.ofList (Nat.toDigits 10 n)

/-- The number that one or more ASCII digits denote. Signs, blanks and other characters are refused.
-/
def value? (s : String) : Option Nat :=
  if s.toList ≠ [] ∧ s.toList.all Char.isDigit then some (Nat.ofDigitChars 10 s.toList 0) else none

@[simp] theorem toList_text (n : Nat) : (text n).toList = Nat.toDigits 10 n := by
  simp [text]

theorem all_isDigit_toDigits (n : Nat) : (Nat.toDigits 10 n).all Char.isDigit = true :=
  List.all_eq_true.2 fun _ h => Nat.isDigit_of_mem_toDigits (by decide) (by decide) h

@[simp] theorem value?_text (n : Nat) : value? (text n) = some n := by
  simp only [value?, toList_text, all_isDigit_toDigits, and_true]
  rw [if_pos Nat.toDigits_ne_nil, Nat.ofDigitChars_ten_toDigits]

end ArithCircuit.Decimal
