import ArithCircuit.Json.Token

set_option autoImplicit false
set_option relaxedAutoImplicit false

/-!
# Numbers in JSON texts

Integers of 64 bits stay exact and every other number becomes a binary64 value, if it is finite. The
text of a number is taken apart first, and `NumberText.value?` says what the parts denote.
-/

namespace ArithCircuit.Json

/-- The greatest significand that is kept exactly while a number is read. -/
def maxSignificand : Nat := Nat.pow 2 64 - 1

/-- Append digits to a significand as long as it stays in its bound; the digits left over come back.
-/
def gatherDigits : Nat → List Char → Nat × List Char
  | significand, [] => (significand, [])
  | significand, d :: ds =>
    let next := significand * 10 + (d.toNat - '0'.toNat)
    if next ≤ maxSignificand then gatherDigits next ds else (significand, d :: ds)

/-- The parts of a number's text: sign, digits before the point, digits behind it, and the value of
the exponent part. -/
structure NumberText where
  isNegative : Bool
  whole : List Char
  fraction : Option (List Char)
  exponent : Option Int

/-- The value of a number, if it is finite. The first twenty or so digits count; those of the whole
part that do not fit raise the exponent, and those of the fraction that do not fit are dropped. -/
def NumberText.real? (t : NumberText) : Option Number :=
  let (kept, surplus) := gatherDigits 0 t.whole
  let fraction := t.fraction.getD []
  let (significand, unread) := gatherDigits kept fraction
  let exponent : Int := (surplus.length : Int) - ((fraction.length : Int) - unread.length) +
    t.exponent.getD 0
  (Binary64.ofScientific? significand exponent).map (.real t.isNegative)

/-- The number that a text denotes, or nothing if it is beyond the finite values. An integer stays
exact if 64 bits can hold it; zero with a minus sign is not an integer. -/
def NumberText.value? (t : NumberText) : Option Number :=
  if t.fraction.isNone ∧ t.exponent.isNone then
    let n := Nat.ofDigitChars 10 t.whole 0
    if t.isNegative then
      if 1 ≤ n ∧ n ≤ Nat.pow 2 63 then some (.negative n) else t.real?
    else if n ≤ maxSignificand then some (.natural n)
    else t.real?
  else t.real?

/-- The tree of a number. -/
def NumberText.tree (t : NumberText) : Tree :=
  match t.value? with
  | some n => .number n
  | none => .unreadable

/-- A cut inside a number: digits were wanted, and the text ended or went on with something else. -/
def lackingDigits (s : List Char) : Scanned :=
  (.broken (.number (if s.isEmpty then .truncated else .malformed)), none)

/-- The sign and digits of the exponent part, behind its letter. -/
def scanExponent (t : NumberText) (s : List Char) : Scanned :=
  let (isNegative, s) := match s with
    | '+' :: rest => (false, rest)
    | '-' :: rest => (true, rest)
    | s => (false, s)
  let digits := s.takeWhile Char.isDigit
  if digits.isEmpty then lackingDigits s
  else
    let n : Int := Nat.ofDigitChars 10 digits 0
    ({ t with exponent := some (if isNegative then -n else n) }.tree,
      some (s.dropWhile Char.isDigit))

/-- What follows the digits of a number. -/
def scanScale (t : NumberText) : List Char → Scanned
  | 'e' :: rest => scanExponent t rest
  | 'E' :: rest => scanExponent t rest
  | rest => (t.tree, some rest)

/-- A number behind its sign. No further digit may follow a leading zero, and digits must stand on
both sides of a point. -/
def scanNumber (isNegative : Bool) (s : List Char) : Scanned :=
  let digits := s.takeWhile Char.isDigit
  let rest := s.dropWhile Char.isDigit
  if digits.isEmpty then lackingDigits s
  else if digits.head? = some '0' ∧ 1 < digits.length then (.broken (.number .malformed), none)
  else
    let t : NumberText := ⟨isNegative, digits, none, none⟩
    match rest with
    | '.' :: rest =>
      let fraction := rest.takeWhile Char.isDigit
      if fraction.isEmpty then lackingDigits rest
      else scanScale { t with fraction := some fraction } (rest.dropWhile Char.isDigit)
    | rest => scanScale t rest

end ArithCircuit.Json
