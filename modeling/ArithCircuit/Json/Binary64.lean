set_option autoImplicit false
set_option relaxedAutoImplicit false

/-!
# Binary floating point, exactly

A JSON number with a fraction or an exponent is read as a binary64 value. No such value is ever
stored in a program, but diagnostics quote it and a number beyond the largest one is refused, so the
value and its shortest decimal text must be right to the last digit. All of it is done in exact
arithmetic on naturals: `nearest?` rounds a ratio to the grid of binary64, and `shortest` finds the
fewest digits that read back as the same value.
-/

namespace ArithCircuit.Json

/-- A finite binary64 magnitude, `significand · 2 ^ exponent`. -/
structure Binary64 where
  significand : Nat
  exponent : Int
  deriving DecidableEq, Repr

namespace Binary64

/-- The least exponent of the grid, that of the subnormal values. -/
def minExponent : Int := -1074

/-- The greatest exponent of a finite value. -/
def maxExponent : Int := 971

/-- A significand has at most 53 binary digits, so it is below this bound. -/
def significandBound : Nat := Nat.pow 2 53

/-- The least significand of 53 binary digits. -/
def fullSignificand : Nat := Nat.pow 2 52

/-- The zero magnitude. -/
def zero : Binary64 := ⟨0, minExponent⟩

/-- The quotient rounded to the nearest natural number, a half going to the even neighbour. -/
def roundDiv (num den : Nat) : Nat :=
  let q := num / den
  let r := num % den
  if den < 2 * r ∨ (2 * r = den ∧ q % 2 = 1) then q + 1 else q

/-- The ratio `num / den` divided by `2 ^ e`, again as a ratio. -/
def unscale (num den : Nat) (e : Int) : Nat × Nat :=
  if 0 ≤ e then (num, den * Nat.pow 2 e.toNat) else (num * Nat.pow 2 (-e).toNat, den)

/-- The exponent at which a positive ratio has a significand of 53 binary digits, or the least one.
-/
def gridExponent (num den : Nat) : Int :=
  let e : Int := (num.log2 : Int) - den.log2 - 53
  let (n, d) := unscale num den e
  max minExponent (if n < d * significandBound then e else e + 1)

/-- The binary64 value nearest to a ratio, or nothing if that is beyond the finite ones. -/
def nearest? (num den : Nat) : Option Binary64 :=
  if num = 0 then some zero
  else
    let e := gridExponent num den
    let (n, d) := unscale num den e
    let m := roundDiv n d
    let value : Binary64 := if m = significandBound then ⟨fullSignificand, e + 1⟩ else ⟨m, e⟩
    if value.exponent ≤ maxExponent then some value else none

/-- The value as a ratio of naturals. -/
def ratio (x : Binary64) : Nat × Nat :=
  if 0 ≤ x.exponent then (x.significand * Nat.pow 2 x.exponent.toNat, 1)
  else (x.significand, Nat.pow 2 (-x.exponent).toNat)

/-- The greatest exponent whose power of ten is finite. -/
def maxPower : Nat := 308

/-- The binary64 value nearest to `10 ^ k`, for `k` up to `maxPower`. -/
def powerOfTen (k : Nat) : Binary64 := (nearest? (Nat.pow 10 k) 1).getD zero

/-- The rounded product, if it is finite. -/
def mul? (x y : Binary64) : Option Binary64 :=
  nearest? (x.ratio.1 * y.ratio.1) (x.ratio.2 * y.ratio.2)

/-- The rounded quotient by a power of ten. -/
def divPower (x : Binary64) (k : Nat) : Binary64 :=
  let p := powerOfTen k
  (nearest? (x.ratio.1 * p.ratio.2) (x.ratio.2 * p.ratio.1)).getD zero

/-- Division by `10 ^ k` in steps of at most `10 ^ 308`, each of them rounded. -/
def shrink (x : Binary64) (k : Nat) : Binary64 :=
  if k ≤ maxPower then x.divPower k
  else if x.significand = 0 then x
  else (x.divPower maxPower).shrink (k - maxPower)
termination_by k
decreasing_by simp [maxPower] at *; omega

/-- The value of `significand · 10 ^ exponent`: the significand is rounded first and the scaled
value once more. Nothing if the magnitude is beyond the finite values. -/
def ofScientific? (significand : Nat) (exponent : Int) : Option Binary64 := do
  let x ← nearest? significand 1
  if exponent < 0 then some (x.shrink (-exponent).toNat)
  else if exponent ≤ maxPower then x.mul? (powerOfTen exponent.toNat)
  else if x.significand = 0 then some x
  else none

/-- The number of decimal digits of a natural number. -/
def digitCount (n : Nat) : Nat := (Nat.toDigits 10 n).length

/-- The exponent of the leading decimal digit of a positive ratio. -/
def leadingExponent (num den : Nat) : Int :=
  if den ≤ num then (digitCount (num / den) : Int) - 1
  else -(digitCount ((den + num - 1) / num - 1) : Int)

/-- A decimal number, `digits · 10 ^ exponent`. -/
structure Digits where
  digits : Nat
  exponent : Int
  deriving DecidableEq, Repr

/-- The same number without zeros at the end of its digits. -/
def Digits.trimmed (x : Digits) : Digits :=
  if h : x.digits ≠ 0 ∧ x.digits % 10 = 0 then trimmed ⟨x.digits / 10, x.exponent + 1⟩ else x
termination_by x.digits
decreasing_by exact Nat.div_lt_self (Nat.pos_of_ne_zero h.1) (by decide)

/-- The two neighbours of `num / den` on the grid of `count` digits that lie between the bounds, the
nearer one first in choice and the even one at a tie. All three ratios share the denominator. -/
def onGrid? (low num high den : Nat) (inclusive : Bool) (leading : Int) (count : Nat) :
    Option Digits :=
  let step : Int := leading - count + 1
  -- All quantities are multiplied so that the step of the grid becomes the natural number `unit`.
  let (scale, unit) :=
    if 0 ≤ step then (1, den * Nat.pow 10 step.toNat) else (Nat.pow 10 (-step).toNat, den)
  let inside (d : Nat) : Bool :=
    if inclusive then low * scale ≤ d * unit ∧ d * unit ≤ high * scale
    else low * scale < d * unit ∧ d * unit < high * scale
  let below := num * scale / unit
  let rest := num * scale % unit
  let above := below + 1
  let preferBelow : Bool := 2 * rest < unit ∨ (2 * rest = unit ∧ below % 2 = 0)
  match inside below, inside above with
  | true, true => some ⟨if preferBelow then below else above, step⟩
  | true, false => some ⟨below, step⟩
  | false, true => some ⟨above, step⟩
  | false, false => none

/-- The decimal number with the fewest digits that rounds to the value, the nearest one of those. -/
def shortest (x : Binary64) : Digits :=
  if x.significand = 0 then ⟨0, 0⟩
  else
    let m := x.significand
    -- Below a power of two the grid of binary64 is twice as fine.
    let gap := if m = fullSignificand ∧ minExponent < x.exponent then 1 else 2
    let e := x.exponent - 2
    let (unit, den) := if 0 ≤ e then (Nat.pow 2 e.toNat, 1) else (1, Nat.pow 2 (-e).toNat)
    let num := 4 * m * unit
    let leading := leadingExponent num den
    let found := (List.range 17).findSome? fun i =>
      onGrid? ((4 * m - gap) * unit) num ((4 * m + 2) * unit) den (m % 2 = 0) leading (i + 1)
    (found.getD ⟨m, 0⟩).trimmed

/-- How a value is written: positional between two exponents of the leading digit, else with an
exponent that has a sign. -/
structure TextFormat where
  minPositional : Int
  maxPositional : Int

/-- Diagnostics write values from `0.00001` to below `10 ^ 16` positionally, with at least one digit
after the point, and all others with an exponent. -/
def diagnosticFormat : TextFormat := ⟨-5, 15⟩

/-- The text of a value without its sign. -/
def text (format : TextFormat) (x : Binary64) : String :=
  let short := x.shortest
  let ds := Nat.toDigits 10 short.digits
  let leading : Int := short.exponent + ds.length - 1
  let zeros (n : Nat) : List Char := List.replicate n '0'
  let orZero (l : List Char) : List Char := if l.isEmpty then ['0'] else l
  String.ofList <|
    if x.significand = 0 then ['0', '.', '0']
    else if leading < format.minPositional ∨ format.maxPositional < leading then
      let fraction := ds.drop 1
      ds.take 1 ++ (if fraction.isEmpty then [] else '.' :: fraction) ++
        ['e', if leading < 0 then '-' else '+'] ++ Nat.toDigits 10 leading.natAbs
    else if leading < 0 then
      ['0', '.'] ++ zeros ((-leading).toNat - 1) ++ ds
    else
      let whole := leading.toNat + 1
      ds.take whole ++ zeros (whole - ds.length) ++ ['.'] ++ orZero (ds.drop whole)

end Binary64

end ArithCircuit.Json
