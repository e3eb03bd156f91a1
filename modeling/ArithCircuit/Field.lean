set_option autoImplicit false
set_option relaxedAutoImplicit false

/-!
# Field constants

Compiled circuits name the modulus `P` and the bit mask `MASK` only symbolically; the numbers behind
the names are carried beside the code. A `Field` holds both numbers unchecked, since a stored
artifact may hold any; `Field.validated` and `Field.withMaskBits` are the checked ways to make one.
-/

namespace ArithCircuit

/-- The modulus and the bit mask of a circuit. -/
structure Field where
  prime : Nat
  mask : Nat
  deriving DecidableEq, Repr

/-- Why two numbers are not accepted as field constants. -/
inductive FieldError where
  | smallPrime (prime : Nat)
  | zeroMask
  | zeroWidth
  deriving DecidableEq, Repr

/-- The reason as reported. -/
def FieldError.message : FieldError → String
  | .smallPrime prime => s!"Invalid field configuration: prime must be greater than 1, got {prime}"
  | .zeroMask => "Invalid field configuration: mask must be non-zero"
  | .zeroWidth => "Invalid field configuration: mask width must be at least 1 bit"

namespace Field

/-- The field itself, provided that its modulus exceeds 1 and its mask is not 0. -/
def validated (field : Field) : Except FieldError Field :=
  if field.prime ≤ 1 then .error (.smallPrime field.prime)
  else if field.mask = 0 then .error .zeroMask
  else .ok field

/-- The field whose mask has the given number of low bits set, provided that there is one bit. -/
def withMaskBits (prime bits : Nat) : Except FieldError Field :=
  if bits = 0 then .error .zeroWidth else validated ⟨prime, Nat.pow 2 bits - 1⟩

/-- The scalar field of the curve BN254, with a mask of 253 bits. -/
def bn254 : Field where
  prime := 0x30644e72e131a029b85045b68181585d2833e84879b9709143e1f593f0000001
  mask := Nat.pow 2 253 - 1

instance : Inhabited Field := ⟨bn254⟩

/-- The number of binary digits of the mask. -/
def maskBits (field : Field) : Nat :=
  if field.mask = 0 then 0 else field.mask.log2 + 1

theorem validated_eq_ok_iff {field field' : Field} :
    field.validated = .ok field' ↔ field' = field ∧ 1 < field.prime ∧ field.mask ≠ 0 := by
  unfold validated
  split
  · simp; omega
  · split
    · simp_all
    · simp only [Except.ok.injEq]
      constructor
      · rintro rfl; exact ⟨rfl, by omega, by assumption⟩
      · rintro ⟨rfl, _⟩; rfl

end Field

end ArithCircuit
