import ArithCircuit.Text.Printable

set_option autoImplicit false
set_option relaxedAutoImplicit false

/-!
# Quoted names

Diagnostics and listings show a text between double quotes. The quote, the backslash and four common
control characters are written with a backslash, every other character that has no visible form by
its number in hexadecimal, and all others as they are. A single quote needs no escape.
-/

namespace ArithCircuit.Text

/-- The hexadecimal digits of a number, lower case and without leading zeros. -/
def hex (n : Nat) : List Char := Nat.toDigits 16 n

/-- The form of one character between quotes. -/
def escapeQuoted (c : Char) : List Char :=
  if c = '"' then ['\\', '"']
  else if c = '\\' then ['\\', '\\']
  else if c = '\n' then ['\\', 'n']
  else if c = '\r' then ['\\', 'r']
  else if c = '\t' then ['\\', 't']
  else if c.toNat = 0 then ['\\', '0']
  else if isHidden c then ['\\', 'u', '\x7b'] ++ hex c.toNat ++ ['\x7d']
  else [c]

/-- A text between double quotes. -/
def quoted (s : String) : String :=
  String.ofList ('"' :: s.toList.flatMap escapeQuoted ++ ['"'])

end ArithCircuit.Text
