set_option autoImplicit false
set_option relaxedAutoImplicit false

/-!
# JSON values and their text

`Value` is what the library writes: numbers are natural, and the members of an object keep their
order. `Value.text` writes a value in one of two styles. The writer puts characters in front of a
given rest, so that no part of the output is copied twice.
-/

namespace ArithCircuit.Json

/-- A JSON value as the library writes it. -/
inductive Value where
  | null
  | bool (b : Bool)
  | number (n : Nat)
  | string (s : String)
  | array (items : List Value)
  | object (members : List (String × Value))

/-- How the text is laid out: without any blanks, or on lines indented by two blanks a level. -/
inductive Style where
  | compact
  | pretty
  deriving DecidableEq

namespace Style

/-- What stands before an item or a closing bracket at a level of nesting. -/
def gap : Style → Nat → List Char
  | .compact, _ => []
  | .pretty, level => '\n' :: List.replicate (2 * level) ' '

/-- What stands between a key and its value. -/
def colon : Style → List Char
  | .compact => [':']
  | .pretty => [':', ' ']

end Style

/-- A digit of an escape by number. -/
def hexDigit (n : Nat) : Char := Nat.digitChar n

/-- The form of one character inside a JSON string. -/
def escape (c : Char) : List Char :=
  if c = '"' then ['\\', '"']
  else if c = '\\' then ['\\', '\\']
  else if c = '\n' then ['\\', 'n']
  else if c = '\r' then ['\\', 'r']
  else if c = '\t' then ['\\', 't']
  else if c.toNat = 8 then ['\\', 'b']
  else if c.toNat = 12 then ['\\', 'f']
  else if c.toNat < 0x20 then
    ['\\', 'u', '0', '0', hexDigit (c.toNat / 16), hexDigit (c.toNat % 16)]
  else [c]

/-- A JSON string in front of a rest. -/
def stringOnto (s : String) (rest : List Char) : List Char :=
  '"' :: (s.toList.flatMap escape ++ '"' :: rest)

namespace Value

mutual

/-- A value, at a level of nesting, in front of a rest. -/
def onto (style : Style) (level : Nat) : Value → List Char → List Char
  | .null, rest => 'n' :: 'u' :: 'l' :: 'l' :: rest
  | .bool true, rest => 't' :: 'r' :: 'u' :: 'e' :: rest
  | .bool false, rest => 'f' :: 'a' :: 'l' :: 's' :: 'e' :: rest
  | .number n, rest => Nat.toDigits 10 n ++ rest
  | .string s, rest => stringOnto s rest
  | .array items, rest =>
    '[' :: itemsOnto style level true items
      ((if items.isEmpty then [] else style.gap level) ++ ']' :: rest)
  | .object members, rest =>
    '\x7b' :: membersOnto style level true members
      ((if members.isEmpty then [] else style.gap level) ++ '\x7d' :: rest)

/-- The items of an array in front of a rest; a comma stands before each but the first. -/
def itemsOnto (style : Style) (level : Nat) : Bool → List Value → List Char → List Char
  | _, [], rest => rest
  | first, v :: vs, rest =>
    (if first then [] else [',']) ++ style.gap (level + 1) ++
      onto style (level + 1) v (itemsOnto style level false vs rest)

/-- The members of an object in front of a rest; a comma stands before each but the first. -/
def membersOnto (style : Style) (level : Nat) :
    Bool → List (String × Value) → List Char → List Char
  | _, [], rest => rest
  | first, (key, v) :: ms, rest =>
    (if first then [] else [',']) ++ style.gap (level + 1) ++
      stringOnto key (style.colon ++
        onto style (level + 1) v (membersOnto style level false ms rest))

end

/-- The text of a value. -/
def text (style : Style) (v : Value) : String := String.ofList (v.onto style 0 [])

/-- A list of texts. -/
def texts (l : List String) : Value := .array (l.map .string)

/-- The value, or `null` if there is none. -/
def ofOption {α : Type} (f : α → Value) : Option α → Value
  | none => .null
  | some a => f a

end Value

end ArithCircuit.Json
