import ArithCircuit.Json.Numeral

set_option autoImplicit false
set_option relaxedAutoImplicit false

/-!
# Documents

A document is a text that should hold one JSON value. `Document.ofText` reads it as far as it is
legible; whether anything but blanks follows the value is kept apart, because a reader looks there
last. The scanners call each other at most twice for each character that they use up, which bounds
their number.
-/

namespace ArithCircuit.Json

/-- The end of a list that lacks a comma or bracket before the given text. -/
def Ending.lackingAt (s : List Char) : Ending :=
  .lacking (if s.isEmpty then .truncated else .malformed)

/-- The end of a list that lacks a key before the given text. -/
def Ending.danglingAt (s : List Char) : Ending :=
  .dangling (if s.isEmpty then .truncated else .malformed)

/-- The cut in place of a value behind a key that no colon follows. -/
def Cut.lackingColonAt (s : List Char) : Cut := if s.isEmpty then .ended else .stray

mutual

/-- The value at the beginning of a text. -/
def scanValue : Nat → List Char → Scanned
  | 0, _ => (.broken .ended, none)
  | fuel + 1, s =>
    match dropBlanks s with
    | [] => (.broken .ended, none)
    | c :: rest =>
      if c = '"' then
        match scanString fuel (some []) rest with
        | .text s rest => (.string s, some rest)
        | .unreadable rest => (.unreadable, some rest)
        | .cut cut => (.broken cut, none)
      else if c = '[' then
        match dropBlanks rest with
        | [] => (.array [] (.lacking .truncated), none)
        | d :: rest =>
          if d = ']' then (.array [] .closed, some rest)
          else
            let (items, ending, rest) := scanItems fuel (d :: rest)
            (.array items ending, rest)
      else if c = '\x7b' then
        match dropBlanks rest with
        | [] => (.object [] (.lacking .truncated), none)
        | d :: rest =>
          if d = '\x7d' then (.object [] .closed, some rest)
          else if d = '"' then
            let (members, ending, rest) := scanMembers fuel rest
            (.object members ending, rest)
          else (.object [(.broken .stray, .null)] .closed, none)
      else if c = 'n' then scanWord .null .null ['u', 'l', 'l'] rest
      else if c = 't' then scanWord (.bool true) .bool ['r', 'u', 'e'] rest
      else if c = 'f' then scanWord (.bool false) .bool ['a', 'l', 's', 'e'] rest
      else if c = '-' then scanNumber true rest
      else if c.isDigit then scanNumber false (c :: rest)
      else (.broken .stray, none)

/-- One or more items of an array and its closing bracket. -/
def scanItems : Nat → List Char → List Tree × Ending × Option (List Char)
  | 0, _ => ([], .lacking .truncated, none)
  | fuel + 1, s =>
    match scanValue fuel s with
    | (item, none) => ([item], .closed, none)
    | (item, some rest) =>
      match dropBlanks rest with
      | ']' :: rest => ([item], .closed, some rest)
      | ',' :: rest =>
        -- A bracket behind a comma begins no value, so it is a stray item.
        let (items, ending, rest) := scanItems fuel rest
        (item :: items, ending, rest)
      | rest => ([item], .lackingAt rest, none)

/-- One or more members of an object and its closing bracket, from behind the quote that opens the
first key. -/
def scanMembers : Nat → List Char → List (Label × Tree) × Ending × Option (List Char)
  | 0, _ => ([], .lacking .truncated, none)
  | fuel + 1, s =>
    let (label, rest) : Label × Option (List Char) := match scanString fuel (some []) s with
      | .text key rest => (.text key, some rest)
      | .unreadable rest => (.unreadable, some rest)
      | .cut cut => (.broken cut, none)
    match rest with
    | none => ([(label, .null)], .closed, none)
    | some rest =>
      match dropBlanks rest with
      | ':' :: rest =>
        match scanValue fuel rest with
        | (value, none) => ([(label, value)], .closed, none)
        | (value, some rest) =>
          match dropBlanks rest with
          | '\x7d' :: rest => ([(label, value)], .closed, some rest)
          | ',' :: rest =>
            match dropBlanks rest with
            | '"' :: rest =>
              let (members, ending, rest) := scanMembers fuel rest
              ((label, value) :: members, ending, rest)
            | rest => ([(label, value)], .danglingAt rest, none)
          | rest => ([(label, value)], .lackingAt rest, none)
      | rest => ([(label, .broken (.lackingColonAt rest))], .closed, none)

end

/-- A text read as one JSON value. -/
structure Document where
  root : Tree
  /-- Whether only blanks follow the value. -/
  isAlone : Bool

/-- The document that a text holds. -/
def Document.ofText (text : String) : Document :=
  let s := text.toList
  let (root, rest) := scanValue (2 * s.length + 2) s
  ⟨root, (rest.map fun rest => (dropBlanks rest).isEmpty).getD true⟩

end ArithCircuit.Json
