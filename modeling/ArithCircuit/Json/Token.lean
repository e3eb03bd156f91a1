import ArithCircuit.Json.Tree

set_option autoImplicit false
set_option relaxedAutoImplicit false

/-!
# Blanks, words and strings

Parts of a JSON text that hold no other part. Each scanner takes the text from the token on and
answers with the token and the text behind it, or with the cut at which the text stops being
legible.
-/

namespace ArithCircuit.Json

/-- The outcome of scanning one value: its tree and the text behind it, or nothing behind it if the
text is not legible any further. -/
abbrev Scanned := Tree × Option (List Char)

/-- The four characters that may stand between tokens. -/
def isBlank (c : Char) : Bool := c = ' ' || c = '\n' || c = '\t' || c = '\r'

/-- The text from the next token on. -/
def dropBlanks (s : List Char) : List Char := s.dropWhile isBlank

/-- The rest of a word, letter for letter. -/
def scanWord (result : Tree) (cut : Fault → Cut) : List Char → List Char → Scanned
  | [], rest => (result, some rest)
  | _ :: _, [] => (.broken (cut .truncated), none)
  | w :: ws, c :: rest =>
    if c = w then scanWord result cut ws rest else (.broken (cut .malformed), none)

/-! ### Strings -/

/-- The value of a hexadecimal digit of either case. -/
def hexValue? (c : Char) : Option Nat :=
  if '0' ≤ c ∧ c ≤ '9' then some (c.toNat - '0'.toNat)
  else if 'a' ≤ c ∧ c ≤ 'f' then some (c.toNat - 'a'.toNat + 10)
  else if 'A' ≤ c ∧ c ≤ 'F' then some (c.toNat - 'A'.toNat + 10)
  else none

/-- The number of bytes of a text in UTF-8. -/
def byteCount (s : List Char) : Nat := s.foldl (fun count c => count + c.utf8Size) 0

/-- Four hexadecimal digits. A text with fewer than four bytes left is cut, whatever they are. -/
def scanQuad : List Char → Except Fault (Nat × List Char)
  | a :: b :: c :: d :: rest =>
    match hexValue? a, hexValue? b, hexValue? c, hexValue? d with
    | some a, some b, some c, some d => .ok (((a * 16 + b) * 16 + c) * 16 + d, rest)
    | _, _, _, _ => .error .malformed
  | short => .error (if byteCount short < 4 then .truncated else .malformed)

/-- What a backslash with one letter stands for. -/
def shortEscape? (c : Char) : Option Char :=
  if c = '"' then some '"'
  else if c = '\\' then some '\\'
  else if c = '/' then some '/'
  else if c = 'b' then some (Char.ofNat 8)
  else if c = 'f' then some (Char.ofNat 12)
  else if c = 'n' then some '\n'
  else if c = 'r' then some '\r'
  else if c = 't' then some '\t'
  else none

/-- Whether a code unit is the first half of a pair. -/
def isLeading (n : Nat) : Bool := 0xd800 ≤ n && n ≤ 0xdbff

/-- Whether a code unit is the second half of a pair. -/
def isTrailing (n : Nat) : Bool := 0xdc00 ≤ n && n ≤ 0xdfff

/-- The character that a pair of code units stands for. -/
def pairChar (leading trailing : Nat) : Char :=
  Char.ofNat (0x10000 + (leading - 0xd800) * 0x400 + (trailing - 0xdc00))

/-- One unit of the inside of a string. -/
inductive StringPiece where
  /-- A character of the string, with the text behind it. -/
  | char (c : Char) (rest : List Char)
  /-- Half a pair of code units, which can be passed over but stands for no character. -/
  | half (rest : List Char)
  | cut (f : Fault)

/-- What an escape stands for, given the text behind its backslash. The second half of a pair must
follow its first half at once. -/
def scanEscape : List Char → StringPiece
  | [] => .cut .truncated
  | c :: rest =>
    if c = 'u' then
      match scanQuad rest with
      | .error f => .cut f
      | .ok (n, rest) =>
        if isTrailing n then .half rest
        else if isLeading n then
          match rest with
          | [] => .cut .truncated
          | ['\\'] => .cut .truncated
          | '\\' :: 'u' :: again =>
            match scanQuad again with
            | .error f => .cut f
            | .ok (m, rest) => if isTrailing m then .char (pairChar n m) rest else .half rest
          | rest => .half rest
        else .char (Char.ofNat n) rest
    else
      match shortEscape? c with
      | some e => .char e rest
      | none => .cut .malformed

/-- The outcome of scanning a string. -/
inductive ScannedString where
  | text (s : String) (rest : List Char)
  | unreadable (rest : List Char)
  | cut (c : Cut)

/-- The inside of a string and its closing quote. What was read so far is held in reverse, and is
absent once some part of the string has turned out to stand for no character. The first argument is
at least the number of characters that are left. -/
def scanString : Nat → Option (List Char) → List Char → ScannedString
  | 0, _, _ => .cut (.string .truncated .truncated)
  | fuel + 1, seen, s =>
    let cutBy (f : Fault) : ScannedString :=
      .cut (.string (if seen.isNone then .malformed else f) f)
    match s with
    | [] => cutBy .truncated
    | c :: rest =>
      if c = '"' then
        match seen with
        | some cs => .text (String.ofList cs.reverse) rest
        | none => .unreadable rest
      else if c = '\\' then
        match scanEscape rest with
        | .char e rest => scanString fuel (seen.map (e :: ·)) rest
        | .half rest => scanString fuel none rest
        | .cut f => cutBy f
      else if c.toNat < 0x20 then cutBy .malformed
      else scanString fuel (seen.map (c :: ·)) rest

end ArithCircuit.Json
