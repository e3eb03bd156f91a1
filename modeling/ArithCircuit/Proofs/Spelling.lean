import ArithCircuit.Json.Document

set_option autoImplicit false
set_option relaxedAutoImplicit false

/-!
# How JSON values are spelt

`Tree.Spells` is the grammar of JSON texts: which texts spell which trees, with blanks between the
tokens, every escape of a character, and every form of a number. It says nothing of how a text is
scanned. Main statement: `Document.ofText_of_spelled`, a text that spells a tree is read as that
tree, whatever blanks stand around it.
-/

namespace ArithCircuit.Json

/-! ### The grammar -/

/-- Nothing but blanks. -/
def Blanks (s : List Char) : Prop := ∀ c ∈ s, isBlank c = true

/-- The code unit that four hexadecimal digits give. -/
inductive SpellsUnit : Nat → List Char → Prop where
  | digits {a b c d : Char} {w x y z : Nat} :
      hexValue? a = some w → hexValue? b = some x → hexValue? c = some y → hexValue? d = some z →
      SpellsUnit (((w * 16 + x) * 16 + y) * 16 + z) [a, b, c, d]

/-- The ways to spell a character inside a string. -/
inductive SpellsChar : Char → List Char → Prop where
  | plain {c : Char} : c ≠ '"' → c ≠ '\\' → 0x20 ≤ c.toNat → SpellsChar c [c]
  | short {letter c : Char} : shortEscape? letter = some c → SpellsChar c ['\\', letter]
  | unit {n : Nat} {quad : List Char} : SpellsUnit n quad → isTrailing n = false →
      isLeading n = false → SpellsChar (Char.ofNat n) ('\\' :: 'u' :: quad)
  | pair {m n : Nat} {first second : List Char} : SpellsUnit m first → SpellsUnit n second →
      isLeading m = true → isTrailing n = true →
      SpellsChar (pairChar m n) ('\\' :: 'u' :: (first ++ '\\' :: 'u' :: second))

/-- The inside of a string, character by character. -/
inductive SpellsText : List Char → List Char → Prop where
  | nil : SpellsText [] []
  | cons {c : Char} {cs s u : List Char} : SpellsChar c s → SpellsText cs u →
      SpellsText (c :: cs) (s ++ u)

/-- One or more digits. -/
def IsDigits (ds : List Char) : Prop := ds ≠ [] ∧ ∀ d ∈ ds, d.isDigit = true

/-- The fraction of a number, if it has one. -/
inductive SpellsFraction : Option (List Char) → List Char → Prop where
  | none : SpellsFraction none []
  | some {ds : List Char} : IsDigits ds → SpellsFraction (some ds) ('.' :: ds)

/-- The exponent of a number, if it has one. -/
inductive SpellsExponent : Option Int → List Char → Prop where
  | none : SpellsExponent none []
  | unsigned {letter : Char} {ds : List Char} : (letter = 'e' ∨ letter = 'E') → IsDigits ds →
      SpellsExponent (some (Nat.ofDigitChars 10 ds 0)) (letter :: ds)
  | positive {letter : Char} {ds : List Char} : (letter = 'e' ∨ letter = 'E') → IsDigits ds →
      SpellsExponent (some (Nat.ofDigitChars 10 ds 0)) (letter :: '+' :: ds)
  | negative {letter : Char} {ds : List Char} : (letter = 'e' ∨ letter = 'E') → IsDigits ds →
      SpellsExponent (some (-(Nat.ofDigitChars 10 ds 0 : Int))) (letter :: '-' :: ds)

/-- A number part by part. Its whole part has no leading zero, unless it is zero. -/
inductive SpellsNumber : NumberText → List Char → Prop where
  | parts {isNegative : Bool} {whole fraction exponent : List Char} {ds : Option (List Char)}
      {e : Option Int} : IsDigits whole → (whole.head? = some '0' → whole = ['0']) →
      SpellsFraction ds fraction → SpellsExponent e exponent →
      SpellsNumber ⟨isNegative, whole, ds, e⟩
        ((if isNegative then ['-'] else []) ++ (whole ++ (fraction ++ exponent)))

mutual

/-- The texts that spell a tree, from its first token to its last. -/
inductive Tree.Spells : Tree → List Char → Prop where
  | null : Spells .null ['n', 'u', 'l', 'l']
  | yes : Spells (.bool true) ['t', 'r', 'u', 'e']
  | no : Spells (.bool false) ['f', 'a', 'l', 's', 'e']
  | number {t : NumberText} {n : Number} {s : List Char} : SpellsNumber t s → t.value? = some n →
      Spells (.number n) s
  | string {cs s : List Char} : SpellsText cs s →
      Spells (.string (String.ofList cs)) ('"' :: (s ++ ['"']))
  | emptyArray {b : List Char} : Blanks b → Spells (.array [] .closed) ('[' :: (b ++ [']']))
  | array {ts : List Tree} {b s : List Char} : Blanks b → SpellsItems ts s →
      Spells (.array ts .closed) ('[' :: (b ++ s))
  | emptyObject {b : List Char} : Blanks b →
      Spells (.object [] .closed) ('\x7b' :: (b ++ ['\x7d']))
  | object {ms : List (Label × Tree)} {b s : List Char} : Blanks b → SpellsMembers ms s →
      Spells (.object ms .closed) ('\x7b' :: (b ++ '"' :: s))

/-- The texts of the items of an array with its closing bracket, from the first item on. -/
inductive Tree.SpellsItems : List Tree → List Char → Prop where
  | last {t : Tree} {s b : List Char} : Tree.Spells t s → Blanks b →
      SpellsItems [t] (s ++ (b ++ [']']))
  | more {t : Tree} {ts : List Tree} {s b b' u : List Char} : Tree.Spells t s → Blanks b →
      Blanks b' → SpellsItems ts u → SpellsItems (t :: ts) (s ++ (b ++ ',' :: (b' ++ u)))

/-- The texts of the members of an object with its closing bracket, from behind the quote that opens
the first key. -/
inductive Tree.SpellsMembers : List (Label × Tree) → List Char → Prop where
  | last {cs k b₁ b₂ s b₃ : List Char} {t : Tree} : SpellsText cs k → Blanks b₁ → Blanks b₂ →
      Tree.Spells t s → Blanks b₃ →
      SpellsMembers [(.text (String.ofList cs), t)]
        (k ++ '"' :: (b₁ ++ ':' :: (b₂ ++ (s ++ (b₃ ++ ['\x7d'])))))
  | more {cs k b₁ b₂ s b₃ b₄ u : List Char} {t : Tree} {ms : List (Label × Tree)} :
      SpellsText cs k → Blanks b₁ → Blanks b₂ → Tree.Spells t s → Blanks b₃ → Blanks b₄ →
      SpellsMembers ms u →
      SpellsMembers ((.text (String.ofList cs), t) :: ms)
        (k ++ '"' :: (b₁ ++ ':' :: (b₂ ++ (s ++ (b₃ ++ ',' :: (b₄ ++ '"' :: u))))))

end

/-! ### Blanks and words -/

theorem blanks_nil : Blanks [] := by
  intro c member
  cases member

theorem dropBlanks_append {b : List Char} (blank : Blanks b) (s : List Char) :
    dropBlanks (b ++ s) = dropBlanks s :=
  List.dropWhile_append_of_pos blank

theorem dropBlanks_cons {c : Char} (visible : isBlank c = false) (s : List Char) :
    dropBlanks (c :: s) = c :: s := by
  rw [dropBlanks, List.dropWhile_cons_of_neg (by simp [visible])]

theorem dropBlanks_append_cons {b : List Char} (blank : Blanks b) {c : Char}
    (visible : isBlank c = false) (s : List Char) : dropBlanks (b ++ c :: s) = c :: s := by
  rw [dropBlanks_append blank, dropBlanks_cons visible]

/-! ### Strings -/

theorem scanQuad_of_spells {n : Nat} {quad : List Char} (spells : SpellsUnit n quad)
    (rest : List Char) : scanQuad (quad ++ rest) = .ok (n, rest) := by
  cases spells with
  | digits first second third fourth =>
    simp [scanQuad, first, second, third, fourth]

/-- A spelling of a character is used up as a whole, and the character is added to what was seen. -/
theorem scanString_of_spellsChar {c : Char} {s : List Char} (spells : SpellsChar c s) (fuel : Nat)
    (seen rest : List Char) :
    scanString (fuel + 1) (some seen) (s ++ rest) = scanString fuel (some (c :: seen)) rest := by
  cases spells with
  | plain notQuote notBackslash visible =>
    have above : ¬ c.toNat < 0x20 := by omega
    simp [scanString, notQuote, notBackslash, above]
  | @short letter _ stands =>
    have notUnit : letter ≠ 'u' := by
      rintro rfl
      cases stands
    simp [scanString, scanEscape, notUnit, stands]
  | unit spells notTrailing notLeading =>
    have quad := scanQuad_of_spells spells rest
    simp [scanString, scanEscape, quad, notTrailing, notLeading]
  | @pair m n first second spells spells' leading trailing =>
    have quad := scanQuad_of_spells spells ('\\' :: 'u' :: (second ++ rest))
    have quad' := scanQuad_of_spells spells' rest
    have notTrailing : isTrailing m = false := by
      simp only [isLeading, Bool.and_eq_true, decide_eq_true_eq] at leading
      simp only [isTrailing, Bool.and_eq_false_iff, decide_eq_false_iff_not]
      omega
    simp [scanString, scanEscape, quad, quad', notTrailing, leading, trailing]

theorem SpellsChar.length_pos {c : Char} {s : List Char} (spells : SpellsChar c s) :
    0 < s.length := by
  cases spells <;> simp

/-- The inside of a string is used up to its closing quote. -/
theorem scanString_of_spells (fuel : Nat) {cs s : List Char} (spells : SpellsText cs s)
    (enough : s.length < fuel) (seen rest : List Char) :
    scanString fuel (some seen) (s ++ '"' :: rest) =
      .text (String.ofList (seen.reverse ++ cs)) rest := by
  induction spells generalizing fuel seen with
  | nil =>
    obtain ⟨fuel, rfl⟩ : ∃ k, fuel = k + 1 := ⟨fuel - 1, by simp at enough; omega⟩
    simp [scanString]
  | @cons c cs s u first _ ih =>
    have positive := first.length_pos
    rw [List.length_append] at enough
    obtain ⟨fuel, rfl⟩ : ∃ k, fuel = k + 1 := ⟨fuel - 1, by omega⟩
    rw [List.append_assoc, scanString_of_spellsChar first, ih fuel (by omega), List.reverse_cons,
      List.append_assoc, List.singleton_append]

/-! ### Numbers -/

/-- The text does not go on like a number. -/
def EndsNumber (s : List Char) : Prop :=
  ∀ c ∈ s.head?, c.isDigit = false ∧ c ≠ '.' ∧ c ≠ 'e' ∧ c ≠ 'E'

theorem endsNumber_nil : EndsNumber [] := by
  intro c member
  cases member

theorem endsNumber_cons {c : Char} (ends : c.isDigit = false ∧ c ≠ '.' ∧ c ≠ 'e' ∧ c ≠ 'E')
    (s : List Char) : EndsNumber (c :: s) := by
  intro d member
  cases member
  exact ends

/-- A blank ends a number, and so does what stands behind blanks. -/
theorem EndsNumber.append_blanks {b s : List Char} (blank : Blanks b) (ends : EndsNumber s) :
    EndsNumber (b ++ s) := by
  cases b with
  | nil => exact ends
  | cons c b =>
    have isBlank := blank c List.mem_cons_self
    simp only [Json.isBlank, Bool.or_eq_true, decide_eq_true_eq] at isBlank
    apply endsNumber_cons
    rcases isBlank with ((rfl | rfl) | rfl) | rfl <;> decide

private theorem takeWhile_isDigit {ds rest : List Char} (digits : IsDigits ds)
    (ends : ∀ c ∈ rest.head?, c.isDigit = false) :
    (ds ++ rest).takeWhile Char.isDigit = ds := by
  rw [List.takeWhile_append_of_pos digits.2]
  cases rest with
  | nil => simp
  | cons c rest => simp [ends c rfl]

private theorem dropWhile_isDigit {ds rest : List Char} (digits : IsDigits ds)
    (ends : ∀ c ∈ rest.head?, c.isDigit = false) :
    (ds ++ rest).dropWhile Char.isDigit = rest := by
  rw [List.dropWhile_append_of_pos digits.2]
  cases rest with
  | nil => simp
  | cons c rest => simp [ends c rfl]

private theorem IsDigits.head_ne {ds : List Char} (digits : IsDigits ds) {c : Char}
    (other : c.isDigit = false) (rest rest' : List Char) : ds ++ rest ≠ c :: rest' := by
  obtain ⟨d, ds', rfl⟩ := List.exists_cons_of_ne_nil digits.1
  intro same
  rw [List.cons_append, List.cons.injEq] at same
  rw [← same.1, digits.2 d List.mem_cons_self] at other
  cases other

/-- The sign and digits of an exponent are used up as a whole. -/
private theorem scanExponent_of_spells (t : NumberText) {e : Int} {letter : Char}
    {s rest : List Char} (spells : SpellsExponent (some e) (letter :: s)) (ends : EndsNumber rest) :
    scanExponent t (s ++ rest) = ({ t with exponent := some e }.tree, some rest) := by
  have ends' : ∀ c ∈ rest.head?, c.isDigit = false := fun c member => (ends c member).1
  cases spells with
  | unsigned _ digits =>
    have notPlus := digits.head_ne (c := '+') (by decide) rest
    have notMinus := digits.head_ne (c := '-') (by decide) rest
    rw [scanExponent]
    · simp [takeWhile_isDigit digits ends', dropWhile_isDigit digits ends', digits.1]
    · exact notPlus
    · exact notMinus
  | positive _ digits =>
    simp [scanExponent, takeWhile_isDigit digits ends', dropWhile_isDigit digits ends', digits.1]
  | negative _ digits =>
    simp [scanExponent, takeWhile_isDigit digits ends', dropWhile_isDigit digits ends', digits.1]

private theorem scanScale_of_spells (t : NumberText) (unscaled : t.exponent = none)
    {e : Option Int} {s rest : List Char} (spells : SpellsExponent e s) (ends : EndsNumber rest) :
    scanScale t (s ++ rest) = ({ t with exponent := e }.tree, some rest) := by
  cases e with
  | none =>
    cases spells
    have same : { t with exponent := none } = t := by rw [← unscaled]
    rw [List.nil_append, same, scanScale]
    · rintro rest' rfl
      exact (ends 'e' rfl).2.2.1 rfl
    · rintro rest' rfl
      exact (ends 'E' rfl).2.2.2 rfl
  | some e =>
    obtain ⟨letter, u, known, rfl⟩ :
        ∃ letter u, (letter = 'e' ∨ letter = 'E') ∧ s = letter :: u := by
      cases spells with
      | unsigned known | positive known | negative known => exact ⟨_, _, known, rfl⟩
    rw [← scanExponent_of_spells t spells ends]
    rcases known with rfl | rfl <;> rw [List.cons_append, scanScale]

/-- What follows the whole part of a number does not begin with a digit. -/
private theorem head_of_exponent {e : Option Int} {s rest : List Char} (spells : SpellsExponent e s)
    (ends : EndsNumber rest) : ∀ c ∈ (s ++ rest).head?, c.isDigit = false ∧ c ≠ '.' := by
  intro c member
  cases spells with
  | none => exact ⟨(ends c member).1, (ends c member).2.1⟩
  | unsigned known | positive known | negative known =>
    cases member
    rcases known with rfl | rfl <;> decide

/-- The parts of a number behind its sign are used up as a whole. -/
theorem scanNumber_of_parts (isNegative : Bool) {whole fraction exponent rest : List Char}
    {ds : Option (List Char)} {e : Option Int} (digits : IsDigits whole)
    (noZero : whole.head? = some '0' → whole = ['0']) (spells : SpellsFraction ds fraction)
    (scaled : SpellsExponent e exponent) (ends : EndsNumber rest) :
    scanNumber isNegative (whole ++ (fraction ++ (exponent ++ rest))) =
      (NumberText.tree ⟨isNegative, whole, ds, e⟩, some rest) := by
  have scale := head_of_exponent scaled ends
  have single : ¬(whole.head? = some '0' ∧ 1 < whole.length) := by
    rintro ⟨zero, long⟩
    rw [noZero zero] at long
    simp at long
  have behind : ∀ c ∈ (fraction ++ (exponent ++ rest)).head?, c.isDigit = false := by
    cases spells with
    | none => exact fun c member => (scale c member).1
    | some => rintro c ⟨⟩; rfl
  rw [scanNumber, takeWhile_isDigit digits behind, dropWhile_isDigit digits behind,
    if_neg (by simp [digits.1]), if_neg single]
  cases spells with
  | none =>
    have notPoint : ∀ rest', exponent ++ rest ≠ '.' :: rest' := by
      intro rest' same
      exact (scale '.' (by rw [same]; rfl)).2 rfl
    have scanned := scanScale_of_spells ⟨isNegative, whole, none, none⟩ rfl scaled ends
    rw [← scanned]
    -- By `notPoint` the text is looked at for an exponent alone.
    simp only [List.nil_append]
  | @some fraction digits' =>
    have ends' : ∀ c ∈ (exponent ++ rest).head?, c.isDigit = false :=
      fun c member => (scale c member).1
    have scanned := scanScale_of_spells ⟨isNegative, whole, some fraction, none⟩ rfl scaled ends
    rw [← scanned]
    simp [takeWhile_isDigit digits' ends', dropWhile_isDigit digits' ends', digits'.1]

/-! ### Values -/

/-- A spelling begins with a visible character that closes no list. -/
theorem Tree.Spells.head {t : Tree} {s : List Char} (spells : t.Spells s) :
    ∃ c u, s = c :: u ∧ isBlank c = false ∧ c ≠ ']' := by
  cases spells with
  | number spells =>
    cases spells with
    | @parts isNegative whole _ _ _ _ digits =>
      obtain ⟨d, ds, rfl⟩ := List.exists_cons_of_ne_nil digits.1
      have digit := digits.2 d List.mem_cons_self
      cases isNegative
      · refine ⟨d, _, rfl, ?_, ?_⟩
        · simp only [isBlank, Bool.or_eq_false_iff, decide_eq_false_iff_not]
          refine ⟨⟨⟨?_, ?_⟩, ?_⟩, ?_⟩ <;> rintro rfl <;> cases digit
        · rintro rfl
          cases digit
      · exact ⟨'-', _, rfl, by decide, by decide⟩
  | null | yes | no | string | emptyArray | array | emptyObject | object =>
    exact ⟨_, _, rfl, by decide, by decide⟩

theorem Tree.SpellsItems.head {ts : List Tree} {s : List Char} (spells : Tree.SpellsItems ts s) :
    ∃ c u, s = c :: u ∧ isBlank c = false ∧ c ≠ ']' := by
  cases spells with
  | last first | more first =>
    obtain ⟨c, u, rfl, visible, notBracket⟩ := first.head
    exact ⟨c, _, rfl, visible, notBracket⟩

/-- A digit is none of the characters that begin other values. -/
private theorem scanValue_of_digit {d : Char} (digit : d.isDigit = true) (fuel : Nat)
    {b : List Char} (blank : Blanks b) (s : List Char) :
    scanValue (fuel + 1) (b ++ d :: s) = scanNumber false (d :: s) := by
  have other : ∀ c : Char, c.isDigit = false → d ≠ c := by
    rintro c notDigit rfl
    rw [digit] at notDigit
    cases notDigit
  have visible : isBlank d = false := by
    simp [isBlank, other ' ' rfl, other '\n' rfl, other '\t' rfl, other '\r' rfl]
  rw [scanValue, dropBlanks_append_cons blank visible]
  simp [other '"' rfl, other '[' rfl, other '\x7b' rfl, other 'n' rfl, other 't' rfl,
    other 'f' rfl, other '-' rfl, digit]

private theorem scanValue_of_spellsNumber {t : NumberText} {s : List Char}
    (spells : SpellsNumber t s) {b rest : List Char} (blank : Blanks b) (ends : EndsNumber rest)
    (fuel : Nat) : scanValue (fuel + 1) (b ++ (s ++ rest)) = (t.tree, some rest) := by
  cases spells with
  | @parts isNegative whole fraction exponent ds e digits noZero spells scaled =>
    have scanned := fun negative =>
      scanNumber_of_parts negative digits noZero spells scaled ends
    cases isNegative
    · obtain ⟨d, whole, rfl⟩ := List.exists_cons_of_ne_nil digits.1
      have digit := digits.2 d List.mem_cons_self
      have number := scanValue_of_digit digit fuel blank
        (whole ++ (fraction ++ (exponent ++ rest)))
      simpa using number.trans (scanned false)
    · rw [scanValue]
      have minus := dropBlanks_append_cons blank (c := '-') rfl
        (whole ++ (fraction ++ (exponent ++ rest)))
      simp [minus, scanned true]

mutual

/-- A spelling of a tree is used up as a whole, with the blanks before it. -/
theorem scanValue_of_spells (fuel : Nat) {t : Tree} {s : List Char} (spells : t.Spells s)
    {b rest : List Char} (blank : Blanks b) (ends : EndsNumber rest)
    (enough : 2 * s.length ≤ fuel) :
    scanValue fuel (b ++ (s ++ rest)) = (t, some rest) := by
  obtain ⟨c, u, rfl, visible, -⟩ := spells.head
  obtain ⟨fuel, rfl⟩ : ∃ k, fuel = k + 1 := ⟨fuel - 1, by simp at enough; omega⟩
  match spells with
  | .number number valued =>
    rw [scanValue_of_spellsNumber number blank ends, NumberText.tree, valued]
  | .null => simp [scanValue, dropBlanks_append_cons blank, visible, scanWord]
  | .yes => simp [scanValue, dropBlanks_append_cons blank, visible, scanWord]
  | .no => simp [scanValue, dropBlanks_append_cons blank, visible, scanWord]
  | @Tree.Spells.string cs s inside =>
    have scanned := scanString_of_spells fuel inside (by simp at enough; omega) [] rest
    simp [scanValue, dropBlanks_append_cons blank, visible, scanned]
  | .emptyArray blank' =>
    have bracket := dropBlanks_append_cons blank' (c := ']') rfl rest
    simp [scanValue, dropBlanks_append_cons blank, visible, bracket]
  | @Tree.Spells.array ts b' s blank' items =>
    obtain ⟨d, u, rfl, visible', notBracket⟩ := items.head
    have first := dropBlanks_append_cons blank' visible' (u ++ rest)
    have scanned := scanItems_of_spells fuel rest items blanks_nil (by
      simp at enough ⊢; omega)
    rw [List.nil_append, List.cons_append] at scanned
    simp [scanValue, dropBlanks_append_cons blank, visible, first, notBracket, scanned]
  | .emptyObject blank' =>
    have bracket := dropBlanks_append_cons blank' (c := '\x7d') rfl rest
    simp [scanValue, dropBlanks_append_cons blank, visible, bracket]
  | @Tree.Spells.object ms b' s blank' members =>
    have quote := dropBlanks_append_cons blank' (c := '"') rfl (s ++ rest)
    have scanned := scanMembers_of_spells fuel rest members (by
      simp at enough; omega)
    simp [scanValue, dropBlanks_append_cons blank, visible, quote, scanned]

theorem scanItems_of_spells (fuel : Nat) (rest : List Char) {ts : List Tree} {s : List Char}
    (spells : Tree.SpellsItems ts s) {b : List Char} (blank : Blanks b)
    (enough : 2 * s.length + 1 ≤ fuel) :
    scanItems fuel (b ++ (s ++ rest)) = (ts, .closed, some rest) := by
  obtain ⟨fuel, rfl⟩ : ∃ k, fuel = k + 1 := ⟨fuel - 1, by omega⟩
  match spells with
  | @Tree.SpellsItems.last t s b' first after =>
    have ends : EndsNumber (b' ++ ']' :: rest) :=
      (endsNumber_cons (by decide) rest).append_blanks after
    have scanned := scanValue_of_spells fuel first blank ends (by
      simp at enough; omega)
    have bracket := dropBlanks_append_cons after (c := ']') rfl rest
    simp [scanItems, scanned, bracket]
  | @Tree.SpellsItems.more t ts s b' b'' u first after before others =>
    have ends : EndsNumber (b' ++ ',' :: (b'' ++ (u ++ rest))) :=
      (endsNumber_cons (by decide) _).append_blanks after
    have scanned := scanValue_of_spells fuel first blank ends (by
      simp at enough; omega)
    have comma := dropBlanks_append_cons after (c := ',') rfl (b'' ++ (u ++ rest))
    have scanned' := scanItems_of_spells fuel rest others before (by
      simp at enough; omega)
    simp [scanItems, scanned, comma, scanned']

theorem scanMembers_of_spells (fuel : Nat) (rest : List Char) {ms : List (Label × Tree)}
    {s : List Char} (spells : Tree.SpellsMembers ms s) (enough : 2 * s.length + 1 ≤ fuel) :
    scanMembers fuel (s ++ rest) = (ms, .closed, some rest) := by
  obtain ⟨fuel, rfl⟩ : ∃ k, fuel = k + 1 := ⟨fuel - 1, by omega⟩
  match spells with
  | @Tree.SpellsMembers.last cs k b₁ b₂ s b₃ t key colon before value after =>
    have name := scanString_of_spells fuel key (by simp at enough; omega) []
      (b₁ ++ ':' :: (b₂ ++ (s ++ (b₃ ++ '\x7d' :: rest))))
    have colon := dropBlanks_append_cons colon (c := ':') rfl
      (b₂ ++ (s ++ (b₃ ++ '\x7d' :: rest)))
    have ends : EndsNumber (b₃ ++ '\x7d' :: rest) :=
      (endsNumber_cons (by decide) rest).append_blanks after
    have scanned := scanValue_of_spells fuel value before ends (by
      simp at enough; omega)
    have bracket := dropBlanks_append_cons after (c := '\x7d') rfl rest
    simp [scanMembers, name, colon, scanned, bracket]
  | @Tree.SpellsMembers.more cs k b₁ b₂ s b₃ b₄ u t ms key colon before value after next others =>
    have name := scanString_of_spells fuel key (by simp at enough; omega) []
      (b₁ ++ ':' :: (b₂ ++ (s ++ (b₃ ++ ',' :: (b₄ ++ '"' :: (u ++ rest))))))
    have colon := dropBlanks_append_cons colon (c := ':') rfl
      (b₂ ++ (s ++ (b₃ ++ ',' :: (b₄ ++ '"' :: (u ++ rest)))))
    have ends : EndsNumber (b₃ ++ ',' :: (b₄ ++ '"' :: (u ++ rest))) :=
      (endsNumber_cons (by decide) _).append_blanks after
    have scanned := scanValue_of_spells fuel value before ends (by
      simp at enough; omega)
    have comma := dropBlanks_append_cons after (c := ',') rfl (b₄ ++ '"' :: (u ++ rest))
    have quote := dropBlanks_append_cons next (c := '"') rfl (u ++ rest)
    have scanned' := scanMembers_of_spells fuel rest others (by
      simp at enough; omega)
    simp [scanMembers, name, colon, scanned, comma, quote, scanned']

end

/-- A text spells a tree, with blanks around it. -/
def Tree.IsSpelledBy (t : Tree) (text : String) : Prop :=
  ∃ b s b', Blanks b ∧ t.Spells s ∧ Blanks b' ∧ text.toList = b ++ (s ++ b')

/-- A text that spells a tree is read as that tree and nothing else. -/
theorem Document.ofText_of_spelled {t : Tree} {text : String} (spelled : t.IsSpelledBy text) :
    Document.ofText text = ⟨t, true⟩ := by
  obtain ⟨b, s, b', before, spells, after, whole⟩ := spelled
  have ends : EndsNumber b' := by
    have ends := endsNumber_nil.append_blanks after
    rwa [List.append_nil] at ends
  have scanned := scanValue_of_spells (2 * text.toList.length + 2) spells before ends (by
    rw [whole]; simp; omega)
  rw [← whole] at scanned
  have alone : dropBlanks b' = [] := by
    have dropped := dropBlanks_append after []
    rwa [List.append_nil] at dropped
  simp only [Document.ofText, scanned, Option.map_some, alone, List.isEmpty_nil, Option.getD_some]

end ArithCircuit.Json
