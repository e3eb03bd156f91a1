import ArithCircuit.Listing.Render

set_option autoImplicit false
set_option relaxedAutoImplicit false

/-!
# The tokens of a listing

A listing is made of words, numbers, quoted names and marks, with blanks between them. `Lexes` says
which tokens a text is made of. Words and numbers are taken as far as they go, and a quoted name
ends at the first quote that is not escaped, so no text is made of two different lists of tokens:
this is `Lexes.unique`. `Spells` is for putting texts together.
-/

namespace ArithCircuit

namespace Text

/-! ### Quoted names -/

/-- The number that a hexadecimal digit stands for. -/
def hexDigit (c : Char) : Nat := if c.isDigit then c.toNat - 48 else c.toNat - 87

/-- The number that hexadecimal digits denote. -/
def hexValue (digits : List Char) : Nat := digits.foldl (fun n c => 16 * n + hexDigit c) 0

/-- What holds of the sixteen digits holds of all digits of a number. -/
theorem forall_mem_hex {P : Char → Prop} (digit : ∀ n < 16, P n.digitChar) (n : Nat) :
    ∀ c ∈ hex n, P c := by
  induction n using Nat.strongRecOn with
  | ind n ih =>
    intro c member
    by_cases small : n < 16
    · rw [hex, Nat.toDigits_of_lt_base small, List.mem_singleton] at member
      exact member ▸ digit n small
    · have digits : hex n = hex (n / 16) ++ [(n % 16).digitChar] :=
        Nat.toDigits_of_base_le (by decide) (by omega)
      rw [digits, List.mem_append, List.mem_singleton] at member
      rcases member with member | rfl
      · exact ih (n / 16) (by omega) c member
      · exact digit (n % 16) (by omega)

theorem hexDigit_digitChar {n : Nat} (small : n < 16) : hexDigit n.digitChar = n := by
  revert n
  decide

theorem hexValue_hex (n : Nat) : hexValue (hex n) = n := by
  induction n using Nat.strongRecOn with
  | ind n ih =>
    by_cases small : n < 16
    · rw [hex, Nat.toDigits_of_lt_base small]
      simpa [hexValue] using hexDigit_digitChar small
    · have value := ih (n / 16) (by omega)
      have lastValue := hexDigit_digitChar (Nat.mod_lt n (by decide : 0 < 16))
      have digits : hex n = hex (n / 16) ++ [(n % 16).digitChar] :=
        Nat.toDigits_of_base_le (by decide) (by omega)
      rw [digits, hexValue, List.foldl_append, List.foldl_cons, List.foldl_nil, ← hexValue, value,
        lastValue]
      exact Nat.div_add_mod n 16

/-- What stands in front of the first closing brace of a text. -/
def untilBrace (text : List Char) : List Char := text.takeWhile (· ≠ '\x7d')

/-- The first character that is written in a text between quotes, and the text behind it. -/
def readEscaped : List Char → Option (Char × List Char)
  | '\\' :: 'n' :: rest => some ('\n', rest)
  | '\\' :: 'r' :: rest => some ('\r', rest)
  | '\\' :: 't' :: rest => some ('\t', rest)
  | '\\' :: '0' :: rest => some ('\x00', rest)
  | '\\' :: 'u' :: '\x7b' :: rest =>
    some (Char.ofNat (hexValue (untilBrace rest)), rest.drop ((untilBrace rest).length + 1))
  | '\\' :: c :: rest => some (c, rest)
  | c :: rest => some (c, rest)
  | [] => none

/-- The form of a character between quotes is the character itself, or begins with a backslash that
tells which character is meant. -/
theorem escapeQuoted_cases (c : Char) :
    (∃ mark, escapeQuoted c = ['\\', mark] ∧
        ∀ rest, readEscaped ('\\' :: mark :: rest) = some (c, rest)) ∨
      escapeQuoted c = ['\\', 'u', '\x7b'] ++ hex c.toNat ++ ['\x7d'] ∨
      escapeQuoted c = [c] ∧ c ≠ '"' ∧ c ≠ '\\' := by
  by_cases quote : c = '"'
  · subst c
    exact .inl ⟨'"', rfl, fun _ => rfl⟩
  by_cases backslash : c = '\\'
  · subst c
    exact .inl ⟨'\\', rfl, fun _ => rfl⟩
  by_cases newline : c = '\n'
  · subst c
    exact .inl ⟨'n', rfl, fun _ => rfl⟩
  by_cases back : c = '\r'
  · subst c
    exact .inl ⟨'r', rfl, fun _ => rfl⟩
  by_cases tab : c = '\t'
  · subst c
    exact .inl ⟨'t', rfl, fun _ => rfl⟩
  by_cases zero : c.toNat = 0
  · have same : c = '\x00' := Char.toNat_inj.1 zero
    subst same
    exact .inl ⟨'0', rfl, fun _ => rfl⟩
  rw [escapeQuoted, if_neg quote, if_neg backslash, if_neg newline, if_neg back, if_neg tab,
    if_neg zero]
  split
  · exact .inr (.inl rfl)
  · exact .inr (.inr ⟨rfl, quote, backslash⟩)

/-- A character is read back from its form between quotes. -/
theorem readEscaped_escapeQuoted (c : Char) (rest : List Char) :
    readEscaped (escapeQuoted c ++ rest) = some (c, rest) := by
  obtain ⟨mark, form, read⟩ | form | ⟨form, -, backslash⟩ := escapeQuoted_cases c
  · rw [form]
    exact read rest
  · -- No digit is a closing brace, so the first brace ends the number.
    have value := hexValue_hex c.toNat
    have other : ∀ digit ∈ hex c.toNat, digit ≠ '\x7d' := forall_mem_hex (by decide) c.toNat
    have digits : untilBrace (hex c.toNat ++ '\x7d' :: rest) = hex c.toNat := by
      rw [untilBrace, List.takeWhile_append_of_pos (by simpa using other)]
      simp
    simp [form, readEscaped, digits, value]
  · simp [form, readEscaped, backslash]

/-- No form of a character begins like the end of a quoted text. -/
theorem head?_escapeQuoted (c : Char) (rest : List Char) :
    (escapeQuoted c ++ rest).head? ≠ some '"' := by
  obtain ⟨mark, form, -⟩ | form | ⟨form, quote, -⟩ := escapeQuoted_cases c
  · simp [form]
  · simp [form]
  · simpa [form] using quote

theorem flatMap_escapeQuoted_inj {s s' rest rest' : List Char}
    (same : s.flatMap escapeQuoted ++ '"' :: rest = s'.flatMap escapeQuoted ++ '"' :: rest') :
    s = s' ∧ rest = rest' := by
  induction s generalizing s' with
  | nil =>
    cases s' with
    | nil => simpa using same
    | cons c s' =>
      rw [List.flatMap_cons, List.append_assoc] at same
      exact absurd (congrArg List.head? same).symm (head?_escapeQuoted c _)
  | cons c s ih =>
    rw [List.flatMap_cons, List.append_assoc] at same
    cases s' with
    | nil => exact absurd (congrArg List.head? same) (head?_escapeQuoted c _)
    | cons c' s' =>
      rw [List.flatMap_cons, List.append_assoc] at same
      have read := congrArg readEscaped same
      rw [readEscaped_escapeQuoted, readEscaped_escapeQuoted, Option.some.injEq,
        Prod.mk.injEq] at read
      obtain ⟨rfl, more⟩ := read
      obtain ⟨rfl, rfl⟩ := ih more
      exact ⟨rfl, rfl⟩

/-- A quoted text in front of another one ends where it says. -/
theorem quoted_append_inj {s s' : String} {rest rest' : List Char}
    (same : (quoted s).toList ++ rest = (quoted s').toList ++ rest') : s = s' ∧ rest = rest' := by
  simp only [quoted, String.toList_ofList, List.cons_append, List.append_assoc, List.nil_append,
    List.cons.injEq, true_and] at same
  obtain ⟨chars, rfl⟩ := flatMap_escapeQuoted_inj same
  exact ⟨String.toList_inj.1 chars, rfl⟩

end Text

namespace Listing

open Text (quoted quoted_append_inj)

/-! ### Tokens -/

/-- What a character of a listing is, outside quoted names. -/
inductive CharClass where
  | digit
  | letter
  | blank
  | quote
  | mark
  | other
  deriving DecidableEq

/-- The marks. -/
def marks : List Char := ['(', ')', '[', ']', '\x7b', '\x7d', ',', ';', ':', '?']

/-- The class of a character. -/
def charClass (c : Char) : CharClass :=
  if c.isDigit then .digit
  else if c.isAlpha then .letter
  else if c.isWhitespace then .blank
  else if c = '"' then .quote
  else if c ∈ marks then .mark
  else .other

/-- Whether a text is made of letters. -/
def isWord (s : String) : Bool := s.toList != [] && s.toList.all (charClass · == .letter)

/-- A token of a listing. -/
inductive Token where
  | word (letters : String)
  | number (digits : String)
  | name (s : String)
  | mark (c : Char)

namespace Token

/-- The text of a token. -/
def chars : Token → List Char
  | word letters => letters.toList
  | number digits => digits.toList
  | name s => (quoted s).toList
  | mark c => [c]

/-- What a token begins with. -/
def charClass : Token → CharClass
  | word _ => .letter
  | number _ => .digit
  | name _ => .quote
  | mark _ => .mark

end Token

/-- One or more characters of a class, as many as there are. -/
structure IsRun (k : CharClass) (run rest : List Char) : Prop where
  ne_nil : run ≠ []
  all : ∀ c ∈ run, charClass c = k
  ends : ∀ c ∈ rest.head?, charClass c ≠ k

theorem IsRun.unique {k : CharClass} {run run' rest rest' : List Char} (first : IsRun k run rest)
    (second : IsRun k run' rest') (same : run ++ rest = run' ++ rest') :
    run = run' ∧ rest = rest' := by
  have taken : ∀ {run rest}, IsRun k run rest →
      (run ++ rest).takeWhile (fun c => charClass c = k) = run := by
    intro run rest isRun
    rw [List.takeWhile_append_of_pos (by simpa using isRun.all)]
    cases rest with
    | nil => simp
    | cons c rest => simpa [List.takeWhile_cons] using isRun.ends c rfl
  have runs : run = run' := by rw [← taken first, same, taken second]
  exact ⟨runs, List.append_cancel_left (runs ▸ same)⟩

/-- Whether a token may stand in front of a text. -/
def Token.Stands (rest : List Char) : Token → Prop
  | word letters => IsRun .letter letters.toList rest
  | number digits => IsRun .digit digits.toList rest
  | name _ => True
  | mark c => Listing.charClass c = .mark

theorem Token.Stands.exists_chars {t : Token} {rest : List Char} (stands : t.Stands rest) :
    ∃ c more, t.chars = c :: more ∧ Listing.charClass c = t.charClass := by
  have run : ∀ {k chars}, IsRun k chars rest →
      ∃ c more, chars = c :: more ∧ Listing.charClass c = k := by
    intro k chars isRun
    obtain ⟨c, more, rfl⟩ := List.exists_cons_of_ne_nil isRun.ne_nil
    exact ⟨c, more, rfl, isRun.all c (by simp)⟩
  cases t with
  | word letters => exact run stands
  | number digits => exact run stands
  | name s =>
    have quote : Listing.charClass '"' = .quote := by decide
    exact ⟨'"', _, String.toList_ofList, quote⟩
  | mark c => exact ⟨c, [], rfl, stands⟩

/-- The token that a text begins with is determined by the text. -/
theorem Token.Stands.unique {t t' : Token} {rest rest' : List Char} (first : t.Stands rest)
    (second : t'.Stands rest') (same : t.chars ++ rest = t'.chars ++ rest') :
    t = t' ∧ rest = rest' := by
  obtain ⟨c, more, chars, ofFirst⟩ := first.exists_chars
  obtain ⟨c', more', chars', ofSecond⟩ := second.exists_chars
  have heads : c = c' := by
    rw [chars, chars', List.cons_append, List.cons_append] at same
    exact (List.cons.inj same).1
  -- The first character tells the sort of the token, and so how far the token goes.
  have classes : t.charClass = t'.charClass := by rw [← ofFirst, ← ofSecond, heads]
  cases t <;> cases t' <;> cases classes
  case word.word =>
    obtain ⟨letters, rfl⟩ := IsRun.unique first second same
    exact ⟨congrArg Token.word (String.toList_inj.1 letters), rfl⟩
  case number.number =>
    obtain ⟨digits, rfl⟩ := IsRun.unique first second same
    exact ⟨congrArg Token.number (String.toList_inj.1 digits), rfl⟩
  case name.name =>
    obtain ⟨rfl, rfl⟩ := quoted_append_inj same
    exact ⟨rfl, rfl⟩
  case mark.mark =>
    obtain ⟨rfl, rfl⟩ := List.cons.inj same
    exact ⟨rfl, rfl⟩

/-- A text is made of tokens, with blanks between them. -/
inductive Lexes : List Char → List Token → Prop where
  | nil : Lexes [] []
  | blank {c : Char} {rest : List Char} {tokens : List Token} :
      charClass c = .blank → Lexes rest tokens → Lexes (c :: rest) tokens
  | token {t : Token} {text rest : List Char} {tokens : List Token} :
      text = t.chars ++ rest → t.Stands rest → Lexes rest tokens → Lexes text (t :: tokens)

theorem Token.Stands.append_ne_nil {t : Token} {rest rest' : List Char} (stands : t.Stands rest) :
    [] ≠ t.chars ++ rest' := by
  obtain ⟨c, more, chars, -⟩ := stands.exists_chars
  rw [chars]
  nofun

theorem Token.Stands.append_ne_blank {t : Token} {rest rest' : List Char} {c : Char}
    (stands : t.Stands rest) (blank : Listing.charClass c = .blank) :
    c :: rest' ≠ t.chars ++ rest := by
  obtain ⟨c', more, chars, ofToken⟩ := stands.exists_chars
  rw [chars, List.cons_append]
  rintro ⟨⟩
  rw [blank] at ofToken
  cases t <;> cases ofToken

/-- A text is made of one list of tokens at most. -/
theorem Lexes.unique {text : List Char} {tokens tokens' : List Token} (first : Lexes text tokens)
    (second : Lexes text tokens') : tokens = tokens' := by
  induction first generalizing tokens' with
  | nil =>
    cases second with
    | nil => rfl
    | token same stands _ => exact absurd same stands.append_ne_nil
  | blank blank _ ih =>
    cases second with
    | blank _ second => exact ih second
    | token same stands _ => exact absurd same (stands.append_ne_blank blank)
  | token same stands _ ih =>
    cases second with
    | nil => exact absurd same stands.append_ne_nil
    | blank blank _ => exact absurd same (stands.append_ne_blank blank)
    | token same' stands' second =>
      obtain ⟨rfl, rfl⟩ := stands.unique stands' (same.symm.trans same')
      rw [ih second]

/-! ### Putting texts together -/

/-- A text that no word and no number goes on with: it begins with a mark or a blank, if at all. -/
def Apart (text : List Char) : Prop :=
  ∀ c ∈ text.head?, charClass c = .mark ∨ charClass c = .blank

theorem apart_nil : Apart [] := by simp [Apart]

theorem apart_cons {c : Char} (separates : charClass c = .mark ∨ charClass c = .blank)
    (text : List Char) : Apart (c :: text) := by
  rintro _ ⟨⟩
  exact separates

theorem Apart.append {text rest : List Char} (first : Apart text) (second : Apart rest) :
    Apart (text ++ rest) := by
  cases text with
  | nil => exact second
  | cons c text => exact first

theorem Apart.isRun {rest run : List Char} {k : CharClass} (apart : Apart rest) (ne_nil : run ≠ [])
    (all : ∀ c ∈ run, charClass c = k) (solid : k ≠ .mark ∧ k ≠ .blank) : IsRun k run rest := by
  refine ⟨ne_nil, all, ?_⟩
  rintro c head rfl
  rcases apart c head with mark | blank
  · exact solid.1 mark
  · exact solid.2 blank

/-- A text is made of tokens wherever it stands apart from what follows. -/
def Spells (text : List Char) (tokens : List Token) : Prop :=
  ∀ rest more, Apart rest → Lexes rest more → Lexes (text ++ rest) (tokens ++ more)

namespace Spells

variable {text text' : List Char} {tokens tokens' : List Token} {c : Char}

theorem lexes (spells : Spells text tokens) : Lexes text tokens := by
  have whole := spells [] [] apart_nil .nil
  rwa [List.append_nil, List.append_nil] at whole

theorem nil : Spells [] [] := fun _ _ _ lexes => lexes

theorem append (first : Spells text tokens) (second : Spells text' tokens') (apart : Apart text') :
    Spells (text ++ text') (tokens ++ tokens') := by
  intro rest more restApart lexes
  rw [List.append_assoc, List.append_assoc]
  exact first _ _ (apart.append restApart) (second _ _ restApart lexes)

theorem blank (class_eq : charClass c = .blank) (spells : Spells text tokens) :
    Spells (c :: text) tokens :=
  fun rest more apart lexes => .blank class_eq (spells rest more apart lexes)

theorem mark (class_eq : charClass c = .mark) (spells : Spells text tokens) :
    Spells (c :: text) (.mark c :: tokens) :=
  fun rest more apart lexes => .token rfl class_eq (spells rest more apart lexes)

/-- A mark between blanks. -/
theorem spaced (class_eq : charClass c = .mark) (spells : Spells text tokens) :
    Spells (' ' :: c :: ' ' :: text) (.mark c :: tokens) :=
  blank (by decide) (mark class_eq (blank (by decide) spells))

theorem blanks (all : ∀ c ∈ text', charClass c = .blank) (spells : Spells text tokens) :
    Spells (text' ++ text) tokens := by
  induction text' with
  | nil => exact spells
  | cons c text' ih =>
    exact blank (all c (by simp)) (ih fun c' member => all c' (by simp [member]))

theorem word {letters : String} (plain : isWord letters = true) :
    Spells letters.toList [.word letters] := by
  intro rest more apart lexes
  simp only [isWord, Bool.and_eq_true, bne_iff_ne, List.all_eq_true, beq_iff_eq] at plain
  exact .token rfl (apart.isRun plain.1 plain.2 (by decide)) lexes

theorem name (s : String) : Spells (quoted s).toList [.name s] :=
  fun _ _ _ lexes => .token rfl trivial lexes

theorem decimal (n : Nat) : Spells (Decimal.text n).toList [.number (Decimal.text n)] := by
  have digits : ∀ c ∈ (Decimal.text n).toList, charClass c = .digit := by
    intro c member
    rw [Decimal.toList_text] at member
    rw [charClass, if_pos (Nat.isDigit_of_mem_toDigits (by decide) (by decide) member)]
  have ne_nil : (Decimal.text n).toList ≠ [] := by
    rw [Decimal.toList_text]
    exact Nat.toDigits_ne_nil
  exact fun _ _ apart lexes => .token rfl (apart.isRun ne_nil digits (by decide)) lexes

end Spells

/-- Whole lines are made of tokens whatever follows. -/
def SpellsLines (text : List Char) (tokens : List Token) : Prop :=
  ∀ rest more, Lexes rest more → Lexes (text ++ rest) (tokens ++ more)

namespace SpellsLines

variable {text text' : List Char} {tokens tokens' : List Token}

theorem lexes (spells : SpellsLines text tokens) : Lexes text tokens := by
  have whole := spells [] [] .nil
  rwa [List.append_nil, List.append_nil] at whole

theorem nil : SpellsLines [] [] := fun _ _ lexes => lexes

theorem append (first : SpellsLines text tokens) (second : SpellsLines text' tokens') :
    SpellsLines (text ++ text') (tokens ++ tokens') := by
  intro rest more lexes
  rw [List.append_assoc, List.append_assoc]
  exact first _ _ (second _ _ lexes)

/-- A line is made of the tokens of what is written on it. -/
theorem line {indentation : List Char} (blank : ∀ c ∈ indentation, charClass c = .blank)
    (spells : Spells text tokens) : SpellsLines (indentation ++ text ++ ['\n']) tokens := by
  intro rest more lexes
  rw [List.append_assoc]
  exact Spells.blanks blank spells ('\n' :: rest) more (apart_cons (by decide) rest)
    (.blank (by decide) lexes)

end SpellsLines

theorem intercalate_cons {α : Type} (separator first : List α) (more : List (List α)) :
    separator.intercalate (first :: more) = first ++ more.flatMap (separator ++ ·) := by
  induction more generalizing first with
  | nil => simp
  | cons second more ih =>
    rw [List.intercalate_cons_cons, ih, List.flatMap_cons, List.append_assoc, List.append_assoc]

/-- Texts with a comma in front of each are made of their tokens with a comma in front of each. -/
theorem Spells.afterCommas {α : Type} {text : α → List Char} {tokens : α → List Token} {l : List α}
    (each : ∀ a ∈ l, Spells (text a) (tokens a)) :
    Spells (l.flatMap fun a => [',', ' '] ++ text a) (l.flatMap fun a => [.mark ','] ++ tokens a) ∧
      Apart (l.flatMap fun a => [',', ' '] ++ text a) := by
  induction l with
  | nil => exact ⟨.nil, apart_nil⟩
  | cons a l ih =>
    obtain ⟨rest, apart⟩ := ih fun b member => each b (by simp [member])
    have first : Spells ([',', ' '] ++ text a) ([.mark ','] ++ tokens a) :=
      .mark (by decide) (.blank (by decide) (each a (by simp)))
    constructor
    · rw [List.flatMap_cons, List.flatMap_cons]
      exact first.append rest apart
    · exact apart_cons (by decide) _

/-- Texts with commas between them are made of their tokens with commas between them. -/
theorem Spells.commas {α : Type} {text : α → List Char} {tokens : α → List Token} {l : List α}
    (each : ∀ a ∈ l, Spells (text a) (tokens a)) :
    Spells ([',', ' '].intercalate (l.map text)) ([.mark ','].intercalate (l.map tokens)) := by
  cases l with
  | nil => exact .nil
  | cons a l =>
    have others : ∀ b ∈ l, Spells (text b) (tokens b) := fun b member => each b (.tail a member)
    obtain ⟨rest, apart⟩ := Spells.afterCommas others
    rw [List.map_cons, List.map_cons, intercalate_cons, intercalate_cons, List.flatMap_map,
      List.flatMap_map]
    exact (each a (by simp)).append rest apart

end Listing

end ArithCircuit
