import ArithCircuit.Proofs.Spelling

set_option autoImplicit false
set_option relaxedAutoImplicit false

/-!
# Values and what stands behind them

A value that is scanned up to its end is scanned the same whatever follows it, as long as a number
is not continued. The scanners of the parts of a token come first; a value is then built from one
step of `Stable`. Main statement: `stable`.
-/

namespace ArithCircuit.Json

/-! ### Blanks and words -/

theorem dropBlanks_append_of_cons {s r : List Char} {c : Char} (visible : dropBlanks s = c :: r)
    (x : List Char) : dropBlanks (s ++ x) = c :: (r ++ x) := by
  rw [dropBlanks] at visible ⊢
  rw [List.dropWhile_append, visible]
  rfl

theorem isBlank_of_dropBlanks {s r : List Char} {c : Char} (visible : dropBlanks s = c :: r) :
    isBlank c = false := by
  have first := List.head?_dropWhile_not isBlank s
  rw [← dropBlanks, visible] at first
  simpa using first

theorem scanWord_append {result t : Tree} {cut : Fault → Cut} {ws s r : List Char}
    (scanned : scanWord result cut ws s = (t, some r)) (x : List Char) :
    scanWord result cut ws (s ++ x) = (t, some (r ++ x)) := by
  induction ws generalizing s with
  | nil =>
    cases scanned
    rfl
  | cons w ws ih =>
    cases s with
    | nil => cases scanned
    | cons c s =>
      rw [scanWord] at scanned
      rw [List.cons_append, scanWord]
      split at scanned
      case isTrue same =>
        rw [if_pos same]
        exact ih scanned
      case isFalse => cases scanned

/-! ### Strings -/

/-- A piece of a string with more text behind it. -/
def StringPiece.followedBy (x : List Char) : StringPiece → StringPiece
  | .char c rest => .char c (rest ++ x)
  | .half rest => .half (rest ++ x)
  | .cut f => .cut f

/-- A string with more text behind it. -/
def ScannedString.followedBy (x : List Char) : ScannedString → ScannedString
  | .text s rest => .text s (rest ++ x)
  | .unreadable rest => .unreadable (rest ++ x)
  | .cut c => .cut c

theorem scanQuad_append {s r : List Char} {n : Nat} (scanned : scanQuad s = .ok (n, r))
    (x : List Char) : scanQuad (s ++ x) = .ok (n, r ++ x) := by
  match s with
  | a :: b :: c :: d :: rest =>
    simp only [scanQuad, List.cons_append] at scanned ⊢
    split at scanned
    · cases scanned
      rfl
    · cases scanned
  | [] | [_] | [_, _] | [_, _, _] => simp [scanQuad] at scanned

/-- What follows the first half of a pair of code units. -/
def afterLeading (n : Nat) : List Char → StringPiece
  | [] => .cut .truncated
  | ['\\'] => .cut .truncated
  | '\\' :: 'u' :: again =>
    match scanQuad again with
    | .error f => .cut f
    | .ok (m, rest) => if isTrailing m then .char (pairChar n m) rest else .half rest
  | rest => .half rest

theorem scanEscape_unit (rest : List Char) :
    scanEscape ('u' :: rest) =
      match scanQuad rest with
      | .error f => .cut f
      | .ok (n, rest) =>
        if isTrailing n then .half rest
        else if isLeading n then afterLeading n rest
        else .char (Char.ofNat n) rest := by
  rfl

theorem afterLeading_append (n : Nat) (s x : List Char) :
    (∃ f, afterLeading n s = .cut f) ∨
      afterLeading n (s ++ x) = (afterLeading n s).followedBy x := by
  unfold afterLeading
  split
  · exact .inl ⟨_, rfl⟩
  · exact .inl ⟨_, rfl⟩
  · next again =>
    cases quad : scanQuad again with
    | error f => exact .inl ⟨f, rfl⟩
    | ok read =>
      obtain ⟨m, rest⟩ := read
      right
      simp only [List.cons_append, scanQuad_append quad]
      split <;> rfl
  · next noEnd noSlash noUnit =>
    right
    split
    · next nothing => exact absurd (List.append_eq_nil_iff.1 nothing).1 noEnd
    · next slash =>
      obtain ⟨none, -⟩ | ⟨rest, rfl, short⟩ := List.append_eq_cons_iff.1 slash
      · exact absurd none noEnd
      · rw [(List.append_eq_nil_iff.1 short.symm).1] at noSlash
        exact absurd rfl noSlash
    · next again slash =>
      obtain ⟨none, -⟩ | ⟨rest, rfl, unit⟩ := List.append_eq_cons_iff.1 slash
      · exact absurd none noEnd
      · obtain ⟨rfl, -⟩ | ⟨rest', rfl, -⟩ := List.append_eq_cons_iff.1 unit.symm
        · exact absurd rfl noSlash
        · exact absurd rfl (noUnit rest')
    · rfl

/-- An escape that is complete stands for the same whatever follows it. -/
theorem scanEscape_append (s x : List Char) :
    (∃ f, scanEscape s = .cut f) ∨ scanEscape (s ++ x) = (scanEscape s).followedBy x := by
  cases s with
  | nil => exact .inl ⟨_, rfl⟩
  | cons c rest =>
    rw [List.cons_append]
    by_cases unit : c = 'u'
    · subst unit
      rw [scanEscape_unit, scanEscape_unit]
      cases quad : scanQuad rest with
      | error f => exact .inl ⟨f, rfl⟩
      | ok read =>
        obtain ⟨n, rest⟩ := read
        rw [scanQuad_append quad]
        by_cases trailing : isTrailing n = true
        · simp [trailing, StringPiece.followedBy]
        · by_cases leading : isLeading n = true
          · simpa [trailing, leading] using afterLeading_append n rest x
          · simp [trailing, leading, StringPiece.followedBy]
    · simp only [scanEscape, if_neg unit]
      cases shortEscape? c with
      | none => exact .inl ⟨_, rfl⟩
      | some e => exact .inr rfl

/-- A string that is complete is the same whatever follows its closing quote. -/
theorem scanString_append {fuel fuel' : Nat} (enough : fuel ≤ fuel') (seen : Option (List Char))
    (s x : List Char) :
    (∃ c, scanString fuel seen s = .cut c) ∨
      scanString fuel' seen (s ++ x) = (scanString fuel seen s).followedBy x := by
  induction fuel generalizing fuel' seen s with
  | zero => exact .inl ⟨_, rfl⟩
  | succ fuel ih =>
    obtain ⟨fuel', rfl⟩ : ∃ k, fuel' = k + 1 := ⟨fuel' - 1, by omega⟩
    have enough : fuel ≤ fuel' := by omega
    cases s with
    | nil => exact .inl ⟨_, rfl⟩
    | cons c rest =>
      rw [List.cons_append]
      simp only [scanString]
      split
      case isTrue quote =>
        right
        cases seen <;> rfl
      case isFalse noQuote =>
      split
      case isTrue slash =>
        rcases scanEscape_append rest x with ⟨f, cut⟩ | same
        · rw [cut]
          exact .inl ⟨_, rfl⟩
        · rw [same]
          cases scanEscape rest with
          | char e rest => exact ih enough _ rest
          | half rest => exact ih enough none rest
          | cut f => exact .inl ⟨_, rfl⟩
      case isFalse noSlash =>
      split
      case isTrue control => exact .inl ⟨_, rfl⟩
      case isFalse visible => exact ih enough _ rest

/-! ### Numbers -/

theorem takeWhile_append_digits {x : List Char} (ends : EndsNumber x) (s : List Char) :
    (s ++ x).takeWhile Char.isDigit = s.takeWhile Char.isDigit ∧
      (s ++ x).dropWhile Char.isDigit = s.dropWhile Char.isDigit ++ x := by
  induction s with
  | nil =>
    cases x with
    | nil => exact ⟨rfl, rfl⟩
    | cons c x =>
      have other := (ends c rfl).1
      simp [other]
  | cons c s ih =>
    by_cases digit : c.isDigit = true
    · simp [digit, ih]
    · simp [digit]

/-- The digits of an exponent, behind its sign. -/
def exponentDigits (t : NumberText) (isNegative : Bool) (s : List Char) : Scanned :=
  let digits := s.takeWhile Char.isDigit
  if digits.isEmpty then lackingDigits s
  else
    let n : Int := Nat.ofDigitChars 10 digits 0
    ({ t with exponent := some (if isNegative then -n else n) }.tree,
      some (s.dropWhile Char.isDigit))

theorem exponentDigits_append {t : NumberText} {isNegative : Bool} {s r x : List Char} {tree : Tree}
    (scanned : exponentDigits t isNegative s = (tree, some r)) (ends : EndsNumber x) :
    exponentDigits t isNegative (s ++ x) = (tree, some (r ++ x)) := by
  obtain ⟨taken, left⟩ := takeWhile_append_digits ends s
  simp only [exponentDigits, taken, left] at scanned ⊢
  split at scanned
  case isTrue => cases scanned
  case isFalse digits =>
    cases scanned
    rw [if_neg digits]

/-- An exponent is its digits behind a sign, or without one. -/
theorem scanExponent_cases (t : NumberText) (s : List Char) :
    (∃ rest, s = '+' :: rest ∧ scanExponent t s = exponentDigits t false rest) ∨
      (∃ rest, s = '-' :: rest ∧ scanExponent t s = exponentDigits t true rest) ∨
      (s.head? ≠ some '+' ∧ s.head? ≠ some '-' ∧ scanExponent t s = exponentDigits t false s) := by
  match s with
  | [] => exact .inr (.inr ⟨nofun, nofun, rfl⟩)
  | c :: rest =>
    by_cases plus : c = '+'
    · subst plus
      exact .inl ⟨rest, rfl, rfl⟩
    · by_cases minus : c = '-'
      · subst minus
        exact .inr (.inl ⟨rest, rfl, rfl⟩)
      · refine .inr (.inr ⟨by simpa using plus, by simpa using minus, ?_⟩)
        rw [scanExponent]
        · rfl
        all_goals simp [plus, minus]

theorem scanExponent_append {t : NumberText} {s r x : List Char} {tree : Tree}
    (scanned : scanExponent t s = (tree, some r)) (ends : EndsNumber x) :
    scanExponent t (s ++ x) = (tree, some (r ++ x)) := by
  rcases scanExponent_cases t s with ⟨rest, rfl, same⟩ | ⟨rest, rfl, same⟩ | ⟨plus, minus, same⟩
  · rw [same] at scanned
    exact exponentDigits_append scanned ends
  · rw [same] at scanned
    exact exponentDigits_append scanned ends
  · rw [same] at scanned
    cases s with
    | nil => cases scanned
    | cons c s =>
      have scanned' := exponentDigits_append scanned ends
      rcases scanExponent_cases t (c :: s ++ x) with ⟨_, here, -⟩ | ⟨_, here, -⟩ | ⟨-, -, same'⟩
      · cases here
        exact absurd rfl plus
      · cases here
        exact absurd rfl minus
      · rw [same', scanned']

theorem append_ne_cons {s x : List Char} {c : Char} (other : ∀ rest, s ≠ c :: rest)
    (other' : c ∉ x.head?) (rest : List Char) : s ++ x ≠ c :: rest := by
  intro same
  obtain ⟨rfl, rfl⟩ | ⟨rest', rfl, -⟩ := List.append_eq_cons_iff.1 same
  · exact other' rfl
  · exact other rest' rfl

theorem scanScale_append {t : NumberText} {s r x : List Char} {tree : Tree}
    (scanned : scanScale t s = (tree, some r)) (ends : EndsNumber x) :
    scanScale t (s ++ x) = (tree, some (r ++ x)) := by
  unfold scanScale at scanned
  split at scanned
  · exact scanExponent_append scanned ends
  · exact scanExponent_append scanned ends
  · next small large =>
    cases scanned
    rw [scanScale]
    · exact append_ne_cons small fun member => (ends 'e' member).2.2.1 rfl
    · exact append_ne_cons large fun member => (ends 'E' member).2.2.2 rfl

/-- What follows the whole part of a number. -/
def scanFraction (t : NumberText) : List Char → Scanned
  | '.' :: rest =>
    let fraction := rest.takeWhile Char.isDigit
    if fraction.isEmpty then lackingDigits rest
    else scanScale { t with fraction := some fraction } (rest.dropWhile Char.isDigit)
  | rest => scanScale t rest

theorem scanNumber_eq (isNegative : Bool) (s : List Char) :
    scanNumber isNegative s =
      let digits := s.takeWhile Char.isDigit
      if digits.isEmpty then lackingDigits s
      else if digits.head? = some '0' ∧ 1 < digits.length then
        (.broken (.number .malformed), none)
      else scanFraction ⟨isNegative, digits, none, none⟩ (s.dropWhile Char.isDigit) := by
  rfl

theorem scanFraction_append {t : NumberText} {s r x : List Char} {tree : Tree}
    (scanned : scanFraction t s = (tree, some r)) (ends : EndsNumber x) :
    scanFraction t (s ++ x) = (tree, some (r ++ x)) := by
  unfold scanFraction at scanned
  split at scanned
  · next rest =>
    obtain ⟨taken, left⟩ := takeWhile_append_digits ends rest
    simp only [List.cons_append, scanFraction, taken, left] at scanned ⊢
    split at scanned
    case isTrue => cases scanned
    case isFalse digits =>
      rw [if_neg digits]
      exact scanScale_append scanned ends
  · next noPoint =>
    rw [scanFraction]
    · exact scanScale_append scanned ends
    · exact append_ne_cons noPoint fun member => (ends '.' member).2.1 rfl

theorem scanNumber_append {isNegative : Bool} {s r x : List Char} {tree : Tree}
    (scanned : scanNumber isNegative s = (tree, some r)) (ends : EndsNumber x) :
    scanNumber isNegative (s ++ x) = (tree, some (r ++ x)) := by
  obtain ⟨taken, left⟩ := takeWhile_append_digits ends s
  simp only [scanNumber_eq, taken, left] at scanned ⊢
  split at scanned
  case isTrue => cases scanned
  case isFalse digits =>
  split at scanned
  case isTrue => cases scanned
  case isFalse noZero =>
    rw [if_neg digits, if_neg noZero]
    exact scanFraction_append scanned ends

/-! ### Values -/

/-- A string in the place of a value. -/
def ScannedString.value : ScannedString → Scanned
  | .text s rest => (.string s, some rest)
  | .unreadable rest => (.unreadable, some rest)
  | .cut c => (.broken c, none)

/-- A string in the place of a key. -/
def ScannedString.label : ScannedString → Label × Option (List Char)
  | .text s rest => (.text s, some rest)
  | .unreadable rest => (.unreadable, some rest)
  | .cut c => (.broken c, none)

theorem ScannedString.value_followedBy {string : ScannedString} {t : Tree} {rest : List Char}
    (found : string.value = (t, some rest)) (x : List Char) :
    (string.followedBy x).value = (t, some (rest ++ x)) := by
  cases string with
  | text | unreadable =>
    cases found
    rfl
  | cut => cases found

theorem ScannedString.label_followedBy {string : ScannedString} {label : Label} {rest : List Char}
    (found : string.label = (label, some rest)) (x : List Char) :
    (string.followedBy x).label = (label, some (rest ++ x)) := by
  cases string with
  | text | unreadable =>
    cases found
    rfl
  | cut => cases found

/-- The items of an array and its closing bracket. -/
def ofItems : List Tree × Ending × Option (List Char) → Scanned
  | (items, ending, rest) => (.array items ending, rest)

/-- The members of an object and its closing bracket. -/
def ofMembers : List (Label × Tree) × Ending × Option (List Char) → Scanned
  | (members, ending, rest) => (.object members ending, rest)

theorem scanValue_of_dropBlanks {s r : List Char} {c : Char} (visible : dropBlanks s = c :: r)
    (fuel : Nat) : scanValue fuel s = scanValue fuel (c :: r) := by
  cases fuel with
  | zero => rfl
  | succ fuel =>
    have same := dropBlanks_cons (isBlank_of_dropBlanks visible) r
    rw [scanValue, scanValue, visible, same]

theorem scanValue_quote (fuel : Nat) (s : List Char) :
    scanValue (fuel + 1) ('"' :: s) = (scanString fuel (some []) s).value := by
  rw [scanValue, dropBlanks_cons rfl]
  cases scanned : scanString fuel (some []) s <;> simp [scanned, ScannedString.value]

theorem scanValue_bracket (fuel : Nat) (s : List Char) :
    scanValue (fuel + 1) ('[' :: s) =
      match dropBlanks s with
      | [] => (.array [] (.lacking .truncated), none)
      | d :: rest =>
        if d = ']' then (.array [] .closed, some rest)
        else ofItems (scanItems fuel (d :: rest)) := by
  rfl

theorem scanValue_brace (fuel : Nat) (s : List Char) :
    scanValue (fuel + 1) ('\x7b' :: s) =
      match dropBlanks s with
      | [] => (.object [] (.lacking .truncated), none)
      | d :: rest =>
        if d = '\x7d' then (.object [] .closed, some rest)
        else if d = '"' then ofMembers (scanMembers fuel rest)
        else (.object [(.broken .stray, .null)] .closed, none) := by
  rfl

/-- What follows the value of a member. -/
def scanMembersBehind (fuel : Nat) (member : Label × Tree) :
    List Char → List (Label × Tree) × Ending × Option (List Char)
  | '\x7d' :: rest => ([member], .closed, some rest)
  | ',' :: rest =>
    match dropBlanks rest with
    | '"' :: rest =>
      let (members, ending, rest) := scanMembers fuel rest
      (member :: members, ending, rest)
    | rest => ([member], .danglingAt rest, none)
  | rest => ([member], .lackingAt rest, none)

/-- A member by its key, its value and what follows it. -/
theorem scanMembers_succ (fuel : Nat) (s : List Char) :
    scanMembers (fuel + 1) s =
      match (scanString fuel (some []) s).label with
      | (label, none) => ([(label, .null)], .closed, none)
      | (label, some rest) =>
        match dropBlanks rest with
        | ':' :: rest =>
          match scanValue fuel rest with
          | (value, none) => ([(label, value)], .closed, none)
          | (value, some rest) => scanMembersBehind fuel (label, value) (dropBlanks rest)
        | rest => ([(label, .broken (.lackingColonAt rest))], .closed, none) := by
  rw [scanMembers]
  cases scanString fuel (some []) s <;> rfl

/-- What a value is depends on its first character. -/
theorem scanValue_cons_cases {c : Char} (visible : isBlank c = false) :
    c = '"' ∨ c = '[' ∨ c = '\x7b' ∨
      (∃ result cut ws, (result = .null ∨ ∃ b, result = .bool b) ∧
        ∀ fuel s, scanValue (fuel + 1) (c :: s) = scanWord result cut ws s) ∨
      (c = '-' ∧ ∀ fuel s, scanValue (fuel + 1) (c :: s) = scanNumber true s) ∨
      (c.isDigit = true ∧
        ∀ fuel s, scanValue (fuel + 1) (c :: s) = scanNumber false (c :: s)) ∨
      ∀ fuel s, scanValue (fuel + 1) (c :: s) = (.broken .stray, none) := by
  by_cases quote : c = '"'
  · exact .inl quote
  by_cases bracket : c = '['
  · exact .inr (.inl bracket)
  by_cases brace : c = '\x7b'
  · exact .inr (.inr (.inl brace))
  right; right; right
  have first : ∀ s, dropBlanks (c :: s) = c :: s := dropBlanks_cons visible
  simp only [scanValue, first, if_neg quote, if_neg bracket, if_neg brace]
  by_cases null : c = 'n'
  · exact .inl ⟨_, _, _, .inl rfl, fun _ s => if_pos null⟩
  by_cases yes : c = 't'
  · exact .inl ⟨_, _, _, .inr ⟨true, rfl⟩, fun _ s => (if_neg null).trans (if_pos yes)⟩
  by_cases no : c = 'f'
  · exact .inl ⟨_, _, _, .inr ⟨false, rfl⟩, fun _ s =>
      (if_neg null).trans ((if_neg yes).trans (if_pos no))⟩
  right
  simp only [if_neg null, if_neg yes, if_neg no]
  by_cases minus : c = '-'
  · exact .inl ⟨minus, fun _ s => if_pos minus⟩
  simp only [if_neg minus]
  by_cases digit : c.isDigit = true
  · exact .inr (.inl ⟨digit, fun _ s => if_pos digit⟩)
  · exact .inr (.inr fun _ s => if_neg digit)

/-- Everything that is complete with `fuel` steps is the same with `fuel'` steps and `x` behind it.
-/
structure Stable (x : List Char) (fuel fuel' : Nat) : Prop where
  enough : fuel ≤ fuel'
  value {s r : List Char} {t : Tree} : scanValue fuel s = (t, some r) →
    scanValue fuel' (s ++ x) = (t, some (r ++ x))
  items {s r : List Char} {ts : List Tree} {e : Ending} : scanItems fuel s = (ts, e, some r) →
    scanItems fuel' (s ++ x) = (ts, e, some (r ++ x))
  members {s r : List Char} {ms : List (Label × Tree)} {e : Ending} :
    scanMembers fuel s = (ms, e, some r) → scanMembers fuel' (s ++ x) = (ms, e, some (r ++ x))

namespace Stable

variable {x : List Char} {fuel fuel' : Nat}

theorem zero (x : List Char) (fuel' : Nat) : Stable x 0 fuel' where
  enough := Nat.zero_le fuel'
  value := nofun
  items := nofun
  members := nofun

theorem string (stable : Stable x fuel fuel') {s r : List Char} {t : Tree}
    (scanned : scanValue (fuel + 1) ('"' :: s) = (t, some r)) :
    scanValue (fuel' + 1) ('"' :: (s ++ x)) = (t, some (r ++ x)) := by
  rw [scanValue_quote] at scanned ⊢
  rcases scanString_append stable.enough (some []) s x with ⟨cut, broken⟩ | complete
  · rw [broken] at scanned
    cases scanned
  · rw [complete]
    exact ScannedString.value_followedBy scanned x

theorem array (stable : Stable x fuel fuel') {s r : List Char} {t : Tree}
    (scanned : scanValue (fuel + 1) ('[' :: s) = (t, some r)) :
    scanValue (fuel' + 1) ('[' :: (s ++ x)) = (t, some (r ++ x)) := by
  rw [scanValue_bracket] at scanned ⊢
  cases next : dropBlanks s with
  | nil =>
    rw [next] at scanned
    cases scanned
  | cons d s =>
    rw [next] at scanned
    rw [dropBlanks_append_of_cons next]
    dsimp only at scanned ⊢
    split at scanned
    case isTrue bracket =>
      cases scanned
      rw [if_pos bracket]
    case isFalse noBracket =>
      obtain ⟨⟨ts, e, found⟩, items⟩ : ∃ found, scanItems fuel (d :: s) = found := ⟨_, rfl⟩
      rw [items] at scanned
      cases scanned
      rw [if_neg noBracket, ← List.cons_append, stable.items items]
      rfl

theorem object (stable : Stable x fuel fuel') {s r : List Char} {t : Tree}
    (scanned : scanValue (fuel + 1) ('\x7b' :: s) = (t, some r)) :
    scanValue (fuel' + 1) ('\x7b' :: (s ++ x)) = (t, some (r ++ x)) := by
  rw [scanValue_brace] at scanned ⊢
  cases next : dropBlanks s with
  | nil =>
    rw [next] at scanned
    cases scanned
  | cons d s =>
    rw [next] at scanned
    rw [dropBlanks_append_of_cons next]
    dsimp only at scanned ⊢
    split at scanned
    case isTrue brace =>
      cases scanned
      rw [if_pos brace]
    case isFalse noBrace =>
    split at scanned
    case isFalse => cases scanned
    case isTrue quote =>
      obtain ⟨⟨ms, e, found⟩, members⟩ : ∃ found, scanMembers fuel s = found := ⟨_, rfl⟩
      rw [members] at scanned
      cases scanned
      rw [if_neg noBrace, if_pos quote, stable.members members]
      rfl

/-- A value by its first character. -/
theorem value_succ (stable : Stable x fuel fuel') (ends : EndsNumber x) {s r : List Char} {t : Tree}
    (scanned : scanValue (fuel + 1) s = (t, some r)) :
    scanValue (fuel' + 1) (s ++ x) = (t, some (r ++ x)) := by
  cases start : dropBlanks s with
  | nil =>
    rw [scanValue, start] at scanned
    cases scanned
  | cons c s' =>
    have visible := isBlank_of_dropBlanks start
    rw [scanValue_of_dropBlanks start] at scanned
    rw [scanValue_of_dropBlanks (dropBlanks_append_of_cons start x)]
    rcases scanValue_cons_cases visible with
      rfl | rfl | rfl | ⟨result, cut, ws, -, same⟩ | ⟨-, same⟩ | ⟨-, same⟩ | same
    · exact stable.string scanned
    · exact stable.array scanned
    · exact stable.object scanned
    · rw [same] at scanned ⊢
      exact scanWord_append scanned x
    · rw [same] at scanned ⊢
      exact scanNumber_append scanned ends
    · rw [same] at scanned ⊢
      exact scanNumber_append scanned ends
    · rw [same] at scanned
      cases scanned

theorem items_succ (stable : Stable x fuel fuel') {s r : List Char} {ts : List Tree} {e : Ending}
    (scanned : scanItems (fuel + 1) s = (ts, e, some r)) :
    scanItems (fuel' + 1) (s ++ x) = (ts, e, some (r ++ x)) := by
  obtain ⟨⟨item, rest?⟩, value⟩ : ∃ found, scanValue fuel s = found := ⟨_, rfl⟩
  rw [scanItems, value] at scanned
  cases rest? with
  | none => cases scanned
  | some rest =>
    rw [scanItems, stable.value value]
    dsimp only at scanned ⊢
    split at scanned
    · next bracket =>
      rw [dropBlanks_append_of_cons bracket]
      cases scanned
      rfl
    · next next comma =>
      rw [dropBlanks_append_of_cons comma]
      obtain ⟨⟨items, e, found⟩, others⟩ : ∃ found, scanItems fuel next = found := ⟨_, rfl⟩
      rw [others] at scanned
      cases scanned
      simp only [stable.items others]
    · cases scanned

theorem behind (stable : Stable x fuel fuel') {member : Label × Tree} {s r : List Char}
    {ms : List (Label × Tree)} {e : Ending}
    (scanned : scanMembersBehind fuel member (dropBlanks s) = (ms, e, some r)) :
    scanMembersBehind fuel' member (dropBlanks (s ++ x)) = (ms, e, some (r ++ x)) := by
  unfold scanMembersBehind at scanned
  split at scanned
  · next brace =>
    rw [dropBlanks_append_of_cons brace]
    cases scanned
    rfl
  · next next comma =>
    rw [dropBlanks_append_of_cons comma, scanMembersBehind]
    split at scanned
    · next key quote =>
      rw [dropBlanks_append_of_cons quote]
      obtain ⟨⟨ms, e, found⟩, others⟩ : ∃ found, scanMembers fuel key = found := ⟨_, rfl⟩
      rw [others] at scanned
      cases scanned
      simp only [stable.members others]
    · cases scanned
  · cases scanned

theorem members_succ (stable : Stable x fuel fuel') {s r : List Char} {ms : List (Label × Tree)}
    {e : Ending} (scanned : scanMembers (fuel + 1) s = (ms, e, some r)) :
    scanMembers (fuel' + 1) (s ++ x) = (ms, e, some (r ++ x)) := by
  rw [scanMembers_succ] at scanned ⊢
  rcases scanString_append stable.enough (some []) s x with ⟨cut, broken⟩ | complete
  · rw [broken] at scanned
    cases scanned
  · obtain ⟨⟨label, rest?⟩, key⟩ : ∃ found, (scanString fuel (some []) s).label = found :=
      ⟨_, rfl⟩
    rw [key] at scanned
    cases rest? with
    | none => cases scanned
    | some rest =>
      rw [complete, ScannedString.label_followedBy key]
      dsimp only at scanned ⊢
      split at scanned
      case h_2 => cases scanned
      case h_1 rest colon =>
      rw [dropBlanks_append_of_cons colon]
      obtain ⟨⟨t, rest?⟩, value⟩ : ∃ found, scanValue fuel rest = found := ⟨_, rfl⟩
      rw [value] at scanned
      cases rest? with
      | none => cases scanned
      | some rest =>
        simp only [stable.value value]
        exact stable.behind scanned

end Stable

/-- More steps and more text change nothing about what is complete. -/
theorem stable {x : List Char} (ends : EndsNumber x) {fuel fuel' : Nat} (enough : fuel ≤ fuel') :
    Stable x fuel fuel' := by
  induction fuel generalizing fuel' with
  | zero => exact .zero x fuel'
  | succ fuel ih =>
    obtain ⟨fuel', rfl⟩ : ∃ k, fuel' = k + 1 := ⟨fuel' - 1, by omega⟩
    have stable : Stable x fuel fuel' := ih (by omega)
    exact ⟨enough, stable.value_succ ends, stable.items_succ, stable.members_succ⟩

end ArithCircuit.Json
