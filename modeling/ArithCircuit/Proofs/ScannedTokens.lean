import ArithCircuit.Proofs.CompleteValues

set_option autoImplicit false
set_option relaxedAutoImplicit false

/-!
# What a scanned token spells

The scanners of numbers and strings accept nothing beyond the grammar: what they use up spells the
number or string that they answer with. Main statement: `scanValue_scalar`.
-/

namespace ArithCircuit.Json

/-! ### Strings -/

theorem scanQuad_spells {s r : List Char} {n : Nat} (scanned : scanQuad s = .ok (n, r)) :
    ∃ quad, s = quad ++ r ∧ SpellsUnit n quad := by
  match s with
  | a :: b :: c :: d :: rest =>
    rw [scanQuad] at scanned
    split at scanned
    · next first second third fourth =>
      cases scanned
      exact ⟨[a, b, c, d], rfl, .digits first second third fourth⟩
    · cases scanned
  | [] | [_] | [_, _] | [_, _, _] => simp [scanQuad] at scanned

/-- A character behind the first half of a pair is made of both halves. -/
theorem afterLeading_spells {n : Nat} {s r : List Char} {c : Char}
    (scanned : afterLeading n s = .char c r) :
    ∃ m quad, s = '\\' :: 'u' :: (quad ++ r) ∧ SpellsUnit m quad ∧ isTrailing m = true ∧
      pairChar n m = c := by
  unfold afterLeading at scanned
  split at scanned
  · cases scanned
  · cases scanned
  · next again =>
    cases second : scanQuad again with
    | error => simp [second] at scanned
    | ok read =>
      obtain ⟨m, rest⟩ := read
      obtain ⟨quad, rfl, unit⟩ := scanQuad_spells second
      simp only [second] at scanned
      split at scanned
      case isTrue trailing =>
        rw [StringPiece.char.injEq] at scanned
        obtain ⟨same, rfl⟩ := scanned
        exact ⟨m, quad, rfl, unit, trailing, same⟩
      case isFalse => cases scanned
  · cases scanned

theorem scanEscape_spells {s r : List Char} {c : Char} (scanned : scanEscape s = .char c r) :
    ∃ u, s = u ++ r ∧ SpellsChar c ('\\' :: u) := by
  cases s with
  | nil => cases scanned
  | cons letter rest =>
    by_cases unit : letter = 'u'
    · subst unit
      rw [scanEscape_unit] at scanned
      cases first : scanQuad rest with
      | error => simp [first] at scanned
      | ok read =>
        obtain ⟨n, rest'⟩ := read
        obtain ⟨quad, rfl, spells⟩ := scanQuad_spells first
        simp only [first] at scanned
        split at scanned
        case isTrue => cases scanned
        case isFalse notTrailing =>
        split at scanned
        case isTrue leading =>
          obtain ⟨m, quad', rfl, spells', trailing, rfl⟩ := afterLeading_spells scanned
          exact ⟨_, by simp, .pair spells spells' leading trailing⟩
        case isFalse notLeading =>
          cases scanned
          exact ⟨_, rfl, .unit spells (by simpa using notTrailing) (by simpa using notLeading)⟩
    · simp only [scanEscape, if_neg unit] at scanned
      cases short : shortEscape? letter with
      | none => simp [short] at scanned
      | some e =>
        simp only [short, StringPiece.char.injEq] at scanned
        obtain ⟨rfl, rfl⟩ := scanned
        exact ⟨[letter], rfl, .short short⟩

/-- A string that can be read is spelt by what stands before its closing quote. -/
theorem scanString_spells {fuel : Nat} {seen : Option (List Char)} {s r : List Char} {str : String}
    (scanned : scanString fuel seen s = .text str r) :
    ∃ before cs u, seen = some before ∧ s = u ++ '"' :: r ∧ SpellsText cs u ∧
      str = String.ofList (before.reverse ++ cs) := by
  induction fuel generalizing seen s with
  | zero => cases scanned
  | succ fuel ih =>
    cases s with
    | nil => cases scanned
    | cons c rest =>
      simp only [scanString] at scanned
      split at scanned
      case isTrue quote =>
        subst quote
        cases seen with
        | none => cases scanned
        | some before =>
          cases scanned
          exact ⟨before, [], [], rfl, rfl, .nil, by rw [List.append_nil]⟩
      case isFalse noQuote =>
      -- A character that is added to what was seen goes before the others.
      have step : ∀ {e : Char} {v rest : List Char}, SpellsChar e v →
          scanString fuel (seen.map (e :: ·)) rest = .text str r →
          ∃ before cs u, seen = some before ∧ v ++ rest = u ++ '"' :: r ∧ SpellsText cs u ∧
            str = String.ofList (before.reverse ++ cs) := by
        intro e v rest spells scanned
        obtain ⟨before, cs, u, more, rfl, others, rfl⟩ := ih scanned
        cases seen with
        | none => cases more
        | some before =>
          cases more
          exact ⟨before, e :: cs, v ++ u, rfl, by simp, .cons spells others, by simp⟩
      split at scanned
      case isTrue slash =>
        subst slash
        cases piece : scanEscape rest with
        | char e rest' =>
          obtain ⟨u, rfl, spells⟩ := scanEscape_spells piece
          simp only [piece] at scanned
          exact step spells scanned
        | half rest' =>
          simp only [piece] at scanned
          obtain ⟨_, _, _, ⟨⟩, -⟩ := ih scanned
        | cut f => simp [piece] at scanned
      case isFalse noSlash =>
      split at scanned
      case isTrue => cases scanned
      case isFalse control => exact step (.plain noQuote noSlash (by omega)) scanned

/-! ### Numbers -/

theorem isDigits_takeWhile {s : List Char} (some' : (s.takeWhile Char.isDigit).isEmpty ≠ true) :
    IsDigits (s.takeWhile Char.isDigit) :=
  ⟨by simpa using some', fun _ member => List.all_eq_true.1 List.all_takeWhile _ member⟩

theorem eq_zero_of_head? {ds : List Char} (zero : ds.head? = some '0') (short : ¬1 < ds.length) :
    ds = ['0'] := by
  match ds, zero with
  | [_], rfl => rfl
  | _ :: _ :: _, _ => simp at short

variable {t : NumberText} {s : List Char} {tree : Tree} {r? : Option (List Char)}

theorem exponentDigits_spells {isNegative : Bool}
    (scanned : exponentDigits t isNegative s = (tree, r?)) (legible : ∀ cut, tree ≠ .broken cut) :
    ∃ ds r, r? = some r ∧ s = ds ++ r ∧ IsDigits ds ∧
      tree = { t with exponent := some (if isNegative then -(Nat.ofDigitChars 10 ds 0 : Int)
        else Nat.ofDigitChars 10 ds 0) }.tree := by
  simp only [exponentDigits] at scanned
  split at scanned
  case isTrue =>
    cases scanned
    exact absurd rfl (legible _)
  case isFalse some' =>
    cases scanned
    exact ⟨_, _, rfl, List.takeWhile_append_dropWhile.symm, isDigits_takeWhile some', rfl⟩

theorem scanExponent_spells (scanned : scanExponent t s = (tree, r?))
    (legible : ∀ cut, tree ≠ .broken cut) {letter : Char} (known : letter = 'e' ∨ letter = 'E') :
    ∃ e u r, r? = some r ∧ s = u ++ r ∧ SpellsExponent (some e) (letter :: u) ∧
      tree = { t with exponent := some e }.tree := by
  rcases scanExponent_cases t s with ⟨rest, rfl, same⟩ | ⟨rest, rfl, same⟩ | ⟨-, -, same⟩
  · obtain ⟨ds, r, left, rfl, digits, rfl⟩ := exponentDigits_spells (same ▸ scanned) legible
    exact ⟨_, '+' :: ds, r, left, rfl, .positive known digits, rfl⟩
  · obtain ⟨ds, r, left, rfl, digits, rfl⟩ := exponentDigits_spells (same ▸ scanned) legible
    exact ⟨_, '-' :: ds, r, left, rfl, .negative known digits, rfl⟩
  · obtain ⟨ds, r, left, rfl, digits, rfl⟩ := exponentDigits_spells (same ▸ scanned) legible
    exact ⟨_, ds, r, left, rfl, .unsigned known digits, rfl⟩

theorem scanScale_spells (scanned : scanScale t s = (tree, r?))
    (legible : ∀ cut, tree ≠ .broken cut) (unscaled : t.exponent = none) :
    ∃ e u r, r? = some r ∧ s = u ++ r ∧ SpellsExponent e u ∧
      tree = { t with exponent := e }.tree := by
  unfold scanScale at scanned
  split at scanned
  · obtain ⟨e, u, r, left, rfl, spells, same⟩ := scanExponent_spells scanned legible (.inl rfl)
    exact ⟨_, _, r, left, rfl, spells, same⟩
  · obtain ⟨e, u, r, left, rfl, spells, same⟩ := scanExponent_spells scanned legible (.inr rfl)
    exact ⟨_, _, r, left, rfl, spells, same⟩
  · cases scanned
    refine ⟨none, [], s, rfl, rfl, .none, ?_⟩
    rw [← unscaled]

theorem scanFraction_spells (scanned : scanFraction t s = (tree, r?))
    (legible : ∀ cut, tree ≠ .broken cut) (plain : t.fraction = none)
    (unscaled : t.exponent = none) :
    ∃ ds fraction e exponent r, r? = some r ∧ s = fraction ++ (exponent ++ r) ∧
      SpellsFraction ds fraction ∧ SpellsExponent e exponent ∧
      tree = { t with fraction := ds, exponent := e }.tree := by
  unfold scanFraction at scanned
  split at scanned
  · next rest =>
    dsimp only at scanned
    split at scanned
    case isTrue =>
      cases scanned
      exact absurd rfl (legible _)
    case isFalse some' =>
      obtain ⟨e, u, r, left, behind, spells, same⟩ := scanScale_spells scanned legible unscaled
      refine ⟨_, _, e, u, r, left, ?_, .some (isDigits_takeWhile some'), spells, same⟩
      rw [List.cons_append, ← behind, List.takeWhile_append_dropWhile]
  · obtain ⟨e, u, r, left, rfl, spells, same⟩ := scanScale_spells scanned legible unscaled
    rw [plain] at same
    exact ⟨none, [], e, u, r, left, rfl, .none, spells, same⟩

/-- What is scanned as a number behind its sign spells it. -/
theorem scanNumber_spells {isNegative : Bool} (scanned : scanNumber isNegative s = (tree, r?))
    (legible : ∀ cut, tree ≠ .broken cut) :
    ∃ text u r, r? = some r ∧ s = u ++ r ∧
      SpellsNumber text ((if isNegative then ['-'] else []) ++ u) ∧ tree = text.tree := by
  simp only [scanNumber_eq] at scanned
  split at scanned
  case isTrue =>
    cases scanned
    exact absurd rfl (legible _)
  case isFalse some' =>
  split at scanned
  case isTrue =>
    cases scanned
    exact absurd rfl (legible _)
  case isFalse single =>
    obtain ⟨ds, fraction, e, exponent, r, left, behind, spells, spells', same⟩ :=
      scanFraction_spells scanned legible rfl rfl
    have digits := isDigits_takeWhile some'
    refine ⟨_, s.takeWhile Char.isDigit ++ (fraction ++ exponent), r, left, ?_,
      .parts digits ?_ spells spells', same⟩
    · rw [List.append_assoc, List.append_assoc, ← behind, List.takeWhile_append_dropWhile]
    · exact fun zero => eq_zero_of_head? zero fun long => single ⟨zero, long⟩

/-! ### Values -/

theorem exists_blanks (s : List Char) : ∃ b, Blanks b ∧ s = b ++ dropBlanks s :=
  ⟨s.takeWhile isBlank, fun _ member => List.all_eq_true.1 List.all_takeWhile _ member,
    List.takeWhile_append_dropWhile.symm⟩

/-- Numbers and strings. -/
def Tree.IsScalar : Tree → Prop
  | .number _ => True
  | .string _ => True
  | _ => False

theorem Tree.IsScalar.legible {t : Tree} (scalar : t.IsScalar) (cut : Cut) : t ≠ .broken cut := by
  rintro rfl
  exact scalar

/-- A number that can be read is spelt like the number that it is. -/
theorem SpellsNumber.spells {text : NumberText} {u : List Char} (spells : SpellsNumber text u)
    (scalar : text.tree.IsScalar) : text.tree.Spells u := by
  rw [NumberText.tree] at scalar ⊢
  cases value : text.value? with
  | none =>
    rw [value] at scalar
    exact scalar.elim
  | some n => exact .number spells value

theorem scanWord_fst (result : Tree) (cut : Fault → Cut) (ws s : List Char) :
    (scanWord result cut ws s).1 = result ∨ ∃ c, (scanWord result cut ws s).1 = .broken c := by
  induction ws generalizing s with
  | nil => exact .inl rfl
  | cons w ws ih =>
    cases s with
    | nil => exact .inr ⟨_, rfl⟩
    | cons c s =>
      rw [scanWord]
      split
      case isTrue => exact ih s
      case isFalse => exact .inr ⟨_, rfl⟩

theorem scanValue_bracket_fst (fuel : Nat) (s : List Char) :
    ∃ ts e, (scanValue (fuel + 1) ('[' :: s)).1 = .array ts e := by
  rw [scanValue_bracket]
  split
  · exact ⟨_, _, rfl⟩
  · split
    · exact ⟨_, _, rfl⟩
    · exact ⟨_, _, rfl⟩

theorem scanValue_brace_fst (fuel : Nat) (s : List Char) :
    ∃ ms e, (scanValue (fuel + 1) ('\x7b' :: s)).1 = .object ms e := by
  rw [scanValue_brace]
  split
  · exact ⟨_, _, rfl⟩
  · split
    · exact ⟨_, _, rfl⟩
    · split
      · exact ⟨_, _, rfl⟩
      · exact ⟨_, _, rfl⟩

/-- A value that is scanned as a number or a string is spelt by what is used up, behind blanks. -/
theorem scanValue_scalar {fuel : Nat} {s : List Char} {t : Tree} {r? : Option (List Char)}
    (scanned : scanValue fuel s = (t, r?))
    (scalar : t.IsScalar) : ∃ b u r, r? = some r ∧ Blanks b ∧ s = b ++ (u ++ r) ∧ t.Spells u := by
  cases fuel with
  | zero =>
    cases scanned
    exact scalar.elim
  | succ fuel =>
  obtain ⟨b, blank, whole⟩ := exists_blanks s
  cases start : dropBlanks s with
  | nil =>
    rw [scanValue, start] at scanned
    cases scanned
    exact scalar.elim
  | cons c s' =>
    have visible := isBlank_of_dropBlanks start
    rw [scanValue_of_dropBlanks start] at scanned
    rw [start] at whole
    rcases scanValue_cons_cases visible with
      rfl | rfl | rfl | ⟨result, cut, ws, known, same⟩ | ⟨rfl, same⟩ | ⟨-, same⟩ | same
    · rw [scanValue_quote] at scanned
      cases piece : scanString fuel (some []) s' with
      | text str r =>
        obtain ⟨before, cs, u, ⟨⟩, rfl, spells, rfl⟩ := scanString_spells piece
        rw [piece] at scanned
        cases scanned
        exact ⟨b, '"' :: (u ++ ['"']), r, rfl, blank, by simp [whole], .string spells⟩
      | unreadable | cut =>
        rw [piece] at scanned
        cases scanned
        exact scalar.elim
    · obtain ⟨ts, e, array⟩ := scanValue_bracket_fst fuel s'
      rw [scanned] at array
      cases array
      exact scalar.elim
    · obtain ⟨ms, e, object⟩ := scanValue_brace_fst fuel s'
      rw [scanned] at object
      cases object
      exact scalar.elim
    · have word := scanWord_fst result cut ws s'
      rw [← same fuel, scanned] at word
      rcases word with rfl | ⟨_, rfl⟩
      · rcases known with rfl | ⟨_, rfl⟩ <;> exact scalar.elim
      · exact scalar.elim
    · rw [same] at scanned
      obtain ⟨text, u, r, left, rfl, spells, rfl⟩ := scanNumber_spells scanned scalar.legible
      exact ⟨b, '-' :: u, r, left, blank, whole, spells.spells scalar⟩
    · rw [same] at scanned
      obtain ⟨text, u, r, left, used, spells, rfl⟩ := scanNumber_spells scanned scalar.legible
      exact ⟨b, u, r, left, blank, by rw [whole, used], spells.spells scalar⟩
    · rw [same] at scanned
      cases scanned
      exact scalar.elim

end ArithCircuit.Json
