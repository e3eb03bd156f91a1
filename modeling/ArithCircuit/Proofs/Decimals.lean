import ArithCircuit.Proofs.CircuitStorage
import ArithCircuit.Proofs.DecimalTexts
import ArithCircuit.Proofs.NodeStorage
import ArithCircuit.Proofs.ObjectTexts

set_option autoImplicit false
set_option relaxedAutoImplicit false

/-!
# The places of decimals

The field constants of a circuit and the literals of a source tree are the numbers that are stored
as decimals. Main statement: `decimals_exact`, any value in one of these places is read exactly as
the number that it denotes, or refused.
-/

namespace ArithCircuit

open Json (Style IsValueText Denotes Value Schema Document)

/-! ### The places of decimals -/

/-- Field constants as stored text, with the given texts as the values of the two. -/
def Field.textWith (style : Style) (prime mask : String) : String :=
  Json.objectText style [("prime", prime), ("mask", mask)]

/-- The members for the definitions of a circuit. -/
def Registry.members (registry : Registry) : List (String × Value) :=
  [("templates", registry.templates.toJson Definition.toJson),
    ("functions", registry.functions.toJson Definition.toJson),
    ("function_params", registry.functionParams.toJson .texts)]

theorem Registry.membersExact (registry : Registry) :
    Value.membersExact registry.members = true := by
  simp [members, Value.membersExact, OrderedMap.isExact_toJson Definition.isExact_toJson,
    OrderedMap.isExact_toJson Value.isExact_texts]

/-- A circuit as stored text, with the given texts as the values of its field constants. -/
def Circuit.textWith (style : Style) (registry : Registry) (prime mask : String) : String :=
  Json.objectText style
    (("prime", prime) :: ("mask", mask) :: Value.innerMembers style registry.members)

/-- The members of a number of a source tree, with the given text as its value. -/
def Node.numberMembers (style : Style) (span : Span) (value : String) : List (String × String) :=
  ("type", (Value.string NodeKind.number.tag).inner style) :: ("value", value) ::
    Value.innerMembers style span.members

/-- A number of a source tree as stored text, with the given text as its value. -/
def Node.numberText (style : Style) (span : Span) (value : String) : String :=
  Json.objectText style (numberMembers style span value)

namespace Artifact

theorem read_decimal_iff {u : String} (value : IsValueText u) {n : Nat} :
    (schema.reader (Document.ofText u).root).read .decimal = .ok n ↔ Denotes u n :=
  (Schema.read_iff_of_isValueText value).symm.trans (schema.read_decimal_iff fun _ => Iff.rfl)

/-- Field constants are read exactly from two texts that denote them. -/
theorem ofText_field_iff (style : Style) {u v : String} (first : IsValueText u)
    (second : IsValueText v) {field : Field} :
    Field.ofText (Field.textWith style u v) = .ok field ↔
      Denotes u field.prime ∧ Denotes v field.mask := by
  have read := Schema.read_objectText schema .field
    [required "prime" .decimal, required "mask" .decimal] Field.mk (fun _ => rfl) (by decide) style
    (List.cons_ne_nil ("prime", u) [("mask", v)]) (by simp [first, second]) rfl field
  refine read.trans ?_
  constructor
  · rintro ⟨p, given, m, given', rfl⟩
    exact ⟨(read_decimal_iff first).1 given, (read_decimal_iff second).1 given'⟩
  · rintro ⟨given, given'⟩
    exact ⟨_, (read_decimal_iff first).2 given, _, (read_decimal_iff second).2 given', rfl⟩

/-- A circuit is read exactly from texts that denote its field constants. -/
theorem ofText_circuit_iff (style : Style) (registry : Registry) {u v : String}
    (first : IsValueText u) (second : IsValueText v) {c : Circuit} :
    Circuit.ofText (Circuit.textWith style registry u v) = .ok c ↔
      c.registry = registry ∧ Denotes u c.field.prime ∧ Denotes v c.field.mask := by
  have gives : ∀ prime mask, schema.Gives
      [required "templates" .definitions, required "functions" .definitions,
        required "function_params" .paramLists]
      (fun templates functions functionParams =>
        Circuit.mk ⟨prime, mask⟩ ⟨templates, functions, functionParams⟩)
      registry.members ⟨⟨prime, mask⟩, registry⟩ := fun prime mask =>
    .cons (reads_definitions _) <| .cons (reads_definitions _) <| .cons (reads_paramLists _) .nil
  have read := Schema.read_objectText schema .circuit
    [required "prime" .decimal, required "mask" .decimal, required "templates" .definitions,
      required "functions" .definitions, required "function_params" .paramLists]
    (fun prime mask templates functions functionParams =>
      Circuit.mk ⟨prime, mask⟩ ⟨templates, functions, functionParams⟩)
    (fun _ => rfl) (by decide) style
    (List.cons_ne_nil ("prime", u) (("mask", v) :: Value.innerMembers style registry.members))
    (List.forall_mem_cons.2 ⟨first, List.forall_mem_cons.2
      ⟨second, Value.isValueText_innerMembers registry.membersExact style⟩⟩) rfl c
  refine read.trans ?_
  constructor
  · rintro ⟨p, given, m, given', rest⟩
    obtain rfl := (Schema.takes_innerMembers_iff (gives p m) registry.membersExact style).1 rest
    exact ⟨rfl, (read_decimal_iff first).1 given, (read_decimal_iff second).1 given'⟩
  · rintro ⟨rfl, given, given'⟩
    have rest := (Schema.takes_innerMembers_iff (gives c.field.prime c.field.mask)
      c.registry.membersExact style).2 rfl
    exact ⟨_, (read_decimal_iff first).2 given, _, (read_decimal_iff second).2 given', rest⟩

end Artifact

namespace Node.Stored

theorem read_decimal_iff {u : String} (value : IsValueText u) {n : Nat} :
    (schema.reader (Document.ofText u).root).read .decimal = .ok n ↔ Denotes u n :=
  (Schema.read_iff_of_isValueText value).symm.trans (schema.read_decimal_iff fun _ => Iff.rfl)

section

variable (style : Style) (span : Span) (u : String)

theorem nodup_numberMembers : ((numberMembers style span u).map Prod.fst).Nodup :=
  nodup_membersOf .number

/-- The three records of a node are found among the members of a number: its kind, its position and
its value. -/
theorem gather_kind_numberMembers :
    Json.Record.gather (schema.readers (Json.memberTrees (numberMembers style span u))) kindFields
      (fun kind : NodeKind => kind) = some .number := by
  have names := nodup_numberMembers style span u
  exact (schema.gather_eq_some_iff names (.cons List.mem_cons_self .nil)).2
    ((Schema.takes_innerMembers_iff (gives_kind .number) rfl style).2 rfl)

theorem gather_span_numberMembers :
    Json.Record.gather (schema.readers (Json.memberTrees (numberMembers style span u))) spanFields
      Span.mk = some span := by
  have names := nodup_numberMembers style span u
  have part : Value.innerMembers style span.members ⊆ numberMembers style span u :=
    List.subset_cons_of_subset _ (List.subset_cons_self _ _)
  have given : List.Forall₂ (fun f u' => (f.name, u') ∈ numberMembers style span u) spanFields _ :=
    Schema.forall₂_mem_of_names part rfl
  exact (schema.gather_eq_some_iff names given).2
    ((Schema.takes_innerMembers_iff (gives_span span) span.membersExact style).2 rfl)

variable {u}

theorem gather_value_numberMembers (value : IsValueText u) {make : Span → Node} :
    Json.Record.gather (schema.readers (Json.memberTrees (numberMembers style span u)))
      (fieldsOf .number) (builderOf .number) = some make ↔
      ∃ n, Denotes u n ∧ (fun span => number span n) = make := by
  have names := nodup_numberMembers style span u
  have given : List.Forall₂ (fun f u' => (f.name, u') ∈ numberMembers style span u)
      (fieldsOf .number) [u] := .cons (.tail _ List.mem_cons_self) .nil
  refine (schema.gather_eq_some_iff names given).trans ?_
  exact exists_congr fun n => and_congr_left' (read_decimal_iff value)

theorem membersWhole_numberMembers {n : Nat} (denoted : Denotes u n) :
    Json.Tree.membersWhole (Json.memberTrees (numberMembers style span u)) = true := by
  have tag := Document.ofText_of_spelled
    ((Value.string NodeKind.number.tag).isSpelledBy_inner rfl style)
  have root := Json.Tree.isWhole_of_decimal? (Json.denotes_iff.1 denoted).1
  have rest := Value.memberTrees_innerMembers span.membersExact style
  have rest' := Value.membersWhole_treeMembers span.members
  rw [← rest] at rest'
  rw [numberMembers, Json.memberTrees, List.map_cons, List.map_cons, ← Json.memberTrees,
    Json.Tree.membersWhole, Json.Tree.membersWhole, tag, root, rest']
  rfl

end

/-- A number of a source tree is read exactly from a text that denotes it. -/
theorem ofText_number_iff (style : Style) (span : Span) {u : String} (value : IsValueText u)
    {node : Node} :
    Node.ofText (Node.numberText style span u) = .ok node ↔
      ∃ n, Denotes u n ∧ node = .number span n := by
  have values : ∀ m ∈ Node.numberMembers style span u, IsValueText m.2 :=
    List.forall_mem_cons.2 ⟨(Value.isSpelledBy_inner rfl style).isValueText,
      List.forall_mem_cons.2 ⟨value, Value.isValueText_innerMembers span.membersExact style⟩⟩
  have kind := gather_kind_numberMembers style span u
  have position := gather_span_numberMembers style span u
  have whole : Document.ofText (Node.numberText style span u) =
      ⟨.object (Json.memberTrees (numberMembers style span u)) .closed, true⟩ :=
    Document.ofText_objectText style (List.cons_ne_nil _ _) values
  refine Schema.read_eq_ok_iff.trans ?_
  rw [whole, read_node_iff]
  constructor
  · rintro ⟨⟨-, kind', make, span', first, second, third, rfl⟩, -⟩
    obtain rfl := Option.some.inj (kind.symm.trans first)
    obtain rfl := Option.some.inj (position.symm.trans third)
    obtain ⟨n, denoted, rfl⟩ := (gather_value_numberMembers style span value).1 second
    exact ⟨n, denoted, rfl⟩
  · rintro ⟨n, denoted, rfl⟩
    have made := (gather_value_numberMembers style span value).2 ⟨n, denoted, rfl⟩
    exact ⟨⟨membersWhole_numberMembers style span denoted, _, _, _, kind, made, position, rfl⟩, rfl⟩

end Node.Stored

/-! ### What is written -/

theorem Json.escape_of_isDigit {c : Char} (digit : c.isDigit = true) : Json.escape c = [c] := by
  have other : ∀ d : Char, d.isDigit = false → c ≠ d := by
    rintro d notDigit rfl
    rw [digit] at notDigit
    cases notDigit
  have visible : 48 ≤ c.toNat := (Char.isDigit_iff_toNat.1 digit).1
  have first : ¬c.toNat = 8 := by omega
  have second : ¬c.toNat = 12 := by omega
  have third : ¬c.toNat < 0x20 := by omega
  simp only [Json.escape, if_neg (other '"' rfl), if_neg (other '\\' rfl), if_neg (other '\n' rfl),
    if_neg (other '\r' rfl), if_neg (other '\t' rfl), if_neg first, if_neg second, if_neg third]

/-- The canonical form of a number between quotes. -/
def Decimal.quoted (n : Nat) : String := "\"" ++ text n ++ "\""

theorem Decimal.inner_text (style : Style) (n : Nat) :
    (Value.string (text n)).inner style = quoted n := by
  have digits : ∀ ds : List Char, (∀ d ∈ ds, d.isDigit = true) → ds.flatMap Json.escape = ds := by
    intro ds digits
    rw [← List.flatMap_singleton' ds, List.flatMap_assoc]
    exact List.flatMap_congr fun d member => by simp [Json.escape_of_isDigit (digits d member)]
  have same := digits _ (Json.isDigits_toDigits n).2
  rw [← String.toList_inj, Value.inner, String.toList_ofList, Value.onto, Json.stringOnto,
    toList_text, same]
  simp [quoted]

/-- The numbers of field constants are written in their canonical form. -/
theorem Field.text_toJson (style : Style) (field : Field) :
    field.toJson.text style =
      textWith style (Decimal.quoted field.prime) (Decimal.quoted field.mask) := by
  have some' : field.members ≠ [] := List.cons_ne_nil _ _
  have written := Value.text_object style some' rfl
  rw [toJson, written, textWith, ← Decimal.inner_text style, ← Decimal.inner_text style]
  rfl

theorem Circuit.text_toJson (style : Style) (c : Circuit) :
    c.toJson.text style =
      textWith style c.registry (Decimal.quoted c.field.prime) (Decimal.quoted c.field.mask) := by
  have some' : c.field.members ++ c.registry.members ≠ [] := List.cons_ne_nil _ _
  have written := Value.text_object style some' c.registry.membersExact
  refine written.trans ?_
  rw [textWith, ← Decimal.inner_text style, ← Decimal.inner_text style]
  rfl

theorem Node.text_number (style : Style) (span : Span) (n : Nat) :
    (Node.number span n).toJson.text style = numberText style span (Decimal.quoted n) := by
  have some' : ("type", Value.string NodeKind.number.tag) ::
      ("value", .string (Decimal.text n)) :: span.members ≠ [] := List.cons_ne_nil _ _
  have written := Value.text_object style some' span.membersExact
  refine written.trans ?_
  rw [numberText, numberMembers, ← Decimal.inner_text style]
  rfl

/-- Numbers of any size are read and written exactly. In the place of a decimal exactly the texts
are read that denote a number, and as that number; any other value there is refused, whatever it
is. What is written is the one canonical form, and that gives the number back. -/
theorem decimals_exact (style : Style) {u v : String} (first : IsValueText u)
    (second : IsValueText v) (registry : Registry) (span : Span) :
    (∀ text n, Artifact.schema.read .decimal text = .ok n ↔ Denotes text n) ∧
    (∀ text n, Node.Stored.schema.read .decimal text = .ok n ↔ Denotes text n) ∧
    (∀ field, Field.ofText (Field.textWith style u v) = .ok field ↔
      Denotes u field.prime ∧ Denotes v field.mask) ∧
    (∀ c, Circuit.ofText (Circuit.textWith style registry u v) = .ok c ↔
      c.registry = registry ∧ Denotes u c.field.prime ∧ Denotes v c.field.mask) ∧
    (∀ node, Node.ofText (Node.numberText style span u) = .ok node ↔
      ∃ n, Denotes u n ∧ node = .number span n) ∧
    (∀ n, (∀ s, Decimal.IsCanonical s n ↔ s = Decimal.text n) ∧
      Decimal.value? (Decimal.text n) = some n ∧ Expr.ofNat n = .number (Decimal.text n) ∧
      (Node.number span n).toJson.text style = Node.numberText style span (Decimal.quoted n)) ∧
    ∀ field : Field,
      field.toJson.text style =
        Field.textWith style (Decimal.quoted field.prime) (Decimal.quoted field.mask) ∧
      (Circuit.mk field registry).toJson.text style =
        Circuit.textWith style registry (Decimal.quoted field.prime)
          (Decimal.quoted field.mask) := by
  refine ⟨?_, ?_, ?_, ?_, ?_, ?_, ?_⟩
  · exact fun text n => Artifact.schema.read_decimal_iff fun _ => Iff.rfl
  · exact fun text n => Node.Stored.schema.read_decimal_iff fun _ => Iff.rfl
  · exact fun field => Artifact.ofText_field_iff style first second
  · exact fun c => Artifact.ofText_circuit_iff style registry first second
  · exact fun node => Node.Stored.ofText_number_iff style span first
  · intro n
    exact ⟨fun s => Decimal.isCanonical_iff, Decimal.value?_text n, rfl,
      Node.text_number style span n⟩
  · exact fun field => ⟨field.text_toJson style, Circuit.text_toJson style ⟨field, registry⟩⟩

/-- A string may go past 64 bits and have zeros in front, and an integer may not. -/
theorem decimals_exact_beyondWords :
    Field.ofText ("\x7b\"prime\":\"00340282366920938463463374607431768211457\"," ++
      "\"mask\":18446744073709551615\x7d") = .ok ⟨Nat.pow 2 128 + 1, Nat.pow 2 64 - 1⟩ ∧
    ∀ field, Field.ofText "\x7b\"prime\":18446744073709551616,\"mask\":-0\x7d" ≠ .ok field := by
  have large : IsValueText "\"00340282366920938463463374607431768211457\"" :=
    ⟨[], by decide +kernel, Json.blanks_nil⟩
  have last : IsValueText "18446744073709551615" := ⟨[], by decide +kernel, Json.blanks_nil⟩
  have next : IsValueText "18446744073709551616" := ⟨[], by decide +kernel, Json.blanks_nil⟩
  have minus : IsValueText "-0" := ⟨[], by decide +kernel, Json.blanks_nil⟩
  constructor
  · have read := (decimals_exact .compact large last .empty .unknown).2.2.1
    refine (read ⟨Nat.pow 2 128 + 1, Nat.pow 2 64 - 1⟩).2 ⟨?_, ?_⟩
    · exact Json.denotes_iff.2 (by decide +kernel)
    · exact Json.denotes_iff.2 (by decide +kernel)
  · intro field done
    have read := (decimals_exact .compact next minus .empty .unknown).2.2.1
    have denoted := Json.denotes_iff.1 ((read field).1 done).1
    have nothing : (Document.ofText "18446744073709551616").root.decimal? = none := by
      decide +kernel
    cases nothing.symm.trans denoted.1

end ArithCircuit
