import ArithCircuit.Ast.Stored
import ArithCircuit.Proofs.Readback

set_option autoImplicit false
set_option relaxedAutoImplicit false

/-!
# Stored source trees are read back

The object of a node is read three times: for its kind, for the members of that kind and for its
span. No two of these members have the same name, so each reading finds its own and passes over the
others. Main statements: `Node.Stored.read_node_iff`, what an object has to hold to be a node, and
`Node.ofText_toText`.
-/

namespace ArithCircuit

open Json (Value Schema Label Tree Result)

namespace Node.Stored

/-! ### The members of a node -/

/-- The kind, among the members of a node. -/
def kindFields : List (Json.Field Carrier) := [required "type" .kind]

/-- The members of the nodes of a kind. -/
def fieldsOf : NodeKind → List (Json.Field Carrier)
  | .number => [required "value" .decimal]
  | .var => [required "name" .text, defaulted "selectors" .nodes ([] : List Node)]
  | .pin => [required "component" .reference, required "pin" .reference]
  | .op => [required "op" .text, required "values" .nodes]
  | .declare => [required "declareType" .text, required "name" .node]
  | .call => [required "name" .text, defaulted "params" .nodes ([] : List Node)]
  | .block => [required "statements" .nodes]
  | .forLoop =>
    [required "init" .node, required "condition" .node, required "step" .node,
      required "body" .node]
  | .whileLoop => [required "condition" .node, required "body" .node]
  | .ret => [required "value" .node]
  | .template | .function =>
    [required "name" .text, defaulted "params" .texts ([] : List String), required "block" .node]
  | .inclusion =>
    [defaulted "file" .file (none : Option String), defaulted "block" .splice (none : Option Node)]
  | .array => [required "values" .nodes]

/-- The node of a kind, from its members and its span. -/
def builderOf : (kind : NodeKind) → Json.Record.Builder (Span → Node) (fieldsOf kind)
  | .number => fun value span => Node.number span value
  | .var => fun name selectors span => Node.var span name selectors
  | .pin => fun component pinned span => pinOf span component pinned
  | .op => fun symbol operands span => Node.op span symbol operands
  | .declare => fun tag name span => Node.declare span tag name
  | .call => fun name args span => Node.call span name args
  | .block => fun statements span => Node.block span statements
  | .forLoop => fun init condition step body span => Node.forLoop span init condition step body
  | .whileLoop => fun condition body span => Node.whileLoop span condition body
  | .ret => fun value span => Node.ret span value
  | .template => fun name params body span => Node.template span name params body
  | .function => fun name params body span => Node.function span name params body
  | .inclusion => fun file body span => Node.inclusion span file body
  | .array => fun items span => Node.array span items

/-- The span, among the members of a node. -/
def spanFields : List (Json.Field Carrier) :=
  [defaulted "first_line" .word32 (0 : UInt32), defaulted "first_column" .word32 (0 : UInt32),
    defaulted "last_line" .word32 (0 : UInt32), defaulted "last_column" .word32 (0 : UInt32)]

theorem ofKind_eq (members : Members) (kind : NodeKind) :
    ofKind members kind =
      Json.Record.ofMembers (fieldsOf kind) (builderOf kind) members .closed := by
  cases kind <;> rfl

/-- All members that are read from the object of a node of a kind. -/
def membersOf (kind : NodeKind) : List (Json.Field Carrier) :=
  kindFields ++ (fieldsOf kind ++ spanFields)

/-- No member is read for two purposes. -/
theorem nodup_membersOf (kind : NodeKind) : ((membersOf kind).map Json.Field.name).Nodup := by
  cases kind <;> decide

theorem nodup_kindFields : (kindFields.map Json.Field.name).Nodup := by decide

theorem nodup_spanFields : (spanFields.map Json.Field.name).Nodup := by decide

theorem nodup_fieldsOf (kind : NodeKind) : ((fieldsOf kind).map Json.Field.name).Nodup := by
  have distinct := nodup_membersOf kind
  rw [membersOf, List.map_append, List.map_append] at distinct
  exact (List.nodup_append.1 (List.nodup_append.1 distinct).2.1).1

/-! ### What an object has to hold -/

/-- No node is read from an object with a faulty part. -/
theorem asNode_of_unsound {members : Members} {f : Json.Fault}
    (unsound : Json.Layer.sound (.object members .closed) = .error f) :
    asNode (.object members .closed) = f.raise := by
  simp only [asNode, unsound]
  rfl

theorem asNode_of_sound {members : Members}
    (sound : Json.Layer.sound (.object members .closed) = .ok ()) :
    asNode (.object members .closed) = do
      let kind ← Json.Record.ofMembers kindFields (fun kind : NodeKind => kind) members .closed
      let make ← ofKind members kind
      let span ← Json.Record.ofMembers spanFields Span.mk members .closed
      return make span := by
  simp only [asNode, sound]
  rfl

/-- An object is read as a node exactly if no part of it is faulty, and its members give a kind, a
node of the kind and a span. -/
theorem read_node_iff {ms : List (Label × Tree)} {n : Node} :
    (schema.reader (.object ms .closed)).read .node = .ok n ↔
      Tree.membersWhole ms = true ∧ ∃ (kind : NodeKind) (make : Span → Node) (span : Span),
        Json.Record.gather (schema.readers ms) kindFields (fun kind : NodeKind => kind) =
          some kind ∧
        Json.Record.gather (schema.readers ms) (fieldsOf kind) (builderOf kind) = some make ∧
        Json.Record.gather (schema.readers ms) spanFields Span.mk = some span ∧ make span = n := by
  have sound := Schema.sound_reader_iff (S := schema) (.object ms .closed)
  rw [Tree.isWhole, decide_eq_true rfl, Bool.and_true] at sound
  rw [Schema.reader_object] at sound ⊢
  change asNode (.object (schema.readers ms) .closed) = .ok n ↔ _
  constructor
  · intro done
    cases sounded : Json.Layer.sound (.object (schema.readers ms) .closed) with
    | error f => cases (asNode_of_unsound sounded).symm.trans done
    | ok =>
      have whole := sound.1 sounded
      have done := (asNode_of_sound sounded).symm.trans done
      obtain ⟨kind, first, done⟩ := Result.bind_eq_ok_iff.1 done
      obtain ⟨make, second, done⟩ := Result.bind_eq_ok_iff.1 done
      obtain ⟨span, third, done⟩ := Result.bind_eq_ok_iff.1 done
      have second := (ofKind_eq _ kind).symm.trans second
      refine ⟨whole, kind, make, span, ?_, ?_, ?_, Except.ok.inj done⟩
      · exact (Schema.ofMembers_readers_iff nodup_kindFields whole).1 first
      · exact (Schema.ofMembers_readers_iff (nodup_fieldsOf kind) whole).1 second
      · exact (Schema.ofMembers_readers_iff nodup_spanFields whole).1 third
  · rintro ⟨whole, kind, make, span, first, second, third, rfl⟩
    refine (asNode_of_sound (sound.2 whole)).trans ?_
    refine Result.bind_eq_ok_iff.2 ⟨kind, ?_, ?_⟩
    · exact (Schema.ofMembers_readers_iff nodup_kindFields whole).2 first
    refine Result.bind_eq_ok_iff.2 ⟨make, ?_, Result.bind_eq_ok_iff.2 ⟨span, ?_, rfl⟩⟩
    · apply (ofKind_eq _ kind).trans
      exact (Schema.ofMembers_readers_iff (nodup_fieldsOf kind) whole).2 second
    · exact (Schema.ofMembers_readers_iff nodup_spanFields whole).2 third

/-! ### Each part at its place -/

theorem reads_kind (kind : NodeKind) : schema.Reads .kind (.string kind.tag) kind := by
  cases kind <;> rfl

theorem reads_text (text : String) : schema.Reads .text (.string text) text := rfl

theorem reads_texts (l : List String) : schema.Reads .texts (.texts l) l := by
  have items : List.Forall₂ (schema.Reads .text) (l.map .string) l :=
    List.forall₂_map_left_iff.2 (List.forall₂_same.2 fun _ _ => rfl)
  exact Schema.reads_array.2 (Schema.asList_of_reads items)

theorem reads_file (file : Option String) : schema.Reads .file (.ofOption .string file) file := by
  cases file <;> rfl

theorem reads_decimal (n : Nat) : schema.Reads .decimal (.string (Decimal.text n)) n :=
  Json.Layer.asDecimal_text (ρ := Json.Reader Carrier) n

theorem reads_word32 (n : UInt32) : schema.Reads .word32 (.number n.toNat) n :=
  Json.Layer.asWord32_toNat (ρ := Json.Reader Carrier) n

theorem gives_kind (kind : NodeKind) :
    schema.Gives kindFields (fun kind : NodeKind => kind) [("type", .string kind.tag)] kind :=
  .cons (reads_kind kind) .nil

theorem gives_span (span : Span) : schema.Gives spanFields Span.mk span.members span :=
  .cons (reads_word32 _) <| .cons (reads_word32 _) <| .cons (reads_word32 _) <|
    .cons (reads_word32 _) .nil

/-- An object that gives the members of its kind is read as the node that they make. -/
theorem reads_objectOf {kind : NodeKind} {span : Span} {own : List (String × Value)}
    {make : Span → Node} {n : Node}
    (gives : schema.Gives (fieldsOf kind) (builderOf kind) own make) (made : make span = n) :
    schema.Reads .node (objectOf kind span own) n := by
  have names :
      (([("type", Value.string kind.tag)] ++ (own ++ span.members)).map Prod.fst).Nodup := by
    have distinct := nodup_membersOf kind
    rw [membersOf, List.map_append, List.map_append] at distinct
    rw [List.map_append, List.map_append, (gives_kind kind).names, gives.names,
      (gives_span span).names]
    exact distinct
  -- Each of the three readings finds its members between those of the others.
  have first := Schema.gather_of_gives [] names (gives_kind kind)
  have second := Schema.gather_of_gives _ names gives
  have shifted : [("type", Value.string kind.tag)] ++ (own ++ span.members) =
      (("type", Value.string kind.tag) :: own) ++ (span.members ++ []) := by simp
  rw [shifted] at names
  have third := Schema.gather_of_gives _ names (gives_span span)
  rw [← shifted] at third
  rw [← Schema.readers_treeMembers] at first second third
  have whole := Value.membersWhole_treeMembers
    ([("type", Value.string kind.tag)] ++ (own ++ span.members))
  exact read_node_iff.2 ⟨whole, kind, make, span, first, second, third, made⟩

/-- A node that is present is stored as an object, which is no `null`. -/
theorem reads_splice_of_node {n : Node} (reads : schema.Reads .node n.toJson n) :
    schema.Reads .splice n.toJson (some n) := by
  obtain ⟨ms, stored⟩ : ∃ ms, n.toJson = .object ms := by
    cases n <;> exact ⟨_, rfl⟩
  rw [stored] at reads ⊢
  have read := Schema.reads_object.1 reads
  exact Schema.reads_object.2 (congrArg (Except.map some) read)

mutual

theorem reads_node : (n : Node) → schema.Reads .node n.toJson n
  | .number span value => reads_objectOf (.cons (reads_decimal value) .nil) rfl
  | .var span name selectors =>
    reads_objectOf (.cons (reads_text name) (.cons (reads_nodes selectors) .nil)) rfl
  | .pin span component componentSelectors name selectors =>
    reads_objectOf (.cons (reads_reference component componentSelectors)
      (.cons (reads_reference name selectors) .nil)) rfl
  | .op span symbol operands =>
    reads_objectOf (.cons (reads_text symbol) (.cons (reads_nodes operands) .nil)) rfl
  | .declare span tag name =>
    reads_objectOf (.cons (reads_text tag) (.cons (reads_node name) .nil)) rfl
  | .call span name args =>
    reads_objectOf (.cons (reads_text name) (.cons (reads_nodes args) .nil)) rfl
  | .block span statements => reads_objectOf (.cons (reads_nodes statements) .nil) rfl
  | .forLoop span init condition step body =>
    reads_objectOf (.cons (reads_node init) (.cons (reads_node condition)
      (.cons (reads_node step) (.cons (reads_node body) .nil)))) rfl
  | .whileLoop span condition body =>
    reads_objectOf (.cons (reads_node condition) (.cons (reads_node body) .nil)) rfl
  | .ret span value => reads_objectOf (.cons (reads_node value) .nil) rfl
  | .template span name params body | .function span name params body =>
    reads_objectOf (.cons (reads_text name) (.cons (reads_texts params)
      (.cons (reads_node body) .nil))) rfl
  | .inclusion span file body =>
    reads_objectOf (.cons (reads_file file) (.cons (reads_splice body) .nil)) rfl
  | .array span items => reads_objectOf (.cons (reads_nodes items) .nil) rfl

theorem reads_nodes (ns : List Node) : schema.Reads .nodes (.array (listToJson ns)) ns :=
  Schema.reads_array.2 (Schema.asList_of_reads (forall₂_reads_node ns))

theorem forall₂_reads_node :
    (ns : List Node) → List.Forall₂ (schema.Reads .node) (listToJson ns) ns
  | [] => .nil
  | n :: ns => .cons (reads_node n) (forall₂_reads_node ns)

theorem reads_splice : (n : Option Node) → schema.Reads .splice (optionToJson n) n
  | none => rfl
  | some n => reads_splice_of_node (reads_node n)

theorem reads_reference (name : String) (selectors : List Node) :
    schema.Reads .reference (referenceToJson name (listToJson selectors)) ⟨name, selectors⟩ := by
  refine Schema.reads_record (fun _ => rfl) (by decide) ?_
  exact .cons (reads_text name) (.cons (reads_nodes selectors) .nil)

end

end Node.Stored

namespace Node

/-! ### Whole trees -/

theorem isExact_objectOf (kind : NodeKind) (span : Span) {own : List (String × Value)}
    (exact' : Value.membersExact own = true) : (objectOf kind span own).isExact = true := by
  have members := Value.membersExact_iff.1 exact'
  have spans := Value.membersExact_iff.1 span.membersExact
  rw [objectOf, Value.isExact, Value.membersExact_iff, List.cons_append, List.forall_mem_cons,
    List.forall_mem_append]
  exact ⟨rfl, members, spans⟩

mutual

theorem isExact_toJson : (n : Node) → n.toJson.isExact = true
  | .number span _ => isExact_objectOf _ span rfl
  | .var span _ args | .op span _ args | .call span _ args | .block span args
  | .array span args => by
    apply isExact_objectOf
    simp [Value.membersExact, Value.isExact, allExact_listToJson args]
  | .pin span _ selectors _ selectors' => by
    apply isExact_objectOf
    simp [Value.membersExact, Value.isExact, referenceToJson, allExact_listToJson selectors,
      allExact_listToJson selectors']
  | .declare span _ body | .ret span body => by
    apply isExact_objectOf
    simp [Value.membersExact, Value.isExact, isExact_toJson body]
  | .template span _ params body | .function span _ params body => by
    apply isExact_objectOf
    simp [Value.membersExact, Value.isExact, Value.isExact_texts, isExact_toJson body]
  | .forLoop span init condition step body => by
    apply isExact_objectOf
    simp [Value.membersExact, isExact_toJson init, isExact_toJson condition, isExact_toJson step,
      isExact_toJson body]
  | .whileLoop span condition body => by
    apply isExact_objectOf
    simp [Value.membersExact, isExact_toJson condition, isExact_toJson body]
  | .inclusion span file body => by
    have named : (Value.ofOption Value.string file).isExact = true := by cases file <;> rfl
    apply isExact_objectOf
    simp [Value.membersExact, named, isExact_optionToJson body]

theorem allExact_listToJson : (ns : List Node) → Value.allExact (listToJson ns) = true
  | [] => rfl
  | n :: ns => by simp [listToJson, Value.allExact, isExact_toJson n, allExact_listToJson ns]

theorem isExact_optionToJson : (n : Option Node) → (optionToJson n).isExact = true
  | none => rfl
  | some n => isExact_toJson n

end

/-- Reading a source tree undoes writing it: all names, symbols, literals and spans come back as
they were. -/
theorem ofText_toText (n : Node) : ofText n.toText = .ok n :=
  Schema.read_text (S := Stored.schema) n.isExact_toJson (Stored.reads_node n) .compact
    Json.blanks_nil (List.append_nil _).symm

end Node

end ArithCircuit
