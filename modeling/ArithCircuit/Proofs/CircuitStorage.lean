import ArithCircuit.Listing.Circuit
import ArithCircuit.Proofs.Readback

set_option autoImplicit false
set_option relaxedAutoImplicit false

/-!
# Stored circuits are read back

Every part of a circuit has its place in the stored form. Each part, written as JSON, is read at its
place as itself; for the trees this is by recursion on them, one case for each constructor. Main
statement: `Circuit.ofText_emit`.
-/

namespace ArithCircuit

open Json (Value Schema Variant Blanks Result)

/-! ### Numbers in the stored form -/

mutual

theorem Expr.isExact_toJson : (e : Expr) → e.toJson.isExact = true
  | .number _ | .prime | .mask => rfl
  | .binary _ lhs rhs | .assertEqual lhs rhs => by
    simp [Expr.toJson, tagged, Value.isExact, Value.membersExact, Expr.isExact_toJson lhs,
      Expr.isExact_toJson rhs]
  | .modPow a b c | .select a b c => by
    simp [Expr.toJson, tagged, Value.isExact, Value.membersExact, Expr.isExact_toJson a,
      Expr.isExact_toJson b, Expr.isExact_toJson c]
  | .get cell => by
    simp [Expr.toJson, tagged, Value.isExact, Value.membersExact, Cell.membersExact cell]
  | .set cell value => by
    have members := Value.membersExact_iff.1 (Cell.membersExact cell)
    have all : Value.membersExact (cell.members ++ [("value", value.toJson)]) = true := by
      rw [Value.membersExact_iff, List.forall_mem_append, List.forall_mem_singleton]
      exact ⟨members, Expr.isExact_toJson value⟩
    simp [Expr.toJson, tagged, Value.isExact, Value.membersExact, all]
  | .call _ args => by
    simp [Expr.toJson, tagged, Value.isExact, Value.membersExact, Expr.allExact_listToJson args]
  | .array items => by
    simp [Expr.toJson, tagged, Value.isExact, Value.membersExact, Expr.allExact_listToJson items]

theorem Cell.membersExact : (cell : Cell) → Value.membersExact cell.members = true
  | .var _ indices | .signal _ indices => by
    simp [Cell.members, Value.isExact, Value.membersExact, Expr.allExact_listToJson indices]
  | .pin _ indices _ indices' => by
    simp [Cell.members, Value.isExact, Value.membersExact, Expr.allExact_listToJson indices,
      Expr.allExact_listToJson indices']

theorem Expr.allExact_listToJson : (es : List Expr) → Value.allExact (Expr.listToJson es) = true
  | [] => rfl
  | e :: es => by
    simp [Expr.listToJson, Value.allExact, Expr.isExact_toJson e, Expr.allExact_listToJson es]

end

mutual

theorem Stmt.isExact_toJson : (s : Stmt) → s.toJson.isExact = true
  | .expr e | .ret e => by
    simp [Stmt.toJson, tagged, Value.isExact, Value.membersExact, e.isExact_toJson]
  | .block body => by
    simp [Stmt.toJson, tagged, Value.isExact, Value.membersExact, Stmt.allExact_listToJson body]
  | .forLoop init condition step body => by
    simp [Stmt.toJson, tagged, Value.isExact, Value.membersExact, Stmt.isExact_optionToJson init,
      condition.isExact_toJson, Stmt.isExact_optionToJson step, Stmt.isExact_toJson body]
  | .whileLoop condition body => by
    simp [Stmt.toJson, tagged, Value.isExact, Value.membersExact, condition.isExact_toJson,
      Stmt.isExact_toJson body]

theorem Stmt.isExact_optionToJson : (s : Option Stmt) → (Stmt.optionToJson s).isExact = true
  | none => rfl
  | some s => Stmt.isExact_toJson s

theorem Stmt.allExact_listToJson : (ss : List Stmt) → Value.allExact (Stmt.listToJson ss) = true
  | [] => rfl
  | s :: ss => by
    simp [Stmt.listToJson, Value.allExact, Stmt.isExact_toJson s, Stmt.allExact_listToJson ss]

end

theorem Definition.isExact_toJson (d : Definition) : d.toJson.isExact = true := by
  simp [toJson, Value.isExact, Value.membersExact, Value.isExact_texts,
    Stmt.allExact_listToJson d.body, Span.toJson, d.span.membersExact]

theorem OrderedMap.isExact_toJson {α : Type} {f : α → Value} (all : ∀ a, (f a).isExact = true)
    (m : OrderedMap α) : (m.toJson f).isExact = true := by
  rw [toJson, Value.isExact, Value.membersExact_iff, List.forall_mem_map]
  intro e _
  exact all e.2

theorem Circuit.isExact_toJson (c : Circuit) : c.toJson.isExact = true := by
  simp [toJson, Field.members, Value.isExact, Value.membersExact,
    OrderedMap.isExact_toJson Definition.isExact_toJson,
    OrderedMap.isExact_toJson Value.isExact_texts]

/-! ### Each part at its place -/

namespace Artifact

theorem reads_texts (l : List String) : schema.Reads .texts (.texts l) l := by
  have items : List.Forall₂ (schema.Reads .text) (l.map .string) l :=
    List.forall₂_map_left_iff.2 (List.forall₂_same.2 fun _ _ => rfl)
  exact Schema.reads_array.2 (Schema.asList_of_reads items)

theorem reads_text (text : String) : schema.Reads .text (.string text) text := rfl

theorem reads_decimal (n : Nat) : schema.Reads .decimal (.string (Decimal.text n)) n :=
  Json.Layer.asDecimal_text (ρ := Json.Reader Carrier) n

theorem reads_word32 (n : UInt32) : schema.Reads .word32 (.number n.toNat) n :=
  Json.Layer.asWord32_toNat (ρ := Json.Reader Carrier) n

theorem reads_op (op : BigIntOp) : schema.Reads .op (.string op.tag) op := by
  cases op <;> rfl

theorem reads_span (span : Span) : schema.Reads .span span.toJson span := by
  refine Schema.reads_record (fun _ => rfl) (by decide) ?_
  exact .cons (reads_word32 _) <| .cons (reads_word32 _) <| .cons (reads_word32 _) <|
    .cons (reads_word32 _) .nil

/-- An expression that carries data is read by its word. -/
theorem reads_expr_of_tag {tag : String} {variant : Variant Carrier Expr} {v : Value} {e : Expr}
    (known : exprVariants.lookup tag = some variant)
    (data : variant.ofData unitData (schema.reader v.tree) = .ok e) :
    schema.Reads .expr (tagged tag v) e :=
  Schema.reads_object.2 (Schema.asChoice_of_tag (S := schema) known data)

/-- A statement is read by its word. -/
theorem reads_stmt_of_tag {tag : String} {variant : Variant Carrier Stmt} {v : Value} {s : Stmt}
    (known : stmtVariants.lookup tag = some variant)
    (data : variant.ofData unitData (schema.reader v.tree) = .ok s) :
    schema.Reads .stmt (tagged tag v) s :=
  Schema.reads_object.2 (Schema.asChoice_of_tag (S := schema) known data)

/-- The data of a variant are read at their place. -/
theorem ofData_of_reads {α : Type} (slot : Slot) (make : Carrier slot → α) {v : Value}
    {a : Carrier slot} (reads : schema.Reads slot v a) :
    Variant.ofData unitData (schema.reader v.tree) (.fields slot make) = .ok (make a) ∧
      Variant.ofData unitData (schema.reader v.tree) (.carrying slot make) = .ok (make a) := by
  have mapped : make <$> (schema.reader v.tree).read slot = .ok (make a) :=
    congrArg (Except.map make) reads
  exact ⟨mapped, mapped⟩

mutual

theorem reads_expr : (e : Expr) → schema.Reads .expr e.toJson e
  | .number text => reads_expr_of_tag rfl (ofData_of_reads .text Expr.number (reads_text text)).2
  | .prime => rfl
  | .mask => rfl
  | .binary op lhs rhs => by
    refine reads_expr_of_tag rfl (ofData_of_reads .binary id ?_).1
    refine Schema.reads_record (fun _ => rfl) (by decide) ?_
    exact .cons (reads_op op) <| .cons (reads_expr lhs) <| .cons (reads_expr rhs) .nil
  | .modPow base exponent modulus => by
    refine reads_expr_of_tag rfl (ofData_of_reads .modPow id ?_).1
    refine Schema.reads_record (fun _ => rfl) (by decide) ?_
    exact .cons (reads_expr base) <| .cons (reads_expr exponent) <| .cons (reads_expr modulus) .nil
  | .select condition whenTrue whenFalse => by
    refine reads_expr_of_tag rfl (ofData_of_reads .select id ?_).1
    refine Schema.reads_record (fun _ => rfl) (by decide) ?_
    exact .cons (reads_expr condition) <| .cons (reads_expr whenTrue) <|
      .cons (reads_expr whenFalse) .nil
  | .get (.var name indices) => by
    refine reads_expr_of_tag rfl (ofData_of_reads .getVar id ?_).1
    refine Schema.reads_record (fun _ => rfl) (by decide) ?_
    exact .cons (reads_text name) <| .cons (reads_exprs indices) .nil
  | .get (.signal name indices) => by
    refine reads_expr_of_tag rfl (ofData_of_reads .getSignal id ?_).1
    refine Schema.reads_record (fun _ => rfl) (by decide) ?_
    exact .cons (reads_text name) <| .cons (reads_exprs indices) .nil
  | .get (.pin component componentIndices pin pinIndices) => by
    refine reads_expr_of_tag rfl (ofData_of_reads .getPin id ?_).1
    refine Schema.reads_record (fun _ => rfl) (by decide) ?_
    exact .cons (reads_text component) <| .cons (reads_exprs componentIndices) <|
      .cons (reads_text pin) <| .cons (reads_exprs pinIndices) .nil
  | .set (.var name indices) value => by
    refine reads_expr_of_tag rfl (ofData_of_reads .setVar id ?_).1
    refine Schema.reads_record (fun _ => rfl) (by decide) ?_
    exact .cons (reads_text name) <| .cons (reads_exprs indices) <| .cons (reads_expr value) .nil
  | .set (.signal name indices) value => by
    refine reads_expr_of_tag rfl (ofData_of_reads .setSignal id ?_).1
    refine Schema.reads_record (fun _ => rfl) (by decide) ?_
    exact .cons (reads_text name) <| .cons (reads_exprs indices) <| .cons (reads_expr value) .nil
  | .set (.pin component componentIndices pin pinIndices) value => by
    refine reads_expr_of_tag rfl (ofData_of_reads .setPin id ?_).1
    refine Schema.reads_record (fun _ => rfl) (by decide) ?_
    exact .cons (reads_text component) <| .cons (reads_exprs componentIndices) <|
      .cons (reads_text pin) <| .cons (reads_exprs pinIndices) <| .cons (reads_expr value) .nil
  | .assertEqual lhs rhs => by
    refine reads_expr_of_tag rfl (ofData_of_reads .assertEqual id ?_).1
    refine Schema.reads_record (fun _ => rfl) (by decide) ?_
    exact .cons (reads_expr lhs) <| .cons (reads_expr rhs) .nil
  | .call name args => by
    refine reads_expr_of_tag rfl (ofData_of_reads .call id ?_).1
    refine Schema.reads_record (fun _ => rfl) (by decide) ?_
    exact .cons (reads_text name) <| .cons (reads_exprs args) .nil
  | .array items => reads_expr_of_tag rfl (ofData_of_reads .exprs Expr.array (reads_exprs items)).2

theorem reads_exprs (es : List Expr) : schema.Reads .exprs (.array (Expr.listToJson es)) es :=
  Schema.reads_array.2 (Schema.asList_of_reads (forall₂_reads_expr es))

theorem forall₂_reads_expr :
    (es : List Expr) → List.Forall₂ (schema.Reads .expr) (Expr.listToJson es) es
  | [] => .nil
  | e :: es => .cons (reads_expr e) (forall₂_reads_expr es)

end

theorem exists_toJson_eq_tagged (s : Stmt) : ∃ tag v, s.toJson = tagged tag v := by
  cases s <;> exact ⟨_, _, rfl⟩

/-- A clause that is present is stored as its statement, which is no `null`. -/
theorem reads_clause_of_stmt {s : Stmt} (reads : schema.Reads .stmt s.toJson s) :
    schema.Reads .clause s.toJson (some s) := by
  obtain ⟨tag, v, stored⟩ := exists_toJson_eq_tagged s
  rw [stored] at reads ⊢
  have chosen := Schema.reads_object.1 reads
  exact Schema.reads_object.2 (congrArg (Except.map some) chosen)

mutual

theorem reads_stmt : (s : Stmt) → schema.Reads .stmt s.toJson s
  | .expr e => reads_stmt_of_tag rfl (ofData_of_reads .expr Stmt.expr (reads_expr e)).2
  | .block body => reads_stmt_of_tag rfl (ofData_of_reads .stmts Stmt.block (reads_stmts body)).2
  | .forLoop init condition step body => by
    refine reads_stmt_of_tag rfl (ofData_of_reads .forLoop id ?_).1
    refine Schema.reads_record (fun _ => rfl) (by decide) ?_
    exact .cons (reads_clause init) <| .cons (reads_expr condition) <| .cons (reads_clause step) <|
      .cons (reads_stmt body) .nil
  | .whileLoop condition body => by
    refine reads_stmt_of_tag rfl (ofData_of_reads .whileLoop id ?_).1
    refine Schema.reads_record (fun _ => rfl) (by decide) ?_
    exact .cons (reads_expr condition) <| .cons (reads_stmt body) .nil
  | .ret e => reads_stmt_of_tag rfl (ofData_of_reads .expr Stmt.ret (reads_expr e)).2

theorem reads_clause : (clause : Option Stmt) →
    schema.Reads .clause (Stmt.optionToJson clause) clause
  | none => rfl
  | some s => reads_clause_of_stmt (reads_stmt s)

theorem reads_stmts (ss : List Stmt) : schema.Reads .stmts (.array (Stmt.listToJson ss)) ss :=
  Schema.reads_array.2 (Schema.asList_of_reads (forall₂_reads_stmt ss))

theorem forall₂_reads_stmt :
    (ss : List Stmt) → List.Forall₂ (schema.Reads .stmt) (Stmt.listToJson ss) ss
  | [] => .nil
  | s :: ss => .cons (reads_stmt s) (forall₂_reads_stmt ss)

end

theorem reads_definition (d : Definition) : schema.Reads .definition d.toJson d := by
  refine Schema.reads_record (fun _ => rfl) (by decide) ?_
  exact .cons (reads_texts d.params) <| .cons (reads_stmts d.body) <| .cons (reads_span d.span) .nil

/-- The entries of a map are stored in their order. -/
theorem forall₂_entries (slot : Slot) {write : Carrier slot → Value}
    (reads : ∀ a, schema.Reads slot (write a) a) (m : OrderedMap (Carrier slot)) :
    List.Forall₂ (fun w e => w.1 = e.1 ∧ schema.Reads slot w.2 e.2)
      (m.entries.map fun e => (e.1, write e.2)) m.entries :=
  List.forall₂_map_left_iff.2 (List.forall₂_same.2 fun e _ => ⟨rfl, reads e.2⟩)

theorem reads_definitions (m : OrderedMap Definition) :
    schema.Reads .definitions (m.toJson Definition.toJson) m := by
  have entries := forall₂_entries .definition reads_definition m
  exact Schema.reads_object.2 (Schema.asMap_of_reads (S := schema) entries)

theorem reads_paramLists (m : OrderedMap (List String)) :
    schema.Reads .paramLists (m.toJson Value.texts) m := by
  have entries := forall₂_entries .texts reads_texts m
  exact Schema.reads_object.2 (Schema.asMap_of_reads (S := schema) entries)

theorem reads_circuit (c : Circuit) : schema.Reads .circuit c.toJson c := by
  refine Schema.reads_record (fun _ => rfl) (by decide) ?_
  exact .cons (reads_decimal _) <| .cons (reads_decimal _) <| .cons (reads_definitions _) <|
    .cons (reads_definitions _) <| .cons (reads_paramLists _) .nil

end Artifact

/-- Reading a circuit undoes writing it, in its stored text and in what is emitted as JSON: names,
numbers, spans, clauses and the order of the definitions come back as they were. -/
theorem Circuit.ofText_emit (c : Circuit) (config : Listing.Config) :
    Circuit.ofText c.toText = .ok c ∧
      (c.emit config .json).1 = .ok () ∧ Circuit.ofText (c.emit config .json).2 = .ok c := by
  have read : ∀ (b : List Char) (text : String), Blanks b → text.toList = c.toText.toList ++ b →
      Circuit.ofText text = .ok c := by
    intro b text after whole
    exact Schema.read_text (S := Artifact.schema) c.isExact_toJson (Artifact.reads_circuit c)
      .pretty after whole
  have newline : Blanks ['\n'] := by
    intro d member
    rw [List.mem_singleton.1 member]
    rfl
  refine ⟨read [] c.toText Json.blanks_nil (List.append_nil _).symm, rfl, ?_⟩
  exact read ['\n'] (c.toText ++ "\n") newline String.toList_append

end ArithCircuit
