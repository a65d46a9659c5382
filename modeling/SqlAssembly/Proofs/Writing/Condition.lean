import SqlAssembly.Proofs.Query.Scope
import SqlAssembly.Proofs.Spelling

/-!
# Writing what is rendered

A writer follows SQL in pieces if it fails where rendering fails and otherwise writes the text of
the pieces, numbered behind the values bound so far, and binds the values of the pieces
(`Writer.of`). Writing an operand, a predicate or a condition follows rendering it, provided that
writing the queries inside follows rendering them. The one point at which the writer looks at its
own text, whether a group shows anything, is decided by the pieces.
-/

namespace SqlAssembly

variable {d : Dialect} {k : Nat}

/-! ### Writers that follow a rendering -/

namespace Writer

variable {α β γ : Type}

/-- The writer that spells the result of a rendering and binds its values. -/
def of (spell : Nat → α → β) (values : α → List Value) (r : Except SqlError α) : Writer β :=
  fun bound => do
    let a ← r
    return (spell bound.length a, bound ++ values a)

/-- The writer of rendered SQL. -/
def ofRendered (d : Dialect) : Rendered → Written := of (Sql.spell d) Sql.values

/-- The writer of rendered parts. -/
def ofParts (d : Dialect) : Except SqlError (List Sql) → Writer (List String) :=
  of (Sql.spellAll d) Sql.valuesAll

/-- The writer of SQL that may be left out. -/
def ofOption (d : Dialect) : Except SqlError (Option Sql) → Writer (Option String) :=
  of (fun k => Option.map (Sql.spell d k)) (fun sql => sql.elim [] Sql.values)

@[simp] theorem run_of (spell : Nat → α → β) (values : α → List Value) (r : Except SqlError α)
    (bound : List Value) :
    (of spell values r).run bound
      = r >>= fun a => .ok (spell bound.length a, bound ++ values a) := rfl

@[simp] theorem run_ofRendered (r : Rendered) (bound : List Value) :
    (ofRendered d r).run bound
      = r >>= fun sql => .ok (sql.spell d bound.length, bound ++ sql.values) := rfl

@[simp] theorem run_ofParts (r : Except SqlError (List Sql)) (bound : List Value) :
    (ofParts d r).run bound
      = r >>= fun ps => .ok (Sql.spellAll d bound.length ps, bound ++ Sql.valuesAll ps) := rfl

@[simp] theorem run_ofOption (r : Except SqlError (Option Sql)) (bound : List Value) :
    (ofOption d r).run bound
      = r >>= fun sql =>
        .ok (sql.map (Sql.spell d bound.length), bound ++ sql.elim [] Sql.values) :=
  rfl

@[simp] theorem run_liftM (r : Except SqlError α) (bound : List Value) :
    (liftM r : Writer α).run bound = r >>= fun a => .ok (a, bound) := rfl

@[simp] theorem run_throw (e : SqlError) (bound : List Value) :
    (throw e : Writer α).run bound = .error e := rfl

@[simp] theorem run_param (v : Value) (bound : List Value) :
    (param d v).run bound = .ok (d.placeholder (bound.length + 1), bound ++ [v]) := rfl

/-- SQL that binds nothing has the same text wherever it is written. -/
theorem plain_eq_ofRendered {r : Rendered} (h : ∀ sql, r = .ok sql → sql.values = []) :
    plain d r = ofRendered d r := by
  ext bound
  cases r with
  | error e => rfl
  | ok sql => simp [plain, h sql rfl, Sql.spell_of_values_eq_nil (h sql rfl)]

@[simp] theorem plain_fieldSql (owner : Option RecordType) (f : Field) :
    plain d (f.sql owner) = ofRendered d (f.sql owner) :=
  plain_eq_ofRendered fun _ => Field.values_sql

@[simp] theorem plain_returningClause (owner : Option RecordType) (cs : Option Columns) :
    plain d (returningClause owner cs) = ofRendered d (returningClause owner cs) :=
  plain_eq_ofRendered fun _ => values_returningClause

end Writer

/-! ### Operands and predicates -/

theorem Operand.write_map (owner : Option RecordType) (o : Operand Rendered) :
    (o.map (Writer.ofRendered d)).write d owner = Writer.ofOption d (o.render owner) := by
  ext bound
  cases o with
  | absent => simp [Operand.map, Operand.write, Operand.render]
  | value v => simp [Operand.map, Operand.write, Operand.render, Piece.spell, Piece.values]
  | literal sql => simp [Operand.map, Operand.write, Operand.render]
  | field f => simp [Operand.map, Operand.write, Operand.render]
  | subquery q =>
    simp [Operand.map, Operand.write, Operand.render, Sql.parenthesized, String.append_assoc]

theorem Predicate.write_map (owner : Option RecordType) (p : Predicate Rendered) :
    (p.map (Writer.ofRendered d)).write d owner = Writer.ofRendered d (p.render d owner) := by
  ext bound
  simp only [Predicate.write, Predicate.render, Predicate.map, Operand.write_map,
    Writer.plain_fieldSql]
  cases checkIlike d p.operator with
  | error e => simp
  | ok _ =>
    cases hf : p.field.sql owner with
    | error e => simp
    | ok field =>
      have hfield := Field.values_sql hf
      cases p.operand.render owner with
      | error e => simp
      | ok operand =>
        cases operand <;> split <;> rename_i ho <;>
          simp_all [spaced, String.append_assoc]

/-- What a predicate shows does not depend on where it stands. -/
theorem Predicate.isDefinite_render {owner : Option RecordType} {p : Predicate Rendered} {sql : Sql}
    (h : p.render d owner = .ok sql) : sql.IsDefinite d := by
  obtain ⟨_, _, h⟩ := Except.bind_eq_ok.1 h
  obtain ⟨field, hfield, h⟩ := Except.bind_eq_ok.1 h
  obtain ⟨operand, _, h⟩ := Except.bind_eq_ok.1 h
  cases h
  have hfield := Sql.isDefinite_of_values_eq_nil (d := d) (Field.values_sql hfield)
  have hblank (sql : Sql) : (spaced sql).IsDefinite d :=
    Sql.isDefinite_text_append (by decide) sql
  refine Sql.isDefinite_append (Sql.isDefinite_append hfield ?_) ?_
  · split
    · exact Sql.isDefinite_of_values_eq_nil rfl
    · exact hblank _
  · cases operand with
    | none => exact Sql.isDefinite_of_values_eq_nil rfl
    | some sql => exact hblank sql

/-! ### Nodes -/

namespace Node

/-- The texts of rendered siblings. -/
def spellSiblings (d : Dialect) (k : Nat) (parts : List (Connector × Sql)) :
    List (Connector × String) :=
  (parts.map Prod.fst).zip (Sql.spellAll d k (parts.map Prod.snd))

/-- The values of rendered siblings. -/
def siblingValues (parts : List (Connector × Sql)) : List Value :=
  Sql.valuesAll (parts.map Prod.snd)

/-- The writer of rendered siblings. -/
def ofSiblings (d : Dialect) :
    Except SqlError (List (Connector × Sql)) → Writer (List (Connector × String)) :=
  Writer.of (spellSiblings d) siblingValues

@[simp] theorem values_joinSiblings (parts : List (Connector × Sql)) :
    (joinSiblings parts).values = siblingValues parts := by
  cases parts with
  | nil => rfl
  | cons p ps =>
    have hps : Sql.values (ps.flatMap fun part => Sql.text (" " ++ part.1.keyword ++ " ") ++ part.2)
        = Sql.valuesAll (ps.map Prod.snd) := by
      induction ps with
      | nil => rfl
      | cons q qs ih => simp [ih]
    simp [joinSiblings, siblingValues, hps]

/-- Siblings are spelled by joining their texts. -/
@[simp] theorem spell_joinSiblings (parts : List (Connector × Sql)) :
    (joinSiblings parts).spell d k = joinTexts (spellSiblings d k parts) := by
  cases parts with
  | nil => rfl
  | cons p ps =>
    have hps : ∀ k, Sql.spell d k
          (ps.flatMap fun part => Sql.text (" " ++ part.1.keyword ++ " ") ++ part.2)
        = String.join ((spellSiblings d k ps).map fun part =>
            " " ++ part.1.keyword ++ " " ++ part.2) := by
      induction ps with
      | nil => intro k; rfl
      | cons q qs ih =>
        intro k
        simp only [List.flatMap_cons, Sql.spell_append, ih]
        simp [spellSiblings, String.append_assoc]
    simp only [joinSiblings, Sql.spell_append, hps]
    rfl

theorem isDefinite_joinSiblings {parts : List (Connector × Sql)}
    (h : ∀ p ∈ parts, p.2.IsDefinite d) : (joinSiblings parts).IsDefinite d := by
  cases parts with
  | nil => exact Sql.isDefinite_of_values_eq_nil rfl
  | cons p ps =>
    obtain ⟨hp, hps⟩ := List.forall_mem_cons.1 h
    refine Sql.isDefinite_append hp ?_
    induction ps with
    | nil => exact Sql.isDefinite_of_values_eq_nil rfl
    | cons q qs ih =>
      obtain ⟨hq, hqs⟩ := List.forall_mem_cons.1 hps
      have ih := ih (List.forall_mem_cons.2 ⟨hp, hqs⟩) hqs
      exact Sql.isDefinite_append (Sql.isDefinite_append (Sql.isDefinite_text _) hq) ih

theorem isDefinite_enclosed {marks : String × String} {sql : Sql} (h : sql.IsDefinite d) :
    (Sql.enclosed marks sql).IsDefinite d :=
  Sql.isDefinite_append (Sql.isDefinite_append (Sql.isDefinite_text _) h) (Sql.isDefinite_text _)

mutual

theorem isDefinite_render {owner : Option RecordType} {style : ConditionStyle} {n : Node Rendered}
    {sql : Sql} (h : n.render d owner style = .ok (some sql)) : sql.IsDefinite d := by
  match n with
  | leaf c p =>
    obtain ⟨inner, hinner, h⟩ := Except.bind_eq_ok.1 (by simpa only [render] using h)
    cases h
    exact isDefinite_enclosed (Predicate.isDefinite_render hinner)
  | group c ns =>
    obtain ⟨parts, hparts, h⟩ := Except.bind_eq_ok.1 (by simpa only [render] using h)
    split at h
    · cases h
    · cases h
      exact isDefinite_enclosed (isDefinite_joinSiblings (isDefinite_renderAll hparts))

theorem isDefinite_renderAll {owner : Option RecordType} {style : ConditionStyle}
    {ns : List (Node Rendered)} {parts : List (Connector × Sql)}
    (h : renderAll d owner style ns = .ok parts) : ∀ p ∈ parts, p.2.IsDefinite d := by
  match ns with
  | [] =>
    cases h
    simp
  | n :: ns =>
    obtain ⟨first, hfirst, h⟩ := Except.bind_eq_ok.1 (by simpa only [renderAll] using h)
    obtain ⟨rest, hrest, h⟩ := Except.bind_eq_ok.1 h
    have hrest := isDefinite_renderAll hrest
    cases h
    cases first with
    | none => exact hrest
    | some sql => exact List.forall_mem_cons.2 ⟨isDefinite_render hfirst, hrest⟩

end

mutual

theorem write_map (owner : Option RecordType) (style : ConditionStyle) (n : Node Rendered) :
    (n.map (Writer.ofRendered d)).write d owner style
      = Writer.ofOption d (n.render d owner style) := by
  ext bound
  match n with
  | leaf c p =>
    simp [Node.map, write, render, Predicate.write_map, Sql.enclosed, String.append_assoc]
  | group c ns =>
    simp only [Node.map, write, render, writeAll_map owner style ns]
    cases hparts : renderAll d owner style ns with
    | error e => simp [ofSiblings]
    | ok parts =>
      have hblank := isDefinite_joinSiblings (isDefinite_renderAll hparts) bound.length
      rw [spell_joinSiblings] at hblank
      cases hb : (joinSiblings parts).isBlank d with
      | true =>
        have hvalues := Sql.values_eq_nil_of_isBlank hb
        rw [values_joinSiblings] at hvalues
        have htext : joinTexts (spellSiblings d bound.length parts) = "" := by
          simpa using hblank.trans hb
        simp [ofSiblings, htext, hb, hvalues]
      | false =>
        have htext : joinTexts (spellSiblings d bound.length parts) ≠ "" := by
          simpa using hblank.trans hb
        simp [ofSiblings, htext, hb, Sql.enclosed, String.append_assoc]

theorem writeAll_map (owner : Option RecordType) (style : ConditionStyle)
    (ns : List (Node Rendered)) :
    writeAll d owner style (mapAll (Writer.ofRendered d) ns)
      = ofSiblings d (renderAll d owner style ns) := by
  ext bound
  match ns with
  | [] => simp [mapAll, writeAll, renderAll, ofSiblings, spellSiblings, siblingValues]
  | n :: ns =>
    simp only [mapAll, writeAll, renderAll, write_map owner style n, writeAll_map owner style ns]
    cases n.render d owner style with
    | error e => simp [ofSiblings]
    | ok first =>
      cases renderAll d owner style ns with
      | error e => simp [ofSiblings]
      | ok rest =>
        cases first <;> cases n <;>
          simp [ofSiblings, spellSiblings, siblingValues, Node.map, connector]

end

end Node

/-! ### Conditions -/

theorem Condition.write_map (owner : Option RecordType) (c : Condition Rendered) :
    (c.map (Writer.ofRendered d)).write d owner = Writer.ofRendered d (c.render d owner) := by
  ext bound
  simp only [Condition.write, Condition.render, Condition.check_map]
  simp [Condition.map, Node.writeAll_map, Node.ofSiblings]

/-- What a condition shows does not depend on where it stands. -/
theorem Condition.isDefinite_render {owner : Option RecordType} {c : Condition Rendered} {sql : Sql}
    (h : c.render d owner = .ok sql) : sql.IsDefinite d := by
  obtain ⟨_, _, h⟩ := Except.bind_eq_ok.1 h
  obtain ⟨parts, hparts, h⟩ := Except.bind_eq_ok.1 h
  cases h
  exact Node.isDefinite_joinSiblings (Node.isDefinite_renderAll hparts)

theorem Condition.writeClause_map (keyword : String) (owner : Option RecordType)
    (c : Condition Rendered) :
    (c.map (Writer.ofRendered d)).writeClause keyword d owner
      = Writer.ofRendered d (c.renderClause keyword d owner) := by
  ext bound
  simp only [writeClause, write_map, renderClause]
  cases h : c.render d owner with
  | error e => simp
  | ok sql =>
    have hblank : (sql.spell d bound.length).isEmpty = sql.isBlank d := isDefinite_render h _
    simp only [StateT.run_bind, Writer.run_ofRendered, Except.ok_bind, hblank]
    cases hb : sql.isBlank d with
    | true => simp [Sql.values_eq_nil_of_isBlank hb]
    | false => simp [String.append_assoc]

end SqlAssembly
