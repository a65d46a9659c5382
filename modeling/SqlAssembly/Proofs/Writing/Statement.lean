import SqlAssembly.Proofs.Query.Rows
import SqlAssembly.Proofs.Writing.Select
import SqlAssembly.Statement

/-!
# Writing statements

Writing a command follows rendering it (`Command.write_eq`). So in any context a command fails or
succeeds as its rendering does, and its text is the SQL in pieces, numbered behind the values that
the context holds (`Command.writeInto_eq`).
-/

namespace SqlAssembly

variable {d : Dialect} {k : Nat}

/-! ### Names and targets -/

namespace Sql

@[simp] theorem spellAll_names (names : List String) :
    spellAll d k (names.map fun n => [Piece.name n]) = names.map d.quoteIdentifier := by
  induction names generalizing k with
  | nil => rfl
  | cons n ns ih => simp [ih, Piece.spell]

@[simp] theorem valuesAll_names (names : List String) :
    valuesAll (names.map fun n => [Piece.name n]) = [] := by
  induction names with
  | nil => rfl
  | cons n ns ih => simp [ih, Piece.values]

end Sql

attribute [simp] TableRef.values_sql

@[simp] theorem TableRef.spell_sql (t : TableRef) : t.sql.spell d k = d.spell t.sql :=
  Sql.spell_of_values_eq_nil t.values_sql

/-! ### Inserts -/

namespace Insert

theorem writeValues_map (owner : Option RecordType) (number : Nat) (columns : List String)
    (operands : List (Operand Rendered)) :
    writeValues d owner number columns (operands.map (Operand.map (Writer.ofRendered d)))
      = Writer.ofParts d (valuesSql owner number columns operands) := by
  induction columns generalizing operands with
  | nil => ext bound; cases operands <;> simp [writeValues, valuesSql]
  | cons column columns ih =>
    cases operands with
    | nil => ext bound; simp [writeValues, valuesSql]
    | cons o os =>
      ext bound
      simp only [List.map_cons, writeValues, valuesSql, Operand.write_map, ih]
      cases o.render owner with
      | error e => simp
      | ok operand =>
        cases operand with
        | none => simp
        | some sql => cases valuesSql owner number columns os <;> simp

theorem writeRows_map (owner : Option RecordType) (columns : List String) (number : Nat)
    (rows : List (List (Operand Rendered))) :
    writeRows d owner columns number
        (rows.map (List.map (Operand.map (Writer.ofRendered d))))
      = Writer.ofParts d (rowsSql owner columns number rows) := by
  induction rows generalizing number with
  | nil => ext bound; simp [writeRows, rowsSql]
  | cons r rs ih =>
    ext bound
    simp only [List.map_cons, writeRows, rowsSql, writeValues_map, ih]
    cases valuesSql owner number columns r with
    | error e => simp
    | ok first =>
      cases rowsSql owner columns (number + 1) rs <;> simp [Sql.parenthesized, String.append_assoc]

theorem write_map (s : Insert Rendered) :
    (s.map (Writer.ofRendered d)).write d = Writer.ofRendered d s.render := by
  ext bound
  have hcolumns (owner : Option RecordType) := columns_map (Writer.ofRendered d) owner s
  simp only [write, render, hcolumns]
  simp only [map]
  cases s.deferred with
  | some e => simp
  | none =>
    cases s.target with
    | none => simp
    | some source =>
      simp only [Option.map_some, Source.asTarget_map, Source.recordType?_map,
        Writer.plain_returningClause, orderRows_map]
      cases source.asTarget .insert with
      | error e => simp
      | ok target =>
        rw [List.isEmpty_map]
        cases s.rows.isEmpty with
        | true => simp
        | false =>
          simp only [Bool.false_eq_true, ↓reduceIte, StateT.run_bind, Writer.run_liftM,
            Except.ok_bind]
          cases s.columns source.recordType? with
          | error e => simp
          | ok columns =>
            simp only [Except.ok_bind]
            cases orderRows source.recordType? columns 1 s.rows with
            | error e => simp
            | ok ordered =>
              simp only [Except.map_ok, Except.ok_bind, writeRows_map]
              cases rowsSql source.recordType? columns 1 ordered with
              | error e => simp
              | ok rows =>
                cases returningClause source.recordType? s.returning <;>
                  simp [String.append_assoc]

end Insert

/-! ### Updates -/

namespace Update

theorem writeAssignment_map (owner : Option RecordType) (column : String)
    (operand : Operand Rendered) :
    writeAssignment d owner column (operand.map (Writer.ofRendered d))
      = Writer.ofRendered d (assignmentSql owner column operand) := by
  ext bound
  simp only [writeAssignment, assignmentSql, Operand.write_map]
  cases operand.render owner with
  | error e => simp
  | ok sql => cases sql <;> simp [Piece.spell, Piece.values, String.append_assoc]

theorem write_map (s : Update Rendered) :
    (s.map (Writer.ofRendered d)).write d = Writer.ofRendered d (s.render d) := by
  ext bound
  have hmerged (owner : Option RecordType) := merged_map (Writer.ofRendered d) owner s
  have hassignments (owner : Option RecordType) (m : OrderedMap (Operand Rendered)) :
      ((m.map (Operand.map (Writer.ofRendered d))).entries.mapM fun e =>
          writeAssignment d owner e.1 e.2)
        = Writer.ofParts d (m.entries.mapM fun e => assignmentSql owner e.1 e.2) := by
    rw [OrderedMap.entries_map, Entries.map, List.mapM_map, ← Writer.mapM_ofRendered]
    exact congrArg (m.entries.mapM ·) (funext fun p => writeAssignment_map owner p.1 p.2)
  simp only [write, render, hmerged]
  simp only [map]
  cases s.deferred with
  | some e => simp
  | none =>
    cases s.target with
    | none => simp
    | some source =>
      simp only [Option.map_some, Source.asTarget_map, Source.recordType?_map,
        Writer.plain_returningClause, Condition.check_map, Condition.writeClause_map]
      cases s.filter.check with
      | error e => simp
      | ok _ =>
        cases source.asTarget .update with
        | error e => simp
        | ok target =>
          simp only [StateT.run_bind, Writer.run_liftM, Except.ok_bind]
          cases s.merged source.recordType? with
          | error e => simp
          | ok m =>
            simp only [Except.map_ok, Except.ok_bind, hassignments]
            cases m.entries.mapM fun e => assignmentSql source.recordType? e.1 e.2 with
            | error e => simp
            | ok assignments =>
              cases s.filter.renderClause " WHERE" d source.recordType? with
              | error e => simp
              | ok filter =>
                cases returningClause source.recordType? s.returning <;>
                  simp [String.append_assoc]

end Update

/-! ### Deletes -/

namespace Delete

theorem write_map (s : Delete Rendered) :
    (s.map (Writer.ofRendered d)).write d = Writer.ofRendered d (s.render d) := by
  ext bound
  simp only [write, render, map, Condition.check_map]
  cases s.filter.check with
  | error e => simp
  | ok _ =>
    cases s.target with
    | none => simp
    | some source =>
      simp only [Option.map_some, Source.asTarget_map, Source.recordType?_map,
        Writer.plain_returningClause, Condition.writeClause_map]
      cases source.asTarget .delete with
      | error e => simp
      | ok target =>
        cases s.filter.renderClause " WHERE" d source.recordType? with
        | error e => simp
        | ok filter =>
          cases returningClause source.recordType? s.returning <;> simp [String.append_assoc]

end Delete

/-! ### Commands -/

theorem Statement.write_eq (d : Dialect) (s : Statement) :
    s.write d = Writer.ofRendered d (s.render d) := by
  have hwrite : Query.write d = Writer.ofRendered d ∘ Query.render d :=
    funext (Query.write_eq d)
  cases s with
  | select s => exact Query.write_eq d (.of s)
  | insert s =>
    simp only [write, render, hwrite]
    rw [← Insert.map_map, Insert.write_map]
  | update s =>
    simp only [write, render, hwrite]
    rw [← Update.map_map, Update.write_map]
  | delete s =>
    simp only [write, render, hwrite]
    rw [← Delete.map_map, Delete.write_map]
  | literal sql =>
    ext bound
    simp [write, render]

theorem CommonTable.write_eq (d : Dialect) (t : CommonTable) :
    t.write d = Writer.ofRendered d (t.render d) := by
  ext bound
  simp only [write, render, Statement.write_eq]
  cases checkName .commonTable t.name with
  | error e => simp
  | ok _ =>
    simp only [StateT.run_bind, Writer.run_liftM, Except.ok_bind, Writer.run_ofRendered]
    cases (t.columns.forM (checkName .commonTable) : Except SqlError Unit) with
    | error e => simp
    | ok _ =>
      cases t.statement.render d with
      | error e => simp
      | ok body =>
        cases t.columns.isEmpty <;>
          simp [-String.reduceAppend, Sql.parenthesized, Piece.spell, Piece.values,
            String.append_assoc]

theorem With.write_eq (d : Dialect) (s : With) :
    s.write d = Writer.ofRendered d (s.render d) := by
  ext bound
  simp only [write, render, Statement.write_eq, funext (CommonTable.write_eq d),
    Writer.mapM_ofRendered]
  cases s.tables.isEmpty with
  | true => simp
  | false =>
    cases s.statement with
    | none => simp
    | some statement =>
      simp only [StateT.run_bind, Bool.false_eq_true, ↓reduceIte, Writer.run_ofParts,
        Writer.run_ofRendered]
      cases s.tables.mapM (CommonTable.render d) with
      | error e => simp
      | ok tables => cases statement.render d <;> simp [String.append_assoc]

namespace Command

theorem write_eq (d : Dialect) (c : Command) : c.write d = Writer.ofRendered d (c.render d) := by
  cases c with
  | select s => exact Statement.write_eq d (.select s)
  | insert s => exact Statement.write_eq d (.insert s)
  | update s => exact Statement.write_eq d (.update s)
  | delete s => exact Statement.write_eq d (.delete s)
  | commonTables s => exact With.write_eq d s

/-- In a context a command has the text of its SQL, numbered behind the values of the context, and
binds the values of its SQL behind them. -/
theorem writeInto_eq (c : Command) (context : Context) :
    c.writeInto context = (c.render context.dialect).map fun sql =>
      (sql.spell context.dialect context.values.length,
        { context with values := context.values ++ sql.values }) := by
  rw [writeInto, Context.write, write_eq, Writer.run_ofRendered]
  cases c.render context.dialect <;> rfl

/-- A command is assembled by spelling its SQL in its own dialect. -/
theorem assemble_eq (c : Command) :
    c.assemble = (c.render c.dialect).map fun sql => ⟨c.dialect.spell sql, sql.values⟩ := by
  rw [assemble, writeInto_eq]
  cases c.render c.dialect <;> rfl

theorem assemble_eq_ok {c : Command} {d : Dialect} (hd : c.dialect = d) {a : Assembled} :
    c.assemble = .ok a ↔ ∃ sql, c.render d = .ok sql ∧ a = ⟨d.spell sql, sql.values⟩ := by
  rw [assemble_eq, hd, Except.map_eq_ok]
  simp only [eq_comm]

end Command

/-- A select is assembled by spelling what it is rendered to once its queries are. -/
theorem Select.assemble_eq_ok {s : Select Query} {d : Dialect} (hd : s.dialect = d)
    {a : Assembled} :
    (Command.select s).assemble = .ok a
      ↔ ∃ sql, (s.map (Query.render d)).render d = .ok sql ∧ a = ⟨d.spell sql, sql.values⟩ := by
  rw [Command.assemble_eq_ok (c := .select s) hd, ← Query.render_of]
  rfl

/-- Behind the values of a context a condition has the text of its SQL, and binds the values of its
SQL. -/
theorem Condition.assemble_eq (context : Context) (owner : Option RecordType)
    (c : Condition Query) :
    c.assemble context owner
      = ((c.map (Query.render context.dialect)).render context.dialect owner).map fun sql =>
          ⟨sql.spell context.dialect context.values.length, context.values ++ sql.values⟩ := by
  have hwrite : Query.write context.dialect
      = Writer.ofRendered context.dialect ∘ Query.render context.dialect :=
    funext (Query.write_eq context.dialect)
  rw [assemble, Context.write, hwrite, ← Condition.map_map, Condition.write_map,
    Writer.run_ofRendered]
  cases (c.map (Query.render context.dialect)).render context.dialect owner <;> rfl

end SqlAssembly
