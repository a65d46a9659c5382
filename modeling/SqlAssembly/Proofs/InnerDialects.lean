import SqlAssembly.Proofs.Query.Rows
import SqlAssembly.Proofs.Writing.Statement

/-!
# The dialects of inner statements

Every statement stores a dialect, but only that of the outermost one is asked. If the dialects that
are stored inside two commands are all that tells them apart, then both are assembled to the same
text and values, or fail with the same error (`Command.assemble_eq_of_withInnerDialect_eq`).
-/

namespace SqlAssembly

/-! ### One dialect inside -/

/-- The query with a dialect in the place of its own and of all that are stored inside it. -/
def Query.withDialectThroughout (d : Dialect) : Query → Query :=
  fold fun s => .of { s with dialect := d }

/-- The statement with a dialect in the place of its own and of all that are stored inside it. -/
def Statement.withDialectThroughout (d : Dialect) : Statement → Statement
  | select s => .select ((Query.of s).withDialectThroughout d).select
  | insert s => .insert { s.map (Query.withDialectThroughout d) with dialect := d }
  | update s => .update { s.map (Query.withDialectThroughout d) with dialect := d }
  | delete s => .delete { s.map (Query.withDialectThroughout d) with dialect := d }
  | literal sql => .literal sql

/-- The common table with a dialect in the place of all that are stored in its statement. -/
def CommonTable.withDialectThroughout (d : Dialect) (t : CommonTable) : CommonTable :=
  { t with statement := t.statement.withDialectThroughout d }

/-- The command with a dialect in the place of all that are stored inside it. It keeps its own. Two
commands that this makes the same differ at most in the dialects of the statements nested in
them. -/
def Command.withInnerDialect (d : Dialect) : Command → Command
  | select s => .select (s.map (Query.withDialectThroughout d))
  | insert s => .insert (s.map (Query.withDialectThroughout d))
  | update s => .update (s.map (Query.withDialectThroughout d))
  | delete s => .delete (s.map (Query.withDialectThroughout d))
  | commonTables s =>
    .commonTables
      { s with
        tables := s.tables.map (CommonTable.withDialectThroughout d)
        statement := s.statement.map (Statement.withDialectThroughout d) }

/-! ### Rendering -/

section Rendering

variable (d d' : Dialect)

/-- The dialect that a query stores is not asked when it is rendered, nor are those inside it. -/
theorem Query.render_withDialectThroughout (q : Query) :
    (q.withDialectThroughout d').render d = q.render d := by
  refine fold_fusion (render d) ?_ q
  intro s
  rw [render_of]
  rfl

theorem Query.render_comp_withDialectThroughout : render d ∘ withDialectThroughout d' = render d :=
  funext (render_withDialectThroughout d d')

theorem Statement.render_withDialectThroughout (s : Statement) :
    (s.withDialectThroughout d').render d = s.render d := by
  have hqueries := Query.render_comp_withDialectThroughout d d'
  cases s with
  | select s => exact Query.render_withDialectThroughout d d' (.of s)
  | insert s =>
    calc ((insert s).withDialectThroughout d').render d
      _ = ((s.map (Query.withDialectThroughout d')).map (Query.render d)).render := rfl
      _ = (s.map (Query.render d)).render := by rw [Insert.map_map, hqueries]
  | update s =>
    calc ((update s).withDialectThroughout d').render d
      _ = ((s.map (Query.withDialectThroughout d')).map (Query.render d)).render d := rfl
      _ = (s.map (Query.render d)).render d := by rw [Update.map_map, hqueries]
  | delete s =>
    calc ((delete s).withDialectThroughout d').render d
      _ = ((s.map (Query.withDialectThroughout d')).map (Query.render d)).render d := rfl
      _ = (s.map (Query.render d)).render d := by rw [Delete.map_map, hqueries]
  | literal sql => rfl

theorem CommonTable.render_withDialectThroughout (t : CommonTable) :
    (t.withDialectThroughout d').render d = t.render d := by
  unfold render
  simp only [withDialectThroughout, Statement.render_withDialectThroughout]
  rfl

end Rendering

namespace Command

variable (d d' : Dialect)

theorem dialect_withInnerDialect (c : Command) : (c.withInnerDialect d).dialect = c.dialect := by
  cases c <;> rfl

/-- The dialects that are stored inside a command are not asked when it is rendered. -/
theorem render_withInnerDialect (c : Command) :
    (c.withInnerDialect d').render d = c.render d := by
  cases c with
  | select s =>
    have hqueries := Query.render_comp_withDialectThroughout d d'
    calc (Query.of (s.map (Query.withDialectThroughout d'))).render d
      _ = ((s.map (Query.withDialectThroughout d')).map (Query.render d)).render d :=
        Query.render_of d _
      _ = (s.map (Query.render d)).render d := by rw [Select.map_map, hqueries]
      _ = (Query.of s).render d := (Query.render_of d s).symm
  | insert s => exact Statement.render_withDialectThroughout d d' (.insert s)
  | update s => exact Statement.render_withDialectThroughout d d' (.update s)
  | delete s => exact Statement.render_withDialectThroughout d d' (.delete s)
  | commonTables s =>
    have htables : (s.tables.map (CommonTable.withDialectThroughout d')).mapM (CommonTable.render d)
        = s.tables.mapM (CommonTable.render d) := by
      rw [List.mapM_map]
      exact Except.mapM_congr fun t _ => CommonTable.render_withDialectThroughout d d' t
    simp only [render, withInnerDialect, With.render, List.isEmpty_map, htables]
    cases s.statement with
    | none => rfl
    | some statement => simp only [Option.map_some, Statement.render_withDialectThroughout]

/-- Commands that differ at most in the dialects stored inside them are assembled alike: they give
the same text and the same values, or the same error. -/
theorem assemble_eq_of_withInnerDialect_eq {c c' : Command}
    (h : c.withInnerDialect d = c'.withInnerDialect d) : c.assemble = c'.assemble := by
  have hdialect : c.dialect = c'.dialect := by
    rw [← dialect_withInnerDialect d c, h, dialect_withInnerDialect]
  have hrender : c.render c.dialect = c'.render c.dialect := by
    rw [← render_withInnerDialect c.dialect d c, h, render_withInnerDialect]
  rw [assemble_eq, assemble_eq, hrender, hdialect]

/-- Guests whose name is like a pattern are moved to the rooms of a query, and the last statement
looks them up in a union. All inner statements store the given dialects. -/
def guests (inner innermost : Dialect) : Command :=
  .commonTables (.build .postgres
    [.table
      { name := "moved"
        statement := .update (.build inner
          [.target (.table (.name "guest") none),
            .assign [⟨"room", .subquery (.of (.build innermost
              [.source (.table (.name "room") none) (.list [{ name := .name "id" }]),
                .filter (.add .and { name := .name "free" } "=" (.value (.bool true)))]))⟩],
            .filter (.add .and { name := .name "name" } "ILIKE" (.value (.text "a%"))),
            .returning .all]) },
      .statement (.select (.build inner
        [.union (.query (.of (.build innermost [.source (.table (.name "moved") none) .all])))
            .distinct,
          .union (.query (.of (.build inner
            [.source (.table (.name "guest") none) .all,
              .filter (.add .and { name := .name "id" } "=" (.value (.int 7)))]))) .distinct]))])

set_option maxRecDepth 10000 in
/-- Inside a statement for `postgres` it is of no account that `sqlite` has other placeholders and
no `ILIKE`. -/
theorem assemble_eq_of_withInnerDialect_eq_guests :
    (guests .sqlite .generic).assemble = (guests .postgres .sqlite).assemble
      ∧ (guests .sqlite .generic).assemble = .ok
        ⟨"WITH \"moved\" AS (UPDATE \"guest\" SET \"room\"=(SELECT \"id\" FROM \"room\" "
          ++ "WHERE (\"free\" = $1)) WHERE \"name\" ILIKE $2 RETURNING *) "
          ++ "SELECT \"moved\".* FROM \"moved\" UNION SELECT \"guest\".* FROM \"guest\" "
          ++ "WHERE (\"id\" = $3)",
          [.bool true, .text "a%", .int 7]⟩ := by
  refine ⟨assemble_eq_of_withInnerDialect_eq .generic rfl, ?_⟩
  rfl

end Command

end SqlAssembly
