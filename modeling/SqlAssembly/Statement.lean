import SqlAssembly.Delete
import SqlAssembly.Insert
import SqlAssembly.Query
import SqlAssembly.Update

/-!
# Statements

The statements that may stand inside another one, and the `WITH` statement that names some of them
for use in a last one. A `Command` is what can be assembled on its own: `Command.assemble` gives its
text in its own dialect, with the values of the placeholders from left to right. The dialects of
inner statements are never asked.
-/

namespace SqlAssembly

/-! ### Inner statements -/

/-- A statement that may be a member of a union, a common table or the last statement of a
`WITH`. -/
inductive Statement where
  | select (s : Select Query)
  | insert (s : Insert Query)
  | update (s : Update Query)
  | delete (s : Delete Query)
  /-- Raw SQL. -/
  | literal (sql : String)

namespace Statement

/-- The kind of a statement. -/
def kind : Statement → StatementKind
  | select _ => .select
  | insert _ => .insert
  | update _ => .update
  | delete _ => .delete
  | literal _ => .literal

/-- The statement as a member of a union, which takes selects and raw SQL only. -/
def asMember : Statement → UnionMember Query
  | select s => .query (.of s)
  | literal sql => .literal sql
  | s => .refused s.kind

/-- The SQL of a statement. -/
def render (d : Dialect) : Statement → Rendered
  | select s => (Query.of s).render d
  | insert s => (s.map (Query.render d)).render
  | update s => (s.map (Query.render d)).render d
  | delete s => (s.map (Query.render d)).render d
  | literal sql => return Sql.text sql

def write (d : Dialect) : Statement → Written
  | select s => (Query.of s).write d
  | insert s => (s.map (Query.write d)).write d
  | update s => (s.map (Query.write d)).write d
  | delete s => (s.map (Query.write d)).write d
  | literal sql => return sql

end Statement

/-! ### Common tables -/

/-- `name(columns) AS (statement)` -/
structure CommonTable where
  name : String
  columns : List String := []
  materialization : Materialization := .engineDecides
  statement : Statement

/-- The SQL of a common table. -/
def CommonTable.render (d : Dialect) (t : CommonTable) : Rendered := do
  checkName .commonTable t.name
  t.columns.forM (checkName .commonTable)
  let columns :=
    if t.columns.isEmpty then []
    else Sql.parenthesized (Sql.join "," (t.columns.map fun c => [Piece.name c]))
  let body ← t.statement.render d
  return [Piece.name t.name] ++ columns ++ Sql.text (" AS " ++ t.materialization.keyword)
    ++ Sql.parenthesized body

def CommonTable.write (d : Dialect) (t : CommonTable) : Written := do
  checkName .commonTable t.name
  (t.columns.forM (checkName .commonTable) : Except SqlError Unit)
  let columns :=
    if t.columns.isEmpty then ""
    else "(" ++ String.intercalate "," (t.columns.map d.quoteIdentifier) ++ ")"
  let body ← t.statement.write d
  return d.quoteIdentifier t.name ++ columns ++ " AS " ++ t.materialization.keyword
    ++ "(" ++ body ++ ")"

/-- A `WITH` statement that is being built. -/
structure With where
  dialect : Dialect
  recursive : Bool := false
  tables : List CommonTable := []
  statement : Option Statement := none

/-- A step in building a `WITH` statement. -/
inductive WithCall where
  | recursive (b : Bool)
  | table (table : CommonTable)
  /-- A table that is the union of a base and a step, which may refer to the table. -/
  | recursiveTable (name : String) (base step : Statement) (kind : UnionKind)
  | statement (s : Statement)

namespace With

def apply (s : With) : WithCall → With
  | .recursive b => { s with recursive := b }
  | .table table => { s with tables := s.tables ++ [table] }
  | .recursiveTable name base step kind =>
    let body := Select.build s.dialect [.union base.asMember kind, .union step.asMember kind]
    { s with recursive := true, tables := s.tables ++ [{ name, statement := .select body }] }
  | .statement statement => { s with statement := some statement }

/-- The statement after a sequence of calls. -/
def build (dialect : Dialect) (calls : List WithCall) : With := calls.foldl apply { dialect }

/-- The SQL of a `WITH` statement: the tables in order, then the last statement. -/
def render (d : Dialect) (s : With) : Rendered := do
  if s.tables.isEmpty then throw .withoutCommonTables
  let some statement := s.statement | throw .withoutTerminalStatement
  let tables ← s.tables.mapM (CommonTable.render d)
  let body ← statement.render d
  return Sql.text (if s.recursive then "WITH RECURSIVE " else "WITH ") ++ Sql.join "," tables
    ++ Sql.text " " ++ body

def write (d : Dialect) (s : With) : Written := do
  if s.tables.isEmpty then throw .withoutCommonTables
  let some statement := s.statement | throw .withoutTerminalStatement
  let tables ← s.tables.mapM (CommonTable.write d)
  let body ← statement.write d
  return (if s.recursive then "WITH RECURSIVE " else "WITH ") ++ String.intercalate "," tables
    ++ " " ++ body

end With

/-! ### Commands -/

/-- A statement that can be assembled on its own. -/
inductive Command where
  | select (s : Select Query)
  | insert (s : Insert Query)
  | update (s : Update Query)
  | delete (s : Delete Query)
  | commonTables (s : With)

/-- Assembled SQL: a text and the values of its placeholders, from left to right. -/
structure Assembled where
  sql : String
  values : List Value

namespace Command

/-- The kind of a command. -/
def kind : Command → StatementKind
  | select _ => .select
  | insert _ => .insert
  | update _ => .update
  | delete _ => .delete
  | commonTables _ => .commonTables

/-- The dialect that a command is assembled in. -/
def dialect : Command → Dialect
  | select s => s.dialect
  | insert s => s.dialect
  | update s => s.dialect
  | delete s => s.dialect
  | commonTables s => s.dialect

/-- The SQL of a command. -/
def render (d : Dialect) : Command → Rendered
  | select s => (Statement.select s).render d
  | insert s => (Statement.insert s).render d
  | update s => (Statement.update s).render d
  | delete s => (Statement.delete s).render d
  | commonTables s => s.render d

def write (d : Dialect) : Command → Written
  | select s => (Statement.select s).write d
  | insert s => (Statement.insert s).write d
  | update s => (Statement.update s).write d
  | delete s => (Statement.delete s).write d
  | commonTables s => s.write d

/-- Write into a context that may hold values already; the placeholders go on from there. -/
def writeInto (c : Command) (context : Context) : Except SqlError (String × Context) :=
  context.write c.write

/-- The text of a command in its own dialect, and its values. -/
def assemble (c : Command) : Except SqlError Assembled :=
  (c.writeInto { dialect := c.dialect }).map fun (text, context) => ⟨text, context.values⟩

end Command

/-- The text of a condition in a context that may hold values already, and all values. -/
def Condition.assemble (context : Context) (owner : Option RecordType) (c : Condition Query) :
    Except SqlError Assembled :=
  (context.write fun d => (c.map (Query.write d)).write d owner).map
    fun (text, context) => ⟨text, context.values⟩

end SqlAssembly
