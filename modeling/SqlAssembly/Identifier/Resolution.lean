import SqlAssembly.Sql

/-!
# Resolution of identifiers

What an identifier means depends on where it stands: as a table, as a column, or as the qualifier of
a column. Each reading checks the names it uses and translates the attributes of records to columns.
-/

namespace SqlAssembly

/-- Refuse a name that is empty or holds a NUL. -/
def checkName (role : NameRole) (name : String) : Except SqlError Unit :=
  if name.isEmpty then .error (.emptyName role)
  else if name.toList.contains '\x00' then .error (.nulInName role)
  else .ok ()

/-- The column that a name stands for in a record, or the error that there is none. -/
def RecordType.column (r : RecordType) (name : String) : Except SqlError String :=
  match r.column? name with
  | some column => .ok column
  | none => .error (.unknownAttribute name r.table)

/-! ### As a table -/

/-- A table as a source: schema, name or raw SQL, and alias. -/
structure TableRef where
  schema : Option String
  table : SqlName
  alias? : Option String
  deriving DecidableEq

namespace TableRef

/-- The name that columns of the table are qualified with; raw SQL has none but its alias. -/
def qualifier? (t : TableRef) : Option String :=
  match t.alias?, t.table with
  | some aliasName, _ => some aliasName
  | none, .name name => some name
  | none, .raw _ => none

/-- The table under its alias. -/
def sql (t : TableRef) : Sql := tableSql t.table t.schema ++ aliasSql t.alias?

end TableRef

/-- Read an identifier as a table. The schema is that of a plain name; a record has its own, and
takes this one only where it has none. -/
def Identifier.asTable (schema : Option String) : Identifier → Except SqlError TableRef
  | .record t => do
    if let some aliasName := t.alias? then checkName .aliasName aliasName
    return { schema := t.type.schema.or schema, table := .name t.type.table, alias? := t.alias? }
  | .aliased base aliasName => do
    checkName .aliasName aliasName
    let t ← base.asTable schema
    return { t with alias? := some aliasName }
  | .literal sql => return { schema := none, table := .raw sql, alias? := none }
  | .name s => do
    checkName .table s
    if let some schema := schema then checkName .schema schema
    return { schema := schema, table := .name s, alias? := none }

/-! ### As a column -/

/-- Read an identifier as a column, with the alias it carries. A plain name other than `*` is
translated by the record that owns the column, if there is one. -/
def Identifier.asColumn (owner : Option RecordType) :
    Identifier → Except SqlError (SqlName × Option String)
  | .record t => throw (.recordAsColumn t.type.table)
  | .aliased base aliasName => do
    checkName .aliasName aliasName
    let (column, _) ← base.asColumn owner
    return (column, some aliasName)
  | .literal sql => return (.raw sql, none)
  | .name s => do
    checkName .column s
    match owner with
    | some r => if s = "*" then return (.name s, none) else return (.name (← r.column s), none)
    | none => return (.name s, none)

/-- The column that a plain name stands for under an owner. -/
def columnName (owner : Option RecordType) (name : String) : Except SqlError String := do
  match ← (Identifier.name name).asColumn owner with
  | (.name column, _) => return column
  | (.raw sql, _) => return sql

/-! ### As a qualifier -/

/-- What qualifies a column: a name, a schema before it, and the record that translates
attributes. -/
structure Qualifier where
  name : String
  schema : Option String
  record : Option RecordType
  deriving DecidableEq

/-- Read an identifier as a qualifier. Only a record without an alias brings its schema. -/
def Identifier.asQualifier : Identifier → Except SqlError Qualifier
  | .name s => do
    checkName .table s
    return ⟨s, none, none⟩
  | .aliased base aliasName => do
    checkName .aliasName aliasName
    return ⟨aliasName, none, base.recordType?⟩
  | .record t =>
    let schema := match t.alias? with
      | some _ => none
      | none => t.type.schema
    return ⟨t.qualifier, schema, some t.type⟩
  | .literal sql => throw (.literalQualifier sql)

/-! ### Fields -/

/-- A field that is resolved. -/
structure FieldRef where
  name : SqlName
  alias? : Option String
  table : Option String
  schema : Option String
  deriving DecidableEq

/-- The text of the field, behind its table and followed by its alias. -/
def FieldRef.sql (f : FieldRef) : Rendered :=
  columnSql f.name (f.alias?.map .aliased) f.table f.schema

/-- Resolve a field in a statement on the given record: an unqualified name is an attribute of it,
and a qualified one an attribute of the record that qualifies it. -/
def Field.resolve (owner : Option RecordType) (f : Field) : Except SqlError FieldRef := do
  match f.table with
  | some table =>
    let q ← table.asQualifier
    let (name, alias?) ← f.name.asColumn q.record
    return { name, alias?, table := some q.name, schema := q.schema }
  | none =>
    let (name, alias?) ← f.name.asColumn owner
    return { name, alias?, table := none, schema := none }

/-- The text of a field in a statement on the given record. -/
def Field.sql (owner : Option RecordType) (f : Field) : Rendered := do
  (← f.resolve owner).sql

/-! ### Columns of a select list -/

/-- The text of a column: a name of the given owner behind the given table, cast and aliased. The
column's own alias overrides the one of its identifier. -/
def Column.sql (owner : Option RecordType) (table schema : Option String) (c : Column) :
    Rendered := do
  let (name, identAlias) ← c.name.asColumn owner
  let alias? := c.alias?.or identAlias
  if let some aliasName := alias? then checkName .aliasName aliasName
  columnSql name (ColumnForm.of c.cast alias?) table schema

/-- The columns after `RETURNING`, not qualified; `*` if none are listed. -/
def Columns.returningSql (owner : Option RecordType) (cs : Columns) : Rendered :=
  match cs.listed with
  | [] => .ok (Sql.text "*")
  | columns => do return Sql.join ", " (← columns.mapM (Column.sql owner none none))

/-- The `RETURNING` clause behind a blank, if there is one. -/
def returningClause (owner : Option RecordType) : Option Columns → Rendered
  | none => return []
  | some columns => do return Sql.text " RETURNING " ++ (← columns.returningSql owner)

end SqlAssembly
