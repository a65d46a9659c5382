import SqlAssembly.Record

/-!
# Identifiers

The names that statements are built from, as they are given and before anything is looked up:
identifiers for tables, columns and qualifiers, fields that may be qualified, and the columns of a
select list.
-/

namespace SqlAssembly

/-- The name of a table, a column or a qualifier. -/
inductive Identifier where
  /-- A plain name. -/
  | name (s : String)
  /-- An identifier under an alias. -/
  | aliased (base : Identifier) (aliasName : String)
  /-- Raw SQL, written as it stands. -/
  | literal (sql : String)
  /-- The table of a record type. -/
  | record (table : RecordTable)
  deriving DecidableEq

/-- The record type behind an identifier, seen through aliases. -/
def Identifier.recordType? : Identifier → Option RecordType
  | .record t => some t.type
  | .aliased base _ => base.recordType?
  | .name _ | .literal _ => none

/-- A reference to a column, qualified by a table or not. -/
structure Field where
  table : Option Identifier := none
  name : Identifier
  deriving DecidableEq

namespace Field

/-- The field qualified by a table, in place of any other. -/
def of (f : Field) (table : Identifier) : Field := { f with table := some table }

/-- The field of a record's table that an attribute names. -/
def ofAttribute (table : RecordTable) (attr : String) : Field :=
  { table := some (.record table), name := .name attr }

end Field

/-- An entry of a select list. -/
structure Column where
  name : Identifier
  alias? : Option String := none
  /-- The type that the column is cast to. -/
  cast : Option String := none
  deriving DecidableEq

/-- The columns taken from one source. -/
inductive Columns where
  | all
  | list (columns : List Column)
  deriving DecidableEq

/-- The columns that are listed. None are listed for all of them, and an empty list means the
same. -/
def Columns.listed : Columns → List Column
  | .all => []
  | .list columns => columns

@[simp] theorem Columns.listed_all : Columns.all.listed = [] := rfl

@[simp] theorem Columns.listed_list (cs : List Column) : (Columns.list cs).listed = cs := rfl

end SqlAssembly
