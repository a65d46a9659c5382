import SqlAssembly.OrderedMap

/-!
# Record types

A record type names a table and maps the attributes of a record to the table's columns. Statements
take attribute names where they take column names, and a column name stands for itself: the first
attribute of a given name decides, and only if there is none the first column.
-/

namespace SqlAssembly

/-- A table, its schema and primary key, and the columns of its attributes in declaration order. -/
structure RecordType where
  table : String
  schema : Option String := none
  primaryKey : Option String := none
  /-- From attribute to column. -/
  fields : OrderedMap String := .empty
  deriving DecidableEq

namespace RecordType

/-- Map an attribute to a column. An attribute that is declared again keeps its place. -/
def declare (r : RecordType) (attr column : String) : RecordType :=
  { r with fields := r.fields.put attr column }

/-- The attributes with their columns, in declaration order. -/
def pairs (r : RecordType) : List (String × String) := r.fields.entries

/-- The columns, in declaration order. -/
def columns (r : RecordType) : List String := r.fields.values

/-- The column that a name stands for, as an attribute or else as a column. -/
def column? (r : RecordType) (name : String) : Option String :=
  ((r.pairs.find? fun p => p.1 == name).or (r.pairs.find? fun p => p.2 == name)).map Prod.snd

/-- The attribute that a name selects: that of the first field of which it is the attribute or the
column. -/
def attribute? (r : RecordType) (name : String) : Option String :=
  (r.pairs.find? fun p => p.1 == name || p.2 == name).map Prod.fst

end RecordType

/-- A record type used as a table, under an alias or under its own name. -/
structure RecordTable where
  type : RecordType
  alias? : Option String := none
  deriving DecidableEq

/-- The name that columns of the table are qualified with. -/
def RecordTable.qualifier (t : RecordTable) : String := t.alias?.getD t.type.table

end SqlAssembly
