import SqlAssembly.Error
import SqlAssembly.Value.Json

/-!
# Record instances

An instance of a record type holds values for some of its attributes. Statements take an instance as
a `RecordRow`: the values of the attributes that are set, in the order in which the record type
declares them. A `RecordRow` chooses the values but not that order, nor the columns, which are those
of its type.
-/

namespace SqlAssembly

/-! ### Rows -/

/-- A row for the table of a record type: a value for each attribute that is set, and an error if
one was met while the row was filled. -/
structure RecordRow where
  type : RecordType
  value? : String → Option Value
  error : Option SqlError := none

/-- The columns of the attributes that are set, with their values, in declaration order. -/
def RecordRow.columnValues (r : RecordRow) : List (String × Value) :=
  r.type.pairs.filterMap fun p => (r.value? p.1).map fun v => (p.2, v)

/-! ### Instances -/

/-- A record type with values for some of its attributes. -/
structure RecordInstance where
  type : RecordType
  /-- From attribute to value. -/
  values : OrderedMap Value := .empty
  /-- The first unknown name that was set. -/
  error : Option SqlError := none

namespace RecordInstance

/-- Set the attribute that a name selects, or report that it selects none. -/
def set? (r : RecordInstance) (name : String) (v : Value) : Except SqlError RecordInstance :=
  match r.type.attribute? name with
  | some attr => .ok { r with values := r.values.put attr v }
  | none => .error (.unknownAttribute name r.type.table)

/-- Set the attribute that a name selects. If it selects none the values stay, and the error is kept
unless there is one already. -/
def set (r : RecordInstance) (name : String) (v : Value) : RecordInstance :=
  match r.set? name v with
  | .ok r => r
  | .error e => { r with error := r.error.or (some e) }

/-- Set names to values, one after the other, up to the first that selects no attribute. -/
def setAll? (r : RecordInstance) (members : List (String × Value)) :
    Except SqlError RecordInstance :=
  members.foldlM (fun r m => r.set? m.1 m.2) r

/-- The instance with the values of an object's members. -/
def ofMembers (type : RecordType) (members : List (String × Json)) :
    Except SqlError RecordInstance :=
  setAll? { type } (members.map fun m => (m.1, Value.ofJson m.2))

/-- The instance as a row. -/
def row (r : RecordInstance) : RecordRow :=
  { type := r.type, value? := r.values.get?, error := r.error }

end RecordInstance

end SqlAssembly
