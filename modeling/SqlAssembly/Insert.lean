import SqlAssembly.RecordInstance
import SqlAssembly.Select.Basic

/-!
# Insert statements

Rows are given by position or by name. The columns are those of the field list or, if it is empty,
those of the first row by name; every row must give each column exactly one value, and is written in
the order of the columns.
-/

namespace SqlAssembly

variable {σ τ : Type}

/-- A row of values. -/
inductive Row (σ : Type) where
  /-- Values in the order of the fields. -/
  | positional (values : List (Operand σ))
  /-- Values by field name. -/
  | named (values : List (Assignment σ))

namespace Row

def map (f : σ → τ) : Row σ → Row τ
  | positional values => positional (values.map (Operand.map f))
  | named values => named (values.map (Assignment.map f))

/-- The values of a row by name. -/
def named? : Row σ → Option (List (Assignment σ))
  | named values => some values
  | positional _ => none

end Row

/-! ### Building -/

/-- An insert that is being built. -/
structure Insert (σ : Type) where
  dialect : Dialect
  target : Option (Source σ) := none
  /-- Field names; those of a record's attributes are translated. -/
  fields : List String := []
  rows : List (Row σ) := []
  returning : Option Columns := none
  /-- The error of the first row that brought one. -/
  deferred : Option SqlError := none

/-- A step in building an insert. -/
inductive InsertCall (σ : Type) where
  | target (source : Source σ)
  | fields (names : List String)
  | row (row : Row σ)
  | record (row : RecordRow)
  | returning (columns : Columns)

namespace Insert

/-- Add the row of a record, whose table is the target unless there is one. -/
def addRecord (s : Insert σ) (r : RecordRow) : Insert σ :=
  { s with
    deferred := s.deferred.or r.error
    target := s.target.or (some (.table (.record { type := r.type }) none))
    rows := s.rows ++ [.named (r.columnValues.map fun p => ⟨p.1, .value p.2⟩)] }

def apply (s : Insert σ) : InsertCall σ → Insert σ
  | .target source => { s with target := some source }
  | .fields names => { s with fields := names }
  | .row row => { s with rows := s.rows ++ [row] }
  | .record row => s.addRecord row
  | .returning columns => { s with returning := some columns }

/-- The insert after a sequence of calls. -/
def build (dialect : Dialect) (calls : List (InsertCall σ)) : Insert σ :=
  calls.foldl apply { dialect }

def map (f : σ → τ) (s : Insert σ) : Insert τ :=
  { dialect := s.dialect
    target := s.target.map (Source.map f)
    fields := s.fields
    rows := s.rows.map (Row.map f)
    returning := s.returning
    deferred := s.deferred }

/-! ### Rows in order -/

/-- The first name that stood before. -/
def firstRepeated? (seen : List String) : List String → Option String
  | [] => none
  | c :: cs => if c ∈ seen then some c else firstRepeated? (c :: seen) cs

/-- The columns that are given: those of the field list or, if it is empty, of the first row by
name. -/
def givenColumns (owner : Option RecordType) (s : Insert σ) : Except SqlError (List String) :=
  if s.fields.isEmpty then
    ((s.rows.findSome? Row.named?).getD []).mapM fun a => columnName owner a.name
  else s.fields.mapM (columnName owner)

/-- The columns of the insert. There is at least one, and none is repeated. -/
def columns (owner : Option RecordType) (s : Insert σ) : Except SqlError (List String) := do
  let columns ← s.givenColumns owner
  if columns.isEmpty then throw .insertWithoutFields
  if let some column := firstRepeated? [] columns then throw (.repeatedInsertField column)
  return columns

/-- The operand under a column: the first one. The number of the row is for errors. -/
def operandFor (number : Nat) (row : List (String × Operand σ)) (column : String) :
    Except SqlError (Operand σ) :=
  match row.find? fun p => p.1 == column with
  | some p => .ok p.2
  | none => .error (.insertValueMissing number column)

/-- The operands of a row in the order of the columns. -/
def orderRow (owner : Option RecordType) (columns : List String) (number : Nat) :
    Row σ → Except SqlError (List (Operand σ))
  | .positional values =>
    if values.length = columns.length then return values
    else throw (.insertRowLength number values.length columns.length)
  | .named values => do
    let row ← Assignment.resolveAll owner values
    if row.length ≠ columns.length then
      throw (.insertRowLength number row.length columns.length)
    columns.mapM (operandFor number row)

/-- The operands of all rows, the rows being counted from the given number. -/
def orderRows (owner : Option RecordType) (columns : List String) (number : Nat) :
    List (Row σ) → Except SqlError (List (List (Operand σ)))
  | [] => return []
  | r :: rs => do
    let first ← orderRow owner columns number r
    return first :: (← orderRows owner columns (number + 1) rs)

/-! ### Rendering -/

/-- The values of a row; each column needs one. -/
def valuesSql (owner : Option RecordType) (number : Nat) :
    List String → List (Operand Rendered) → Except SqlError (List Sql)
  | column :: columns, operand :: operands => do
    match ← operand.render owner with
    | none => throw (.insertValueMissing number column)
    | some sql => return sql :: (← valuesSql owner number columns operands)
  | _, _ => return []

/-- All rows, counted from the given number. -/
def rowsSql (owner : Option RecordType) (columns : List String) (number : Nat) :
    List (List (Operand Rendered)) → Except SqlError (List Sql)
  | [] => return []
  | r :: rs => do
    let first ← valuesSql owner number columns r
    return Sql.parenthesized (Sql.join ", " first) :: (← rowsSql owner columns (number + 1) rs)

/-- The SQL of an insert whose queries are rendered. -/
def render (s : Insert Rendered) : Rendered := do
  if let some e := s.deferred then throw e
  let some source := s.target | throw (.missingTarget .insert)
  let target ← source.asTarget .insert
  let owner := source.recordType?
  if s.rows.isEmpty then throw .insertWithoutRows
  let columns ← s.columns owner
  let rows ← rowsSql owner columns 1 (← orderRows owner columns 1 s.rows)
  let returning ← returningClause owner s.returning
  return Sql.text "INSERT INTO " ++ target.sql ++ Sql.text " ("
    ++ Sql.join ", " (columns.map fun c => [Piece.name c]) ++ Sql.text ") VALUES "
    ++ Sql.join ", " rows ++ returning

/-! ### Writing -/

/-- Write the values of a row; each column needs one. -/
def writeValues (d : Dialect) (owner : Option RecordType) (number : Nat) :
    List String → List (Operand Written) → Writer (List String)
  | column :: columns, operand :: operands => do
    match ← operand.write d owner with
    | none => throw (.insertValueMissing number column)
    | some text => return text :: (← writeValues d owner number columns operands)
  | _, _ => return []

/-- Write all rows, counted from the given number. -/
def writeRows (d : Dialect) (owner : Option RecordType) (columns : List String) (number : Nat) :
    List (List (Operand Written)) → Writer (List String)
  | [] => return []
  | r :: rs => do
    let first ← writeValues d owner number columns r
    return ("(" ++ String.intercalate ", " first ++ ")")
      :: (← writeRows d owner columns (number + 1) rs)

def write (d : Dialect) (s : Insert Written) : Written := do
  if let some e := s.deferred then throw e
  let some source := s.target | throw (.missingTarget .insert)
  let target ← source.asTarget .insert
  let owner := source.recordType?
  if s.rows.isEmpty then throw .insertWithoutRows
  let columns ← s.columns owner
  let rows ← writeRows d owner columns 1 (← orderRows owner columns 1 s.rows)
  let returning ← Writer.plain d (returningClause owner s.returning)
  return "INSERT INTO " ++ d.spell target.sql ++ " ("
    ++ String.intercalate ", " (columns.map d.quoteIdentifier) ++ ") VALUES "
    ++ String.intercalate ", " rows ++ returning

end Insert

end SqlAssembly
