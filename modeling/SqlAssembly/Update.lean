import SqlAssembly.Condition.Render
import SqlAssembly.RecordInstance
import SqlAssembly.Select.Basic

/-!
# Update statements

Values by position are matched to the field list and come first; assignments by name follow in call
order. Each column is assigned once: in the place of its first assignment, with the value of its
last.
-/

namespace SqlAssembly

variable {σ τ : Type}

/-! ### Building -/

/-- An update that is being built. -/
structure Update (σ : Type) where
  dialect : Dialect
  target : Option (Source σ) := none
  /-- The names of the fields that values by position are for. -/
  fields : List String := []
  positional : Option (List (Operand σ)) := none
  assignments : List (Assignment σ) := []
  filter : Condition σ := { style := .bare }
  returning : Option Columns := none
  /-- The error of the first record that brought one. -/
  deferred : Option SqlError := none

/-- A step in building an update. -/
inductive UpdateCall (σ : Type) where
  | target (source : Source σ)
  | fields (names : List String)
  /-- Values in the order of the fields, in place of earlier ones. -/
  | values (operands : List (Operand σ))
  | assign (assignments : List (Assignment σ))
  /-- An assignment that is left out if there is no operand. -/
  | assignIf (name : String) (operand? : Option (Operand σ))
  | record (row : RecordRow)
  | filter (call : ConditionCall σ)
  | returning (columns : Columns)

namespace Update

/-- Assign the values of a record, whose table is the target unless there is one. -/
def addRecord (s : Update σ) (r : RecordRow) : Update σ :=
  { s with
    deferred := s.deferred.or r.error
    target := s.target.or (some (.table (.record { type := r.type }) none))
    assignments := s.assignments ++ r.columnValues.map fun p => ⟨p.1, .value p.2⟩ }

def apply (s : Update σ) : UpdateCall σ → Update σ
  | .target source => { s with target := some source }
  | .fields names => { s with fields := names }
  | .values operands => { s with positional := some operands }
  | .assign assignments => { s with assignments := s.assignments ++ assignments }
  | .assignIf name operand? =>
    { s with assignments := s.assignments ++ operand?.toList.map (Assignment.mk name) }
  | .record row => s.addRecord row
  | .filter call => { s with filter := s.filter.apply call }
  | .returning columns => { s with returning := some columns }

/-- The update after a sequence of calls. -/
def build (dialect : Dialect) (calls : List (UpdateCall σ)) : Update σ :=
  calls.foldl apply { dialect }

def map (f : σ → τ) (s : Update σ) : Update τ :=
  { dialect := s.dialect
    target := s.target.map (Source.map f)
    fields := s.fields
    positional := s.positional.map (List.map (Operand.map f))
    assignments := s.assignments.map (Assignment.map f)
    filter := s.filter.map f
    returning := s.returning
    deferred := s.deferred }

/-! ### Assignments -/

/-- Values by position, as assignments to the fields. -/
def positionalAssignments (s : Update σ) : Except SqlError (List (Assignment σ)) :=
  match s.positional with
  | none => return []
  | some operands =>
    if operands.length = s.fields.length then
      return s.fields.zipWith (fun name operand => ⟨name, operand⟩) operands
    else throw (.updateLength operands.length s.fields.length)

/-- What the update assigns, the last assignment to a column winning and the first giving its
place. There is at least one assignment. -/
def merged (owner : Option RecordType) (s : Update σ) :
    Except SqlError (OrderedMap (Operand σ)) := do
  let positional ← s.positionalAssignments
  let m := OrderedMap.ofEntries (← Assignment.resolveAll owner (positional ++ s.assignments))
  if m.entries.isEmpty then throw .updateWithoutAssignments
  return m

/-! ### Rendering -/

/-- A column and its value, which may not be absent. -/
def assignmentSql (owner : Option RecordType) (column : String) (operand : Operand Rendered) :
    Rendered := do
  match ← operand.render owner with
  | none => throw (.updateValueMissing column)
  | some sql => return [.name column, .text "="] ++ sql

/-- The SQL of an update whose queries are rendered. -/
def render (d : Dialect) (s : Update Rendered) : Rendered := do
  if let some e := s.deferred then throw e
  s.filter.check
  let some source := s.target | throw (.missingTarget .update)
  let target ← source.asTarget .update
  let owner := source.recordType?
  let m ← s.merged owner
  let assignments ← m.entries.mapM fun e => assignmentSql owner e.1 e.2
  let filter ← s.filter.renderClause " WHERE" d owner
  let returning ← returningClause owner s.returning
  return Sql.text "UPDATE " ++ target.sql ++ Sql.text " SET " ++ Sql.join ", " assignments
    ++ filter ++ returning

/-! ### Writing -/

/-- Write a column and its value, which may not be absent. -/
def writeAssignment (d : Dialect) (owner : Option RecordType) (column : String)
    (operand : Operand Written) : Written := do
  match ← operand.write d owner with
  | none => throw (.updateValueMissing column)
  | some text => return d.quoteIdentifier column ++ "=" ++ text

def write (d : Dialect) (s : Update Written) : Written := do
  if let some e := s.deferred then throw e
  s.filter.check
  let some source := s.target | throw (.missingTarget .update)
  let target ← source.asTarget .update
  let owner := source.recordType?
  let m ← s.merged owner
  let assignments ← m.entries.mapM fun e => writeAssignment d owner e.1 e.2
  let filter ← s.filter.writeClause " WHERE" d owner
  let returning ← Writer.plain d (returningClause owner s.returning)
  return "UPDATE " ++ d.spell target.sql ++ " SET " ++ String.intercalate ", " assignments
    ++ filter ++ returning

end Update

end SqlAssembly
