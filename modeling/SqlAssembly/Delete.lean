import SqlAssembly.Condition.Render
import SqlAssembly.Select.Basic

/-!
# Delete statements

A table, a condition and the columns to return.
-/

namespace SqlAssembly

variable {σ τ : Type}

/-- A delete that is being built. -/
structure Delete (σ : Type) where
  dialect : Dialect
  target : Option (Source σ) := none
  filter : Condition σ := { style := .bare }
  returning : Option Columns := none

/-- A step in building a delete. -/
inductive DeleteCall (σ : Type) where
  | target (source : Source σ)
  | filter (call : ConditionCall σ)
  | returning (columns : Columns)

namespace Delete

def apply (s : Delete σ) : DeleteCall σ → Delete σ
  | .target source => { s with target := some source }
  | .filter call => { s with filter := s.filter.apply call }
  | .returning columns => { s with returning := some columns }

/-- The delete after a sequence of calls. -/
def build (dialect : Dialect) (calls : List (DeleteCall σ)) : Delete σ :=
  calls.foldl apply { dialect }

def map (f : σ → τ) (s : Delete σ) : Delete τ :=
  { dialect := s.dialect
    target := s.target.map (Source.map f)
    filter := s.filter.map f
    returning := s.returning }

/-- The SQL of a delete whose queries are rendered. -/
def render (d : Dialect) (s : Delete Rendered) : Rendered := do
  s.filter.check
  let some source := s.target | throw (.missingTarget .delete)
  let target ← source.asTarget .delete
  let owner := source.recordType?
  let filter ← s.filter.renderClause " WHERE" d owner
  let returning ← returningClause owner s.returning
  return Sql.text "DELETE FROM " ++ target.sql ++ filter ++ returning

def write (d : Dialect) (s : Delete Written) : Written := do
  s.filter.check
  let some source := s.target | throw (.missingTarget .delete)
  let target ← source.asTarget .delete
  let owner := source.recordType?
  let filter ← s.filter.writeClause " WHERE" d owner
  let returning ← Writer.plain d (returningClause owner s.returning)
  return "DELETE FROM " ++ d.spell target.sql ++ filter ++ returning

end Delete

end SqlAssembly
