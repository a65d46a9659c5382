import SqlAssembly.Identifier.Resolution
import SqlAssembly.Writer

/-!
# Operands

The right-hand side of a predicate and the value given to a column. The type of the queries that
stand as operands is a parameter: a query while a statement is built, its writer while the statement
is written, and its SQL in pieces where the text does not matter.
-/

namespace SqlAssembly

variable {σ τ : Type}

/-- The right-hand side of a predicate, or the value of a column. -/
inductive Operand (σ : Type) where
  /-- No value at all. -/
  | absent
  /-- A value bound to one placeholder. -/
  | value (v : Value)
  /-- Raw SQL. -/
  | literal (sql : String)
  /-- Another column. -/
  | field (f : Field)
  /-- A query in parentheses. -/
  | subquery (query : σ)

namespace Operand

def map (f : σ → τ) : Operand σ → Operand τ
  | absent => absent
  | value v => value v
  | literal sql => literal sql
  | field g => field g
  | subquery query => subquery (f query)

/-- The queries in an operand. -/
def queries : Operand σ → List σ
  | subquery query => [query]
  | _ => []

/-- The SQL of an operand; none for an absent one. An unqualified field belongs to the owner. -/
def render (owner : Option RecordType) : Operand Rendered → Except SqlError (Option Sql)
  | absent => return none
  | value v => return some [.param v]
  | literal sql => return some (Sql.text sql)
  | field f => return some (← f.sql owner)
  | subquery query => return some (Sql.parenthesized (← query))

/-- Write an operand; an absent one has no text. -/
def write (d : Dialect) (owner : Option RecordType) : Operand Written → Writer (Option String)
  | absent => return none
  | value v => return some (← Writer.param d v)
  | literal sql => return some sql
  | field f => return some (← Writer.plain d (f.sql owner))
  | subquery query => return some ("(" ++ (← query) ++ ")")

end Operand

/-- A column and the value given to it. -/
structure Assignment (σ : Type) where
  name : String
  operand : Operand σ

def Assignment.map (f : σ → τ) (a : Assignment σ) : Assignment τ := ⟨a.name, a.operand.map f⟩

/-- The operands of assignments, under the columns that the names stand for. -/
def Assignment.resolveAll (owner : Option RecordType) (assignments : List (Assignment σ)) :
    Except SqlError (List (String × Operand σ)) :=
  assignments.mapM fun a => do return (← columnName owner a.name, a.operand)

end SqlAssembly
