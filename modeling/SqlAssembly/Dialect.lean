import SqlAssembly.Error
import SqlAssembly.Text.Blank

/-!
# Dialects

A dialect spells what a statement leaves open: how a name is quoted, how a cast is written, what
stands for a parameter, and whether predicates may use `ILIKE`. How a table and a column are put
together from their names is not open: it is the same for every dialect (`Dialect.quoteTable`,
`Dialect.quoteColumn`). An engine that needs another form for either as a whole is not described by
a `Dialect`.

| dialect    | placeholder | cast           | `ILIKE` |
|------------|-------------|----------------|---------|
| `generic`  | `?`         | `CAST(x AS t)` | yes     |
| `sqlite`   | `?`         | `CAST(x AS t)` | no      |
| `postgres` | `$1`, `$2`  | `x::t`         | yes     |
-/

namespace SqlAssembly

/-! ### Spelling rules -/

/-- A name between double quotes, the quotes inside it doubled. -/
def doubleQuoted (name : String) : String :=
  String.ofList ('"' :: name.toList.flatMap (fun c => if c = '"' then ['"', '"'] else [c]) ++ ['"'])

/-- The cast of standard SQL. -/
def standardCast (expr type : String) : String := "CAST(" ++ expr ++ " AS " ++ type ++ ")"

/-- The spelling rules of an engine. -/
structure Dialect where
  name : String
  /-- What stands for the parameter of a given number, counted from one. -/
  placeholder : Nat → String
  supportsIlike : Bool := true
  quoteIdentifier : String → String := doubleQuoted
  /-- The cast of an expression to a type. -/
  cast : String → String → String := standardCast

namespace Dialect

/-- Neutral rules. -/
def generic : Dialect := { name := "generic", placeholder := fun _ => "?" }

/-- The rules of SQLite. -/
def sqlite : Dialect := { name := "sqlite", placeholder := fun _ => "?", supportsIlike := false }

/-- The rules of PostgreSQL. -/
def postgres : Dialect :=
  { name := "postgres"
    placeholder := fun index => "$" ++ toString index
    cast := fun expr type => expr ++ "::" ++ type }

instance : Inhabited Dialect := ⟨generic⟩

end Dialect

/-! ### Selection by name -/

/-- The dialects that can be chosen by name. -/
inductive BuiltinDialect where
  | generic
  | sqlite
  | postgres
  deriving DecidableEq, Repr, Inhabited

namespace BuiltinDialect

/-- The rules of the dialect. -/
def dialect : BuiltinDialect → Dialect
  | generic => .generic
  | sqlite => .sqlite
  | postgres => .postgres

/-- The name that the dialect is saved under. -/
def name : BuiltinDialect → String
  | generic => "generic"
  | sqlite => "sqlite"
  | postgres => "postgres"

/-- The dialect of an exact name; PostgreSQL has two more. -/
def ofName? (s : String) : Option BuiltinDialect :=
  if s = "generic" then some generic
  else if s = "sqlite" then some sqlite
  else if s = "postgres" ∨ s = "postgresql" ∨ s = "pg" then some postgres
  else none

/-- The dialect of a name in any ASCII case, blanks around it ignored. -/
def parse (s : String) : Except SqlError BuiltinDialect :=
  let name := Text.lowered (Text.trim s)
  match ofName? name with
  | some d => .ok d
  | none => .error (.unknownDialect name)

@[simp] theorem ofName?_name (d : BuiltinDialect) : ofName? d.name = some d := by
  cases d <;> rfl

@[simp] theorem dialect_name (d : BuiltinDialect) : d.dialect.name = d.name := by
  cases d <;> rfl

end BuiltinDialect

end SqlAssembly
