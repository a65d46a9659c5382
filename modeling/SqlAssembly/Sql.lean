import SqlAssembly.Dialect
import SqlAssembly.Value.Basic

/-!
# SQL in pieces

A list of pieces is SQL that is not spelled yet: literal text, names to be quoted, column
expressions and bound values. `Sql.spell` is its text in a dialect, the placeholders being numbered
behind the values that are bound already, and `Sql.values` are the values that it binds itself.
-/

namespace SqlAssembly

/-! ### Pieces -/

/-- A name to be quoted, or raw SQL. -/
inductive SqlName where
  | name (s : String)
  | raw (sql : String)
  deriving DecidableEq

/-- A column before any cast: raw SQL, or a name behind the names that qualify it. -/
inductive ColumnExpr where
  | raw (sql : String)
  | path (qualifiers : List String) (name : String)
  deriving DecidableEq

/-- A piece of SQL. -/
inductive Piece where
  /-- Text that is written as it stands. -/
  | text (s : String)
  /-- A name to be quoted. -/
  | name (s : String)
  /-- A column, cast to a type or not. -/
  | column (expr : ColumnExpr) (cast : Option String)
  /-- A bound value. -/
  | param (v : Value)

/-- SQL that is not spelled yet. -/
abbrev Sql := List Piece

/-- The outcome of rendering. -/
abbrev Rendered := Except SqlError Sql

/-- The values that a piece binds. -/
def Piece.values : Piece → List Value
  | param v => [v]
  | _ => []

namespace Sql

/-- Literal text. -/
def text (s : String) : Sql := [.text s]

/-- The values that the SQL binds, in the order of their placeholders. -/
def values (sql : Sql) : List Value := sql.flatMap Piece.values

/-- Parts with a separator between them. -/
def join (separator : String) (parts : List Sql) : Sql := (text separator).intercalate parts

/-- SQL between two marks. -/
def enclosed (marks : String × String) (sql : Sql) : Sql := text marks.1 ++ sql ++ text marks.2

/-- SQL in parentheses. -/
def parenthesized (sql : Sql) : Sql := text "(" ++ sql ++ text ")"

@[simp] theorem values_nil : values [] = [] := rfl

@[simp] theorem values_cons (p : Piece) (sql : Sql) :
    values (p :: sql) = p.values ++ values sql := rfl

@[simp] theorem values_append (a b : Sql) : values (a ++ b) = values a ++ values b := by
  simp [values]

@[simp] theorem values_text (s : String) : values (text s) = [] := rfl

end Sql

/-! ### Tables and columns -/

/-- ` AS ` and an alias, if there is one. -/
def aliasSql : Option String → Sql
  | none => []
  | some aliasName => [.text " AS ", .name aliasName]

/-- A table: raw SQL in parentheses, or a name behind its schema. -/
def tableSql (table : SqlName) (schema : Option String) : Sql :=
  match table, schema with
  | .raw sql, _ => Sql.parenthesized (Sql.text sql)
  | .name name, none => [.name name]
  | .name name, some schema => [.name schema, .text ".", .name name]

/-- The expression of a column. A schema counts only before a table, and neither before raw SQL. -/
def ColumnExpr.ofName (column : SqlName) (table schema : Option String) : ColumnExpr :=
  match column, table with
  | .raw sql, _ => .raw sql
  | .name name, none => .path [] name
  | .name name, some table => .path (schema.toList ++ [table]) name

/-- What may follow a column: an alias, or a cast given by its arguments, which are a type and an
optional alias. -/
inductive ColumnForm where
  | aliased (name : String)
  | cast (arguments : List String)
  deriving DecidableEq

/-- The form for an optional cast and an optional alias. -/
def ColumnForm.of (cast alias? : Option String) : Option ColumnForm :=
  match cast, alias? with
  | some type, some aliasName => some (.cast [type, aliasName])
  | some type, none => some (.cast [type])
  | none, some aliasName => some (.aliased aliasName)
  | none, none => none

/-- A column in the given form. A cast takes one or two arguments. -/
def columnSql (column : SqlName) (form : Option ColumnForm) (table schema : Option String) :
    Rendered :=
  let expr := ColumnExpr.ofName column table schema
  match form with
  | none => .ok [.column expr none]
  | some (.aliased aliasName) => .ok (.column expr none :: aliasSql (some aliasName))
  | some (.cast [type]) => .ok [.column expr (some type)]
  | some (.cast [type, aliasName]) => .ok (.column expr (some type) :: aliasSql (some aliasName))
  | some (.cast []) => .error .castWithoutType
  | some (.cast arguments) => .error (.castArguments arguments.length)

/-! ### Spelling -/

/-- The text of a column expression. The name `*` is not quoted. -/
def ColumnExpr.spell (d : Dialect) : ColumnExpr → String
  | raw sql => sql
  | path qualifiers name =>
    String.join (qualifiers.map fun q => d.quoteIdentifier q ++ ".")
      ++ (if name = "*" then "*" else d.quoteIdentifier name)

/-- The text of a piece, `bound` values being bound before it. -/
def Piece.spell (d : Dialect) (bound : Nat) : Piece → String
  | text s => s
  | name s => d.quoteIdentifier s
  | column expr none => expr.spell d
  | column expr (some type) => d.cast (expr.spell d) type
  | param _ => d.placeholder (bound + 1)

/-- The text of SQL, `bound` values being bound before it. -/
def Sql.spell (d : Dialect) (bound : Nat) : Sql → String
  | [] => ""
  | p :: ps => p.spell d bound ++ Sql.spell d (bound + p.values.length) ps

/-- Whether a piece shows nothing in a dialect. A bound value is never nothing. -/
def Piece.isBlank (d : Dialect) (p : Piece) : Bool := p.values.isEmpty && (p.spell d 0).isEmpty

/-- Whether SQL shows nothing in a dialect. -/
def Sql.isBlank (d : Dialect) (sql : Sql) : Bool := sql.all (Piece.isBlank d)

namespace Dialect

/-- The text of SQL that binds nothing, or whose placeholders are counted from one. -/
def spell (d : Dialect) (sql : Sql) : String := sql.spell d 0

/-- The text of a table with an optional alias and schema. Every dialect has this default form: it
spells the names, and it does not replace how they are put together. -/
def quoteTable (d : Dialect) (table : SqlName) (alias? schema : Option String) : String :=
  d.spell (tableSql table schema ++ aliasSql alias?)

/-- The text of a column in the given form, behind an optional table and its schema. Every dialect
has this default form: it spells the names and the cast, and it does not replace how they are put
together. -/
def quoteColumn (d : Dialect) (column : SqlName) (form : Option ColumnForm)
    (table schema : Option String) : Except SqlError String :=
  (columnSql column form table schema).map d.spell

end Dialect

end SqlAssembly
