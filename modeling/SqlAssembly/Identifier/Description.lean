import SqlAssembly.Identifier.Basic
import SqlAssembly.Text.Quoted

/-!
# How identifiers are shown

The text of an identifier in an error message: its shape by name, its strings between quotes.
-/

namespace SqlAssembly

open Text (quoted)

/-- A string that may be missing. -/
def describeOption : Option String → String
  | none => "None"
  | some s => "Some(" ++ quoted s ++ ")"

/-- A record type, with all its parts. -/
def RecordType.describe (r : RecordType) : String :=
  "RecordDescriptor \x7b table: " ++ quoted r.table ++ ", schema: " ++ describeOption r.schema
    ++ ", primary_key: " ++ describeOption r.primaryKey ++ ", fields: ["
    ++ ", ".intercalate (r.pairs.map fun p => "(" ++ quoted p.1 ++ ", " ++ quoted p.2 ++ ")")
    ++ "] \x7d"

/-- A record's table, with its alias. -/
def RecordTable.describe (t : RecordTable) : String :=
  "RecordRef \x7b descriptor: " ++ t.type.describe ++ ", alias: " ++ describeOption t.alias?
    ++ " \x7d"

/-- An identifier, from the outside in. -/
def Identifier.describe : Identifier → String
  | .name s => "Name(" ++ quoted s ++ ")"
  | .aliased base aliasName => "Aliased(" ++ base.describe ++ ", " ++ quoted aliasName ++ ")"
  | .literal sql => "Literal(Literal(" ++ quoted sql ++ "))"
  | .record table => "Record(" ++ table.describe ++ ")"

end SqlAssembly
