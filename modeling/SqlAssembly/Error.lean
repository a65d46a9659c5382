import SqlAssembly.Identifier.Description
import SqlAssembly.Keyword

/-!
# Errors

Each cause of failure is a constructor that carries what its message speaks of. `SqlError.kind`
sorts the causes, and `SqlError.message` words them.
-/

namespace SqlAssembly

/-- What an error is about. -/
inductive ErrorKind where
  | identifier
  | assembly
  | dialect
  | config
  deriving DecidableEq, Repr

/-- The words that a message begins with. -/
def ErrorKind.title : ErrorKind → String
  | .identifier => "Identifier error"
  | .assembly => "Assembly error"
  | .dialect => "Dialect error"
  | .config => "Config error"

/-- The part that a name plays. -/
inductive NameRole where
  | aliasName
  | table
  | schema
  | column
  | commonTable
  deriving DecidableEq, Repr

/-- The words for a part. -/
def NameRole.text : NameRole → String
  | .aliasName => "alias"
  | .table => "table name"
  | .schema => "schema name"
  | .column => "column name"
  | .commonTable => "CTE names"

/-- The causes of failure. -/
inductive SqlError where
  -- names
  | emptyName (role : NameRole)
  | nulInName (role : NameRole)
  | recordAsColumn (table : String)
  | literalQualifier (sql : String)
  | unknownAttribute (name table : String)
  | unknownJoinTable (qualifier : String)
  | duplicateAlias (aliasName : String)
  -- conditions
  | unclosedGroups (count : Nat)
  | unopenedGroups (count : Nat)
  -- selects
  | repeatedGroupField (name : Identifier)
  | pageNotPositive (page rows : Int64)
  | pageTooFar (page rows : Int64)
  | nothingSelected
  | clauseOnBareUnion
  | loneUnionMember
  | joinWithoutSource
  | unionMember (kind : StatementKind)
  | emptySelectList
  | unwantedCondition (join : JoinKind)
  | missingCondition (join : JoinKind)
  -- inserts, updates and deletes
  | subqueryTarget (kind : StatementKind)
  | missingTarget (kind : StatementKind)
  | insertWithoutRows
  | insertWithoutFields
  | repeatedInsertField (column : String)
  | insertRowLength (row values fields : Nat)
  | insertValueMissing (row : Nat) (column : String)
  | updateLength (values fields : Nat)
  | updateWithoutAssignments
  | updateValueMissing (column : String)
  -- common tables
  | withoutCommonTables
  | withoutTerminalStatement
  -- dialects
  | ilikeUnsupported (dialect : String)
  | castWithoutType
  | castArguments (count : Nat)
  | unknownDialect (name : String)
  -- configuration
  | unreadableFile (path reason : String)
  | malformedConfig
  /-- An error raised by a caller. -/
  | custom (kind : ErrorKind) (text : String)
  deriving DecidableEq

namespace SqlError

/-- What the error is about. -/
def kind : SqlError → ErrorKind
  | emptyName _ | nulInName _ | recordAsColumn _ | literalQualifier _ | unknownAttribute _ _
  | unknownJoinTable _ => .identifier
  | ilikeUnsupported _ | castWithoutType | castArguments _ | unknownDialect _ => .dialect
  | unreadableFile _ _ | malformedConfig => .config
  | custom kind _ => kind
  | _ => .assembly

/-- The cause in words. -/
def detail : SqlError → String
  | emptyName role => role.text ++ " cannot be empty"
  | nulInName role => role.text ++ " cannot contain NUL character"
  | recordAsColumn table => "record '" ++ table ++ "' cannot be used as a column name"
  | literalQualifier sql => "literal '" ++ sql ++ "' cannot qualify a field"
  | unknownAttribute name table =>
    "unknown attribute '" ++ name ++ "' for record '" ++ table ++ "'"
  | unknownJoinTable qualifier =>
    "unknown table or alias '" ++ qualifier ++ "' in JOIN condition"
  | duplicateAlias aliasName => "duplicate table alias '" ++ aliasName ++ "'"
  | unclosedGroups count => toString count ++ " clause group(s) opened but not closed"
  | unopenedGroups count => toString count ++ " clause group(s) closed without a matching open"
  | repeatedGroupField name => "duplicate GROUP BY field " ++ name.describe
  | pageNotPositive page rows =>
    "page and rows must be >= 1, got page=" ++ toString page.toInt ++ " rows="
      ++ toString rows.toInt
  | pageTooFar page rows =>
    "page offset overflows for page=" ++ toString page.toInt ++ " rows=" ++ toString rows.toInt
  | nothingSelected => "SELECT requires a FROM source, an expression or union members"
  | clauseOnBareUnion =>
    "a union without its own source cannot carry JOIN, WHERE, GROUP BY or HAVING"
  | loneUnionMember => "a union without its own source needs at least two members"
  | joinWithoutSource => "JOIN requires a FROM source"
  | unionMember kind =>
    "union members must be SELECT statements or literals, got " ++ kind.name
  | emptySelectList => "SELECT list is empty"
  | unwantedCondition join => join.keyword ++ " takes no ON condition"
  | missingCondition join => join.keyword ++ " requires an ON condition"
  | subqueryTarget kind => kind.keyword ++ " target must be a table, not a subquery"
  | missingTarget kind => kind.keyword ++ " requires a target table"
  | insertWithoutRows => "INSERT requires at least one row of values"
  | insertWithoutFields => "INSERT requires at least one field"
  | repeatedInsertField column => "INSERT field '" ++ column ++ "' is listed twice"
  | insertRowLength row values fields =>
    "INSERT row " ++ toString row ++ " has " ++ toString values ++ " values for "
      ++ toString fields ++ " fields"
  | insertValueMissing row column =>
    "INSERT row " ++ toString row ++ " has no value for field '" ++ column ++ "'"
  | updateLength values fields =>
    "UPDATE has " ++ toString values ++ " values for " ++ toString fields ++ " fields"
  | updateWithoutAssignments => "UPDATE requires at least one assignment"
  | updateValueMissing column => "UPDATE has no value for field '" ++ column ++ "'"
  | withoutCommonTables => "WITH requires at least one clause"
  | withoutTerminalStatement => "WITH requires a terminal statement"
  | ilikeUnsupported dialect => dialect ++ " dialect does not support ILIKE"
  | castWithoutType => "CAST requires a type argument"
  | castArguments count =>
    "CAST takes a type and an optional alias, got " ++ toString count ++ " arguments"
  | unknownDialect name => "unknown dialect '" ++ name ++ "'"
  | unreadableFile path reason => "failed to read config file " ++ path ++ ": " ++ reason
  | malformedConfig => "malformed configuration"
  | custom _ text => text

/-- The kind of the error and its cause, in words. -/
def message (e : SqlError) : String := e.kind.title ++ ": " ++ e.detail

end SqlError

end SqlAssembly
