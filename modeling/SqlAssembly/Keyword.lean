/-!
# Keywords

The closed choices of the SQL grammar that statements offer, each with the words it is written with.
-/

namespace SqlAssembly

/-- What joins a predicate or a group to the one before it. -/
inductive Connector where
  | and
  | or
  deriving DecidableEq, Repr

/-- The word of a connector. -/
def Connector.keyword : Connector → String
  | .and => "AND"
  | .or => "OR"

/-- The flavours of a join. -/
inductive JoinKind where
  | inner
  | left
  | right
  | full
  | cross
  | natural
  | innerLateral
  | leftLateral
  deriving DecidableEq, Repr

namespace JoinKind

/-- The words of a join. -/
def keyword : JoinKind → String
  | inner => "INNER JOIN"
  | left => "LEFT JOIN"
  | right => "RIGHT JOIN"
  | full => "FULL JOIN"
  | cross => "CROSS JOIN"
  | natural => "NATURAL JOIN"
  | innerLateral => "INNER JOIN LATERAL"
  | leftLateral => "LEFT JOIN LATERAL"

/-- Whether a join has an `ON` condition. -/
def takesCondition : JoinKind → Bool
  | cross | natural => false
  | _ => true

end JoinKind

/-- The direction of an `ORDER BY` field. -/
inductive Direction where
  | ascending
  | descending
  deriving DecidableEq, Repr

/-- The word of a direction. -/
def Direction.keyword : Direction → String
  | .ascending => "ASC"
  | .descending => "DESC"

/-- Whether a union keeps repeated rows. -/
inductive UnionKind where
  | distinct
  | all
  deriving DecidableEq, Repr

/-- The words of a union. -/
def UnionKind.keyword : UnionKind → String
  | .distinct => "UNION"
  | .all => "UNION ALL"

/-- Whether the engine may inline a common table. -/
inductive Materialization where
  | engineDecides
  | materialized
  | notMaterialized
  deriving DecidableEq, Repr

/-- The words of a materialization, each followed by a blank. -/
def Materialization.keyword : Materialization → String
  | .engineDecides => ""
  | .materialized => "MATERIALIZED "
  | .notMaterialized => "NOT MATERIALIZED "

/-- The kinds of statements. -/
inductive StatementKind where
  | select
  | insert
  | update
  | delete
  | commonTables
  | literal
  deriving DecidableEq, Repr

namespace StatementKind

/-- The kind in lower case. -/
def name : StatementKind → String
  | select => "select"
  | insert => "insert"
  | update => "update"
  | delete => "delete"
  | commonTables => "with"
  | literal => "literal"

/-- The keyword that a statement of the kind begins with. -/
def keyword : StatementKind → String
  | select => "SELECT"
  | insert => "INSERT"
  | update => "UPDATE"
  | delete => "DELETE"
  | commonTables => "WITH"
  | literal => ""

end StatementKind

end SqlAssembly
