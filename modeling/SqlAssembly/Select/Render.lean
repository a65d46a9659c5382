import SqlAssembly.Condition.Render
import SqlAssembly.Select.Scope

/-!
# Rendering selects

The clauses of a select are written in the order of SQL, whatever the order of the calls was, and
the first clause that fails decides the error. A select without entries of its own is the bare union
of its members. `Select.write` writes a select; `Select.render` gives its SQL in pieces.
-/

namespace SqlAssembly

variable {σ : Type}

namespace Select

/-! ### Structure -/

/-- Whether a select has a clause that needs sources. -/
def hasSourceClause (s : Select σ) : Bool :=
  !s.joins.isEmpty || !s.filter.isEmpty || !s.groupBy.isEmpty || !s.having.isEmpty

/-- Refuse the first union member of a kind that no union takes. -/
def checkMembers : List (UnionPart σ) → Except SqlError Unit
  | [] => .ok ()
  | u :: us =>
    match u.member with
    | .refused kind => .error (.unionMember kind)
    | _ => checkMembers us

/-- A bare union has at least two members and no clause that needs sources. -/
def checkBareUnion (s : Select σ) : Except SqlError Unit :=
  if s.unions.isEmpty then .error .nothingSelected
  else if s.hasSourceClause then .error .clauseOnBareUnion
  else if s.unions.length < 2 then .error .loneUnionMember
  else .ok ()

/-- What is checked before anything is resolved: the error that was kept, the balance of the
conditions, and that the clauses fit together. -/
def check (s : Select σ) : Except SqlError Unit := do
  if let some e := s.deferred then throw e
  s.filter.check
  s.having.check
  if s.items.isEmpty then s.checkBareUnion
  if !s.joins.isEmpty && !s.items.any SourceItem.isSource then throw .joinWithoutSource
  checkMembers s.unions

/-- The record whose attributes the unqualified fields of the `WHERE` clause name: that of the only
source, if there is neither another entry nor a join. -/
def target (s : Select σ) : Option RecordType :=
  match s.items, s.joins with
  | [.plain source _], [] => source.recordType?
  | _, _ => none

/-! ### Joins -/

/-- The condition of a join. It names a source bound before the joined one. -/
def joinConditionSql (prior : List (Binding σ)) (joined : Binding σ) : JoinCondition → Rendered
  | .raw sql => return Sql.text (" ON (" ++ sql ++ ")")
  | .columns field other otherField operator => do
    let q ← other.asQualifier
    match prior.find? fun b => b.qualifier == q.name with
    | none => throw (.unknownJoinTable q.name)
    | some b =>
      let (otherColumn, _) ← otherField.asColumn (q.record.or b.record)
      let left ← b.columnSql otherColumn
      let (column, _) ← field.asColumn joined.record
      let right ← joined.columnSql column
      return Sql.text " ON " ++ left ++ Sql.text (Text.trim operator) ++ right

/-- What follows the source of a join: its condition, which is there exactly if the kind of the join
takes one. -/
def joinOnSql (prior : List (Binding σ)) (j : BoundJoin σ) : Rendered :=
  match j.join.condition, j.join.kind.takesCondition with
  | none, false => return []
  | some _, false => throw (.unwantedCondition j.join.kind)
  | none, true => throw (.missingCondition j.join.kind)
  | some condition, true => joinConditionSql prior j.binding condition

/-- A join: its keyword, its source, and its condition. -/
def joinSql (prior : List (Binding Rendered)) (j : BoundJoin Rendered) : Rendered := do
  let source ← j.binding.sql
  let condition ← joinOnSql prior j
  return Sql.text (j.join.kind.keyword ++ " ") ++ source ++ condition

/-- The joins, each seeing the sources before it. -/
def joinsSql (prior : List (Binding Rendered)) :
    List (BoundJoin Rendered) → Except SqlError (List Sql)
  | [] => return []
  | j :: js => do
    let first ← joinSql prior j
    return first :: (← joinsSql (prior ++ [j.binding]) js)

/-! ### The other clauses -/

/-- The select list behind its keyword. -/
def listSql (distinct : Bool) (columns : List Sql) : Sql :=
  Sql.text (if distinct then "SELECT DISTINCT " else "SELECT ") ++ Sql.join "," columns

/-- The `FROM` list, plain sources before lateral ones; nothing without sources. -/
def fromSql (items : List (BoundItem Rendered)) : Rendered := do
  let plain ← (BoundItem.sources false items).mapM Binding.sql
  let lateral ← (BoundItem.sources true items).mapM fun b => do
    return Sql.text "LATERAL " ++ (← b.sql)
  match plain ++ lateral with
  | [] => return []
  | tables => return Sql.text "FROM " ++ Sql.join ", " tables

/-- The `GROUP BY` clause. -/
def groupBySql (fields : List Field) : Rendered :=
  match fields with
  | [] => return []
  | fields => do return Sql.text "GROUP BY " ++ Sql.join ", " (← fields.mapM (Field.sql none))

/-- The `ORDER BY` clause. -/
def orderBySql (fields : List (Field × Direction)) : Rendered :=
  match fields with
  | [] => return []
  | fields => do
    let parts ← fields.mapM fun (field, direction) => do
      return (← field.sql none) ++ Sql.text (" " ++ direction.keyword)
    return Sql.text "ORDER BY " ++ Sql.join "," parts

/-- The `LIMIT` and `OFFSET` clauses; a negative limit stands for no limit. -/
def limitSql (limit offset : Option Int64) : Sql :=
  let limitText (n : Int64) := if n < 0 then "LIMIT ALL" else "LIMIT " ++ toString n.toInt
  let offsetText (n : Int64) := "OFFSET " ++ toString n.toInt
  match limit, offset with
  | some n, some m => Sql.text (limitText n ++ " " ++ offsetText m)
  | some n, none => Sql.text (limitText n)
  | none, some m => Sql.text (offsetText m)
  | none, none => []

/-- A member of a union. -/
def memberSql : UnionMember Rendered → Rendered
  | .query q => q
  | .literal sql => return Sql.text sql
  | .refused kind => throw (.unionMember kind)

/-- The members of a union, each behind its keyword; but the first of a bare union has none. -/
def unionsSql (bare : Bool) : List (UnionPart Rendered) → Except SqlError (List Sql)
  | [] => return []
  | u :: us => do
    let member ← memberSql u.member
    let rest ← unionsSql false us
    return (if bare then [member] else [Sql.text u.kind.keyword, member]) ++ rest

/-! ### Selects -/

/-- The clauses that are there. -/
def present (clauses : List Sql) : List Sql := clauses.filter fun sql => !sql.isEmpty

/-- The clauses of a select with entries of its own, from `SELECT` to its last join. -/
def headSql (s : Select Rendered) : Except SqlError (List Sql) := do
  let scope ← Scope.bind s
  let columns ← scope.selectList
  let sources ← fromSql scope.items
  let joins ← joinsSql scope.fromBindings scope.joins
  return listSql s.distinct columns :: sources :: joins

/-- The clauses of a select with entries of its own, from `WHERE` to `HAVING`. -/
def filterSql (d : Dialect) (s : Select Rendered) : Except SqlError (List Sql) := do
  let filter ← s.filter.renderClause "WHERE" d s.target
  let groupBy ← groupBySql s.groupBy
  let having ← s.having.renderClause "HAVING" d none
  return [filter, groupBy, having]

/-- The clauses that selects and bare unions share. -/
def tailSql (s : Select σ) : Except SqlError (List Sql) := do
  let orderBy ← orderBySql s.orderBy
  return [orderBy, limitSql s.limit s.offset, if s.forUpdate then Sql.text "FOR UPDATE" else []]

/-- The SQL of a select whose queries are rendered. -/
def render (d : Dialect) (s : Select Rendered) : Rendered := do
  s.check
  if s.items.isEmpty then
    let members ← unionsSql true s.unions
    let tail ← s.tailSql
    return Sql.join " " (members ++ present tail)
  else
    let head ← s.headSql
    let filter ← s.filterSql d
    let tail ← s.tailSql
    let members ← unionsSql false s.unions
    return Sql.join " " (present (head ++ filter ++ tail) ++ members)

/-! ### Writing -/

/-- Write a join. -/
def writeJoin (d : Dialect) (prior : List (Binding Written)) (j : BoundJoin Written) : Written := do
  let source ← j.binding.write d
  let condition ← Writer.plain d (joinOnSql prior j)
  return j.join.kind.keyword ++ " " ++ source ++ condition

/-- Write the joins, each seeing the sources before it. -/
def writeJoins (d : Dialect) (prior : List (Binding Written)) :
    List (BoundJoin Written) → Writer (List String)
  | [] => return []
  | j :: js => do
    let first ← writeJoin d prior j
    return first :: (← writeJoins d (prior ++ [j.binding]) js)

/-- Write the `FROM` list; nothing without sources. -/
def writeFrom (d : Dialect) (items : List (BoundItem Written)) : Writer (List String) := do
  let plain ← (BoundItem.sources false items).mapM (Binding.write d)
  let lateral ← (BoundItem.sources true items).mapM fun b => do
    return "LATERAL " ++ (← b.write d)
  return match plain ++ lateral with
    | [] => []
    | tables => ["FROM " ++ String.intercalate ", " tables]

/-- Write a condition behind its keyword, or nothing if its text is empty. -/
def writeFilter (d : Dialect) (keyword : String) (owner : Option RecordType)
    (c : Condition Written) : Writer (List String) := do
  let text ← c.write d owner
  return if text.isEmpty then [] else [keyword ++ " " ++ text]

/-- Write a member of a union. -/
def writeMember : UnionMember Written → Written
  | .query q => q
  | .literal sql => return sql
  | .refused kind => throw (.unionMember kind)

/-- Write the members of a union, each behind its keyword; but the first of a bare union has
none. -/
def writeUnions (bare : Bool) : List (UnionPart Written) → Writer (List String)
  | [] => return []
  | u :: us => do
    let member ← writeMember u.member
    let rest ← writeUnions false us
    return (if bare then [member] else [u.kind.keyword, member]) ++ rest

/-- Write the clauses that are there, of those that bind nothing. -/
def writePlain (d : Dialect) (clauses : Except SqlError (List Sql)) : Writer (List String) := do
  return (present (← clauses)).map d.spell

/-- Write the clauses of a select with entries of its own, from `SELECT` to its last join. -/
def writeHead (d : Dialect) (s : Select Written) : Writer (List String) := do
  let scope ← Scope.bind s
  let columns ← scope.selectList
  let sources ← writeFrom d scope.items
  let joins ← writeJoins d scope.fromBindings scope.joins
  return d.spell (listSql s.distinct columns) :: sources ++ joins

/-- Write the clauses of a select with entries of its own, from `WHERE` to `HAVING`. -/
def writeFilters (d : Dialect) (s : Select Written) : Writer (List String) := do
  let filter ← writeFilter d "WHERE" s.target s.filter
  let groupBy ← writePlain d (return [← groupBySql s.groupBy])
  let having ← writeFilter d "HAVING" none s.having
  return filter ++ groupBy ++ having

def write (d : Dialect) (s : Select Written) : Written := do
  s.check
  if s.items.isEmpty then
    let members ← writeUnions true s.unions
    let tail ← writePlain d s.tailSql
    return String.intercalate " " (members ++ tail)
  else
    let head ← writeHead d s
    let filter ← writeFilters d s
    let tail ← writePlain d s.tailSql
    let members ← writeUnions false s.unions
    return String.intercalate " " (head ++ filter ++ tail ++ members)

end Select

end SqlAssembly
