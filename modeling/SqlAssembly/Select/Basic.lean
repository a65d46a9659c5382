import SqlAssembly.Condition.Basic

/-!
# Select statements

A select gathers what its calls say into separate places, so that calls of different kinds commute,
and nothing is checked before it is rendered. The first error that a call meets is kept. The type of
the queries inside a select is a parameter, as for operands.
-/

namespace SqlAssembly

variable {σ τ : Type}

/-! ### Sources -/

/-- What rows are taken from: a table, or a query in parentheses. -/
inductive Source (σ : Type) where
  | table (name : Identifier) (schema : Option String)
  | subquery (query : σ) (alias? : Option String)

namespace Source

/-- The source under an alias. A table is wrapped in it; that of a query is replaced. -/
def withAlias (aliasName : String) : Source σ → Source σ
  | table name schema => table (.aliased name aliasName) schema
  | subquery query _ => subquery query (some aliasName)

/-- The source in a schema, which concerns tables alone. -/
def withSchema (schema : String) : Source σ → Source σ
  | table name _ => table name (some schema)
  | subquery query alias? => subquery query alias?

/-- The record type behind a source. -/
def recordType? : Source σ → Option RecordType
  | table name _ => name.recordType?
  | subquery _ _ => none

/-- Read a source as the target of a statement, which must be a table. -/
def asTarget (kind : StatementKind) : Source σ → Except SqlError TableRef
  | table name schema => name.asTable schema
  | subquery _ _ => .error (.subqueryTarget kind)

def map (f : σ → τ) : Source σ → Source τ
  | table name schema => table name schema
  | subquery query alias? => subquery (f query) alias?

/-- The query of a source. -/
def queries : Source σ → List σ
  | subquery query _ => [query]
  | table _ _ => []

end Source

/-- An entry of the select list and, but for expressions, of the `FROM` list. -/
inductive SourceItem (σ : Type) where
  | plain (source : Source σ) (columns : Columns)
  /-- A source that may refer to the plain ones; it is written after them. -/
  | lateral (source : Source σ) (columns : Columns)
  /-- Columns that belong to no source. -/
  | expressions (columns : List Column)

namespace SourceItem

/-- Whether the item is a source. -/
def isSource : SourceItem σ → Bool
  | expressions _ => false
  | _ => true

def map (f : σ → τ) : SourceItem σ → SourceItem τ
  | plain source columns => plain (source.map f) columns
  | lateral source columns => lateral (source.map f) columns
  | expressions columns => expressions columns

/-- The query of an item. -/
def queries : SourceItem σ → List σ
  | plain source _ | lateral source _ => source.queries
  | expressions _ => []

end SourceItem

/-! ### Joins -/

/-- The condition of a join. -/
inductive JoinCondition where
  /-- `other.otherField operator joined.field` -/
  | columns (field other otherField : Identifier) (operator : String)
  | raw (sql : String)

/-- A join, with the columns it adds to the select list. -/
structure Join (σ : Type) where
  kind : JoinKind
  source : Source σ
  condition : Option JoinCondition := none
  columns : Option Columns := none

def Join.map (f : σ → τ) (j : Join σ) : Join τ :=
  ⟨j.kind, j.source.map f, j.condition, j.columns⟩

/-! ### Unions -/

/-- A member of a union. -/
inductive UnionMember (σ : Type) where
  | query (query : σ)
  | literal (sql : String)
  /-- A statement of a kind that no union takes. -/
  | refused (kind : StatementKind)

/-- A member of a union and the kind of union before it. -/
structure UnionPart (σ : Type) where
  member : UnionMember σ
  kind : UnionKind

namespace UnionMember

def map (f : σ → τ) : UnionMember σ → UnionMember τ
  | query q => query (f q)
  | literal sql => literal sql
  | refused kind => refused kind

/-- The query of a member. -/
def queries : UnionMember σ → List σ
  | query q => [q]
  | _ => []

end UnionMember

def UnionPart.map (f : σ → τ) (u : UnionPart σ) : UnionPart τ := ⟨u.member.map f, u.kind⟩

/-! ### Selects -/

/-- A select that is being built. -/
structure Select (σ : Type) where
  dialect : Dialect
  distinct : Bool := false
  items : List (SourceItem σ) := []
  joins : List (Join σ) := []
  filter : Condition σ := { style := .parenthesized }
  groupBy : List Field := []
  having : Condition σ := { style := .parenthesized }
  orderBy : List (Field × Direction) := []
  limit : Option Int64 := none
  offset : Option Int64 := none
  forUpdate : Bool := false
  unions : List (UnionPart σ) := []
  /-- The first error that a call met. -/
  deferred : Option SqlError := none

/-- A step in building a select. -/
inductive SelectCall (σ : Type) where
  | source (source : Source σ) (columns : Columns)
  | lateral (source : Source σ) (aliasName : String) (columns : Columns)
  | expressions (columns : Columns)
  | distinct
  | forUpdate
  | join (join : Join σ)
  | filter (call : ConditionCall σ)
  | groupBy (fields : List Field)
  | having (call : ConditionCall σ)
  | orderBy (field : Field) (direction : Direction)
  | limit (n : Int64)
  | offset (n : Int64)
  | page (page rows : Int64)
  | union (member : UnionMember σ) (kind : UnionKind)

namespace Select

/-- Keep an error, unless one is kept already. -/
def defer (s : Select σ) (e : SqlError) : Select σ :=
  { s with deferred := s.deferred.or (some e) }

/-- Group by one more field; one that is there already is an error. -/
def group (s : Select σ) (f : Field) : Select σ :=
  if f ∈ s.groupBy then s.defer (.repeatedGroupField f.name)
  else { s with groupBy := s.groupBy ++ [f] }

/-- Take the rows of one page, pages being counted from one. Both numbers must be positive, and the
offset must fit sixty-four bits. -/
def paginate (s : Select σ) (page rows : Int64) : Select σ :=
  if page < 1 ∨ rows < 1 then s.defer (.pageNotPositive page rows)
  else
    let offset := (page.toInt - 1) * rows.toInt
    if offset ≤ Int64.maxValue.toInt then
      { s with limit := some rows, offset := some (Int64.ofInt offset) }
    else s.defer (.pageTooFar page rows)

def apply (s : Select σ) : SelectCall σ → Select σ
  | .source source columns => { s with items := s.items ++ [.plain source columns] }
  | .lateral source aliasName columns =>
    { s with items := s.items ++ [.lateral (source.withAlias aliasName) columns] }
  | .expressions .all => { s with items := s.items ++ [.expressions [{ name := .name "*" }]] }
  | .expressions (.list columns) => { s with items := s.items ++ [.expressions columns] }
  | .distinct => { s with distinct := true }
  | .forUpdate => { s with forUpdate := true }
  | .join join => { s with joins := s.joins ++ [join] }
  | .filter call => { s with filter := s.filter.apply call }
  | .groupBy fields => fields.foldl group s
  | .having call => { s with having := s.having.apply call }
  | .orderBy field direction => { s with orderBy := s.orderBy ++ [(field, direction)] }
  | .limit n => { s with limit := some n }
  | .offset n => { s with offset := some n }
  | .page page rows => s.paginate page rows
  | .union member kind => { s with unions := s.unions ++ [⟨member, kind⟩] }

/-- The select after a sequence of calls. -/
def build (dialect : Dialect) (calls : List (SelectCall σ)) : Select σ :=
  calls.foldl apply { dialect }

def map (f : σ → τ) (s : Select σ) : Select τ :=
  { dialect := s.dialect
    distinct := s.distinct
    items := s.items.map (SourceItem.map f)
    joins := s.joins.map (Join.map f)
    filter := s.filter.map f
    groupBy := s.groupBy
    having := s.having.map f
    orderBy := s.orderBy
    limit := s.limit
    offset := s.offset
    forUpdate := s.forUpdate
    unions := s.unions.map (UnionPart.map f)
    deferred := s.deferred }

/-- The queries in a select. -/
def queries (s : Select σ) : List σ :=
  s.items.flatMap SourceItem.queries ++ s.joins.flatMap (fun j => j.source.queries)
    ++ s.filter.queries ++ s.having.queries ++ s.unions.flatMap (fun u => u.member.queries)

end Select

end SqlAssembly
