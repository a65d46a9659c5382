import SqlAssembly.Select.Basic

/-!
# The scope of a select

Before anything is written, every source of a select is bound to the name that qualifies its
columns. The names are pairwise distinct: an explicit alias must be new, and a source without one
gets a numbered alias where its own name is taken.
-/

namespace SqlAssembly

variable {σ τ : Type}

/-! ### Aliases -/

/-- A name with a number behind it. -/
def numbered (base : String) (n : Nat) : String := base ++ "_" ++ toString n

/-- A name that is not taken: the given one, or else with the least number from two on that makes it
free. Among one more number than there are names taken, one is free. The number is at most
`taken.length + 1`, so a counter of thirty-two bits with a sign holds it as long as fewer than
`2 ^ 31 - 1` names are taken. -/
def freshAlias (base : String) (taken : List String) : String :=
  if base ∉ taken then base
  else
    let n := ((List.range (taken.length + 1)).find? fun i => numbered base (i + 2) ∉ taken)
    numbered base (n.getD taken.length + 2)

/-- An alias that was asked for, which may be neither empty nor taken. -/
def claimAlias (aliasName : String) (taken : List String) : Except SqlError String :=
  if aliasName.isEmpty then .error (.emptyName .aliasName)
  else if aliasName ∈ taken then .error (.duplicateAlias aliasName)
  else .ok aliasName

/-! ### Bindings -/

/-- What a bound source is written as. -/
inductive SourceBody (σ : Type) where
  | table (table : SqlName) (schema : Option String)
  | query (query : σ)

def SourceBody.map (f : σ → τ) : SourceBody σ → SourceBody τ
  | table name schema => table name schema
  | query q => query (f q)

/-- A source with its place in the scope. -/
structure Binding (σ : Type) where
  /-- The name that columns are qualified with. -/
  qualifier : String
  /-- The alias that is written, asked for or numbered. -/
  alias? : Option String
  /-- The schema before qualified columns; none under an alias. -/
  schema : Option String
  /-- Whether the columns listed for the source are qualified. -/
  qualifies : Bool
  record : Option RecordType
  body : SourceBody σ

namespace Binding

def map (f : σ → τ) (b : Binding σ) : Binding τ :=
  ⟨b.qualifier, b.alias?, b.schema, b.qualifies, b.record, b.body.map f⟩

/-- Bind a table. An alias equal to the table's name is dropped. -/
def ofTable (taken : List String) (record : Option RecordType) (t : TableRef) :
    Except SqlError (Binding σ) := do
  let aliased (aliasName : String) : Binding σ :=
    { qualifier := aliasName, alias? := some aliasName, schema := none, qualifies := true, record
      body := .table t.table t.schema }
  let plain (name : String) : Binding σ :=
    { qualifier := name, alias? := none, schema := t.schema, qualifies := false, record
      body := .table t.table t.schema }
  match t.alias?, t.table with
  | some aliasName, table =>
    let aliasName ← claimAlias aliasName taken
    return if table = .name aliasName then plain aliasName else aliased aliasName
  | none, .name name =>
    return if name ∈ taken then aliased (freshAlias name taken) else plain name
  | none, .raw _ => return aliased (freshAlias "t" taken)

/-- Bind a query. -/
def ofQuery (taken : List String) (query : σ) (alias? : Option String) :
    Except SqlError (Binding σ) := do
  let aliasName ← match alias? with
    | some aliasName => claimAlias aliasName taken
    | none => .ok (freshAlias "t" taken)
  return { qualifier := aliasName, alias? := some aliasName, schema := none, qualifies := true
           record := none, body := .query query }

/-- Bind a source, given the names that are taken. -/
def ofSource (taken : List String) : Source σ → Except SqlError (Binding σ)
  | .table name schema => do ofTable taken name.recordType? (← name.asTable schema)
  | .subquery query alias? => ofQuery taken query alias?

/-- A column of the source in a condition. -/
def columnSql (b : Binding σ) (column : SqlName) : Rendered :=
  SqlAssembly.columnSql column none (some b.qualifier) b.schema

/-- The columns of the source in the select list, qualified or not; all of them as `*` if none are
listed, which is always qualified. -/
def listSql (b : Binding σ) (qualify : Bool) (columns : Columns) : Except SqlError (List Sql) :=
  match columns.listed with
  | [] => do return [← b.columnSql (.name "*")]
  | listed =>
    if qualify then listed.mapM (Column.sql b.record (some b.qualifier) b.schema)
    else listed.mapM (Column.sql b.record none none)

/-- The source in the `FROM` list or behind `JOIN`. -/
def sql (b : Binding Rendered) : Rendered :=
  match b.body with
  | .table table schema => return tableSql table schema ++ aliasSql b.alias?
  | .query query => do return Sql.parenthesized (← query) ++ aliasSql b.alias?

/-- Write the source in the `FROM` list or behind `JOIN`. -/
def write (d : Dialect) (b : Binding Written) : Written :=
  match b.body with
  | .table table schema => return d.quoteTable table b.alias? schema
  | .query query => do return d.quoteTable (.raw (← query)) b.alias? none

end Binding

/-! ### Scopes -/

/-- An entry of the select list, bound. -/
inductive BoundItem (σ : Type) where
  | source (binding : Binding σ) (lateral : Bool) (columns : Columns)
  | expressions (columns : List Column)

namespace BoundItem

def map (f : σ → τ) : BoundItem σ → BoundItem τ
  | source binding lateral columns => source (binding.map f) lateral columns
  | expressions columns => expressions columns

/-- The binding of a source. -/
def binding? : BoundItem σ → Option (Binding σ)
  | source binding _ _ => some binding
  | expressions _ => none

/-- The select list's columns of the item. -/
def listSql : BoundItem σ → Except SqlError (List Sql)
  | source binding _ columns => binding.listSql binding.qualifies columns
  | expressions columns => columns.mapM (Column.sql none none none)

/-- The sources that are lateral, or those that are not. -/
def sources (lateral : Bool) (items : List (BoundItem σ)) : List (Binding σ) :=
  items.filterMap fun
    | source binding l _ => if l = lateral then some binding else none
    | expressions _ => none

end BoundItem

/-- Bind the entries of the select list in call order. -/
def SourceItem.bindAll (taken : List String) :
    List (SourceItem σ) → Except SqlError (List (BoundItem σ))
  | [] => return []
  | .plain source columns :: rest => do
    let b ← Binding.ofSource taken source
    return .source b false columns :: (← bindAll (taken ++ [b.qualifier]) rest)
  | .lateral source columns :: rest => do
    let b ← Binding.ofSource taken source
    return .source b true columns :: (← bindAll (taken ++ [b.qualifier]) rest)
  | .expressions columns :: rest => do
    return .expressions columns :: (← bindAll taken rest)

/-- A join, bound. -/
structure BoundJoin (σ : Type) where
  join : Join σ
  binding : Binding σ

def BoundJoin.map (f : σ → τ) (j : BoundJoin σ) : BoundJoin τ := ⟨j.join.map f, j.binding.map f⟩

/-- Bind joins in order. -/
def Join.bindAll (taken : List String) : List (Join σ) → Except SqlError (List (BoundJoin σ))
  | [] => return []
  | j :: rest => do
    let b ← Binding.ofSource taken j.source
    return ⟨j, b⟩ :: (← bindAll (taken ++ [b.qualifier]) rest)

/-- The bound entries and joins of a select. -/
structure Scope (σ : Type) where
  items : List (BoundItem σ)
  joins : List (BoundJoin σ)

namespace Scope

def map (f : σ → τ) (s : Scope σ) : Scope τ := ⟨s.items.map (.map f), s.joins.map (.map f)⟩

/-- The sources of the `FROM` list, in call order. -/
def fromBindings (s : Scope σ) : List (Binding σ) := s.items.filterMap BoundItem.binding?

/-- Bind the entries of a select, then its joins. -/
def bind (s : Select σ) : Except SqlError (Scope σ) := do
  let items ← SourceItem.bindAll [] s.items
  let taken := (items.filterMap BoundItem.binding?).map Binding.qualifier
  return ⟨items, ← Join.bindAll taken s.joins⟩

/-- The select list: the columns of the entries, then those that joins add, always qualified. It may
not be empty. -/
def selectList (s : Scope σ) : Except SqlError (List Sql) := do
  let items ← s.items.mapM BoundItem.listSql
  let joins ← s.joins.mapM fun j =>
    match j.join.columns with
    | none => pure []
    | some columns => j.binding.listSql true columns
  match (items ++ joins).flatten with
  | [] => throw .emptySelectList
  | columns => return columns

end Scope

end SqlAssembly
