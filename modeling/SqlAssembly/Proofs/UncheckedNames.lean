import SqlAssembly.Proofs.Query.Scope
import SqlAssembly.Proofs.QuotedNames
import SqlAssembly.Proofs.Traversal

/-!
# Unchecked names

Most names are checked before they are quoted. `Command.unchecked` gives those that are not: the
tables, schemas and columns of records, the aliases of records that qualify fields, the schemas that
sources give to records, and the aliases of queries, of which only their being empty is checked.
-/

namespace SqlAssembly

variable {σ : Type}

/-! ### Conditions -/

/-- What an operand brings unchecked, the queries in it replaced by what they bring. -/
def Operand.unchecked (owner : Option RecordType) : Operand (List String) → List String
  | field f => f.unchecked owner
  | subquery names => names
  | absent | value _ | literal _ => []

namespace Node

mutual

/-- What a node brings unchecked. -/
def unchecked (owner : Option RecordType) : Node (List String) → List String
  | leaf _ predicate => predicate.field.unchecked owner ++ predicate.operand.unchecked owner
  | group _ children => uncheckedAll owner children

/-- What a list of nodes brings unchecked. -/
def uncheckedAll (owner : Option RecordType) : List (Node (List String)) → List String
  | [] => []
  | n :: ns => unchecked owner n ++ uncheckedAll owner ns

end

end Node

/-- What a condition brings unchecked. -/
def Condition.unchecked (owner : Option RecordType) (c : Condition (List String)) : List String :=
  Node.uncheckedAll owner c.root

/-! ### Selects -/

/-- What a source brings unchecked. The alias of a query may not be empty, but may hold a NUL. -/
def Source.unchecked : Source (List String) → List String
  | table name schema => name.uncheckedTable schema
  | subquery names alias? => alias?.toList ++ names

/-- What the source of an entry brings unchecked. -/
def SourceItem.unchecked : SourceItem (List String) → List String
  | plain source _ | lateral source _ => source.unchecked
  | expressions _ => []

/-- What the columns of an entry bring unchecked, once its source is bound. -/
def BoundItem.uncheckedColumns : BoundItem σ → List String
  | source binding _ columns => columns.unchecked binding.record
  | expressions columns => (Columns.list columns).unchecked none

/-- What the condition of a join brings unchecked: columns of the record that qualifies the other
field, or of the source that it names, and of the joined source. -/
def JoinCondition.unchecked (prior : List (Binding σ)) (joined : Binding σ) :
    JoinCondition → List String
  | raw _ => []
  | columns field other otherField _ =>
    match other.asQualifier with
    | .error _ => []
    | .ok q =>
      match prior.find? fun b => b.qualifier == q.name with
      | none => []
      | some b => otherField.uncheckedColumn (q.record.or b.record)
          ++ field.uncheckedColumn joined.record

/-- What the columns that a join adds bring unchecked, once its source is bound. -/
def BoundJoin.uncheckedColumns (j : BoundJoin σ) : List String :=
  j.join.columns.toList.flatMap (Columns.unchecked j.binding.record)

/-- What the conditions of joins bring unchecked, each join seeing the sources before it. -/
def Join.uncheckedConditions (prior : List (Binding σ)) : List (BoundJoin σ) → List String
  | [] => []
  | j :: js =>
    j.join.condition.toList.flatMap (JoinCondition.unchecked prior j.binding)
      ++ uncheckedConditions (prior ++ [j.binding]) js

/-- What the columns and join conditions of a scope bring unchecked. -/
def Scope.unchecked (s : Scope σ) : List String :=
  s.items.flatMap BoundItem.uncheckedColumns ++ s.joins.flatMap BoundJoin.uncheckedColumns
    ++ Join.uncheckedConditions s.fromBindings s.joins

section Map

variable {τ : Type} (f : σ → τ)

theorem JoinCondition.unchecked_map (prior : List (Binding σ)) (joined : Binding σ)
    (c : JoinCondition) :
    c.unchecked (prior.map (Binding.map f)) (joined.map f) = c.unchecked prior joined := by
  cases c with
  | raw sql => rfl
  | columns field other otherField operator =>
    simp only [unchecked, List.find?_map, Function.comp_def, Binding.qualifier_map]
    cases other.asQualifier with
    | error e => rfl
    | ok q =>
      cases hb : prior.find? fun b => b.qualifier == q.name with
      | none => simp [hb]
      | some b =>
        simp [hb]
        rfl

theorem Join.uncheckedConditions_map (prior : List (Binding σ)) (joins : List (BoundJoin σ)) :
    uncheckedConditions (prior.map (Binding.map f)) (joins.map (BoundJoin.map f))
      = uncheckedConditions prior joins := by
  induction joins generalizing prior with
  | nil => rfl
  | cons j js ih =>
    have ih := ih (prior ++ [j.binding])
    rw [List.map_append] at ih
    have hcondition : JoinCondition.unchecked (prior.map (Binding.map f)) (j.binding.map f)
        = JoinCondition.unchecked prior j.binding :=
      funext (JoinCondition.unchecked_map f prior j.binding)
    simp only [List.map_cons, uncheckedConditions, BoundJoin.map, Join.map, hcondition]
    exact congrArg _ ih

/-- What the columns and join conditions of a scope bring does not depend on its queries. -/
theorem Scope.unchecked_map (s : Scope σ) : (s.map f).unchecked = s.unchecked := by
  have hitems : (fun i : BoundItem σ => (i.map f).uncheckedColumns)
      = BoundItem.uncheckedColumns := funext fun i => by cases i <;> rfl
  have hjoins : (fun j : BoundJoin σ => (j.map f).uncheckedColumns)
      = BoundJoin.uncheckedColumns := rfl
  rw [unchecked, fromBindings_map, map, Join.uncheckedConditions_map, List.flatMap_map,
    List.flatMap_map, hitems, hjoins, unchecked]

end Map

/-- What a select brings unchecked. -/
def Select.unchecked (s : Select (List String)) : List String :=
  s.items.flatMap SourceItem.unchecked ++ s.joins.flatMap (fun j => j.source.unchecked)
    ++ (Scope.bind s).toOption.elim [] Scope.unchecked
    ++ s.filter.unchecked s.target ++ s.groupBy.flatMap (Field.unchecked none)
    ++ s.having.unchecked none ++ s.orderBy.flatMap (fun part => part.1.unchecked none)
    ++ s.unions.flatMap fun u => u.member.queries.flatten

/-- A select of which the queries are replaced by what they bring. -/
theorem Select.unchecked_map (g : σ → List String) (s : Select σ) :
    (s.map g).unchecked
      = s.items.flatMap (fun i => (i.map g).unchecked)
        ++ s.joins.flatMap (fun j => (j.source.map g).unchecked)
        ++ (Scope.bind s).toOption.elim [] Scope.unchecked
        ++ (s.filter.map g).unchecked s.target ++ s.groupBy.flatMap (Field.unchecked none)
        ++ (s.having.map g).unchecked none
        ++ s.orderBy.flatMap (fun part => part.1.unchecked none)
        ++ s.unions.flatMap fun u => (u.member.map g).queries.flatten := by
  have hscope : (Scope.bind (s.map g)).toOption.elim [] Scope.unchecked
      = (Scope.bind s).toOption.elim [] Scope.unchecked := by
    rw [Scope.bind_map]
    cases Scope.bind s with
    | error e => rfl
    | ok scope => exact Scope.unchecked_map g scope
  rw [unchecked, hscope, target_map]
  simp only [map, List.flatMap_map]
  rfl

/-- What a query brings unchecked. -/
def Query.unchecked : Query → List String := fold Select.unchecked

/-! ### Other statements -/

/-- What names that are read as columns bring unchecked. -/
def uncheckedNames (owner : Option RecordType) (names : List String) : List String :=
  names.flatMap fun name => (Identifier.name name).uncheckedColumn owner

/-- The operands of a row, in the order in which they are given. -/
def Row.operands : Row σ → List (Operand σ)
  | positional operands => operands
  | named assignments => assignments.map Assignment.operand

theorem Row.operands_map {τ : Type} (f : σ → τ) (r : Row σ) :
    (r.map f).operands = r.operands.map (Operand.map f) := by
  cases r <;> simp [operands, map, Assignment.map]

/-- The names that the columns of an insert are read from. -/
def Insert.givenNames (s : Insert σ) : List String :=
  if s.fields.isEmpty then ((s.rows.findSome? Row.named?).getD []).map Assignment.name else s.fields

theorem Insert.givenColumns_eq (owner : Option RecordType) (s : Insert σ) :
    s.givenColumns owner = s.givenNames.mapM (columnName owner) := by
  unfold givenColumns givenNames
  split
  · rw [List.mapM_map]
    rfl
  · rfl

/-- What an insert brings unchecked. The names in its rows are not written, unless they give the
columns. -/
def Insert.unchecked (s : Insert (List String)) : List String :=
  let owner := s.target.bind Source.recordType?
  s.target.toList.flatMap Source.unchecked ++ uncheckedNames owner s.givenNames
    ++ s.rows.flatMap (fun r => r.operands.flatMap (Operand.unchecked owner))
    ++ s.returning.toList.flatMap (Columns.unchecked owner)

/-- What an update brings unchecked. Of the operands that a column is given the last is written. -/
def Update.unchecked (s : Update (List String)) : List String :=
  let owner := s.target.bind Source.recordType?
  let assigned := s.fields.zipWith Assignment.mk (s.positional.getD []) ++ s.assignments
  s.target.toList.flatMap Source.unchecked ++ uncheckedNames owner (assigned.map Assignment.name)
    ++ (Entries.latest (Assignment.resolved owner assigned)).flatMap
      (fun e => e.2.unchecked owner)
    ++ s.filter.unchecked owner ++ s.returning.toList.flatMap (Columns.unchecked owner)

/-- What a delete brings unchecked. -/
def Delete.unchecked (s : Delete (List String)) : List String :=
  let owner := s.target.bind Source.recordType?
  s.target.toList.flatMap Source.unchecked ++ s.filter.unchecked owner
    ++ s.returning.toList.flatMap (Columns.unchecked owner)

/-- What a statement brings unchecked. -/
def Statement.unchecked : Statement → List String
  | select s => (Query.of s).unchecked
  | insert s => (s.map Query.unchecked).unchecked
  | update s => (s.map Query.unchecked).unchecked
  | delete s => (s.map Query.unchecked).unchecked
  | literal _ => []

/-- What a `WITH` statement brings unchecked: what the statements in it do. -/
def With.unchecked (s : With) : List String :=
  s.tables.flatMap (fun t => t.statement.unchecked)
    ++ s.statement.toList.flatMap Statement.unchecked

/-- The names that a command brings into its SQL without any check. -/
def Command.unchecked : Command → List String
  | select s => (Statement.select s).unchecked
  | insert s => (Statement.insert s).unchecked
  | update s => (Statement.update s).unchecked
  | delete s => (Statement.delete s).unchecked
  | commonTables s => s.unchecked

end SqlAssembly
