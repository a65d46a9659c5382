import SqlAssembly.Proofs.Building
import SqlAssembly.Proofs.LatestEntries
import SqlAssembly.Proofs.Query.Scope

/-!
# Values in the order of a statement

Which values a statement binds can be read off its structure, without any text: each part
contributes the values of its own operands and queries, in a fixed order of the parts. The values of
a query stand in the place of the query, as its SQL does in rendering. The values of a condition
come in the order of the calls that built it (`Condition.bound_build`).
-/

namespace SqlAssembly

/-! ### Operands and conditions -/

/-- The values of an operand. A list is one value. -/
def Operand.bound : Operand (List Value) → List Value
  | value v => [v]
  | subquery values => values
  | absent | literal _ | field _ => []

namespace Node

mutual

/-- The values of a node. -/
def bound : Node (List Value) → List Value
  | leaf _ predicate => predicate.operand.bound
  | group _ children => boundAll children

/-- The values of a list of nodes. -/
def boundAll : List (Node (List Value)) → List Value
  | [] => []
  | n :: ns => bound n ++ boundAll ns

end

end Node

/-- The values of a condition. -/
def Condition.bound (c : Condition (List Value)) : List Value := Node.boundAll c.root

/-! ### Queries -/

/-- The values of an entry if it is lateral, or of one that is not. -/
def SourceItem.bound (lateral : Bool) : SourceItem (List Value) → List Value
  | .plain source _ => if lateral then [] else source.queries.flatten
  | .lateral source _ => if lateral then source.queries.flatten else []
  | .expressions _ => []

/-- The values of a select: those of the plain sources, of the lateral ones, of the joins, of the
two conditions and of the union members. Without entries of its own it has only union members. -/
def Select.bound (s : Select (List Value)) : List Value :=
  let members := s.unions.flatMap fun u => u.member.queries.flatten
  if s.items.isEmpty then members
  else
    s.items.flatMap (SourceItem.bound false) ++ s.items.flatMap (SourceItem.bound true)
      ++ s.joins.flatMap (fun j => j.source.queries.flatten) ++ s.filter.bound ++ s.having.bound
      ++ members

/-- The values of a query. -/
def Query.bound : Query → List Value := fold Select.bound

/-! ### Other statements -/

variable {σ : Type}

/-- The operands of those assignments whose names stand for a column, under the column. -/
def Assignment.resolved (owner : Option RecordType) (assignments : List (Assignment σ)) :
    List (String × Operand σ) :=
  assignments.filterMap fun a =>
    (columnName owner a.name).toOption.map fun column => (column, a.operand)

/-- The values of a row in the order of the columns: under each column those of all assignments to
it. -/
def Row.bound (owner : Option RecordType) (columns : List String) :
    Row (List Value) → List Value
  | .positional operands => operands.flatMap Operand.bound
  | .named assignments => columns.flatMap fun column =>
      ((Assignment.resolved owner assignments).filter fun e => e.1 == column).flatMap
        fun e => e.2.bound

/-- The values of an insert, row by row. -/
def Insert.bound (s : Insert (List Value)) : List Value :=
  let owner := s.target.bind Source.recordType?
  match s.columns owner with
  | .ok columns => s.rows.flatMap (Row.bound owner columns)
  | .error _ => []

/-- The values of an update: those of the last assignment to each column, in the order in which the
columns are first assigned, and those of the condition. -/
def Update.bound (s : Update (List Value)) : List Value :=
  let owner := s.target.bind Source.recordType?
  let positional := s.fields.zipWith Assignment.mk (s.positional.getD [])
  (Entries.latest (Assignment.resolved owner (positional ++ s.assignments))).flatMap
      (fun e => e.2.bound)
    ++ s.filter.bound

/-- The values of a delete. -/
def Delete.bound (s : Delete (List Value)) : List Value := s.filter.bound

/-- The values of a statement. -/
def Statement.bound : Statement → List Value
  | select s => (Query.of s).bound
  | insert s => (s.map Query.bound).bound
  | update s => (s.map Query.bound).bound
  | delete s => (s.map Query.bound).bound
  | literal _ => []

/-- The values of a `WITH` statement: those of the tables in order, and those of the last
statement. -/
def With.bound (s : With) : List Value :=
  s.tables.flatMap (fun t => t.statement.bound) ++ s.statement.elim [] Statement.bound

/-- The values of a command. -/
def Command.bound : Command → List Value
  | select s => (Statement.select s).bound
  | insert s => (Statement.insert s).bound
  | update s => (Statement.update s).bound
  | delete s => (Statement.delete s).bound
  | commonTables s => s.bound

/-! ### Conditions call by call -/

/-- The values that a call adds to a condition. A null for an operator without a place for a value
adds none. -/
def ConditionCall.bound : ConditionCall Query → List Value
  | add _ _ operator (.value .null) => if Predicate.takesValue operator then [.null] else []
  | add _ _ _ operand => (operand.map Query.bound).bound
  | openGroup _ | closeGroup => []

/-- A call adds the values of its predicate. -/
theorem ConditionCall.bound_eq (call : ConditionCall Query) :
    call.bound = call.predicate?.toList.flatMap fun p => (p.operand.map Query.bound).bound := by
  cases call with
  | add connector field operator operand =>
    cases operand with
    | value v =>
      cases v with
      | null =>
        by_cases h : Predicate.takesValue operator <;>
          simp [h, Predicate.of, bound, predicate?, Operand.map, Operand.bound]
      | _ => rfl
    | subquery q => exact (List.append_nil _).symm
    | _ => rfl
  | openGroup connector => rfl
  | closeGroup => rfl

namespace Node

mutual

/-- The values of a node are those of its predicates. -/
theorem bound_eq (n : Node Query) :
    (n.map Query.bound).bound
      = n.predicates.flatMap fun p => (p.operand.map Query.bound).bound := by
  match n with
  | leaf c p => exact (List.append_nil _).symm
  | group c ns => exact boundAll_eq ns

theorem boundAll_eq (ns : List (Node Query)) :
    boundAll (mapAll Query.bound ns)
      = (predicatesAll ns).flatMap fun p => (p.operand.map Query.bound).bound := by
  match ns with
  | [] => rfl
  | n :: ns => rw [mapAll, boundAll, bound_eq n, boundAll_eq ns, predicatesAll, List.flatMap_append]

end

end Node

/-- In a condition whose groups are balanced the values come in call order. -/
theorem Condition.bound_build {style : ConditionStyle} {calls : List (ConditionCall Query)}
    (h : (build style calls).check = .ok ()) :
    ((build style calls).map Query.bound).bound = calls.flatMap ConditionCall.bound := by
  rw [Condition.bound, Condition.map, Node.boundAll_eq, predicates_build h,
    List.filterMap_eq_flatMap_toList, List.flatMap_assoc]
  exact List.flatMap_congr fun call _ => (ConditionCall.bound_eq call).symm

end SqlAssembly
