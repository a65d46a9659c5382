import SqlAssembly.Proofs.BoundValues
import SqlAssembly.Proofs.Building
import SqlAssembly.Proofs.RecordRows

/-!
# The `SET` list of an update

What an update assigns are the values by position, under their fields, and then the assignments by
name, in call order. Its `SET` list is what is latest of these: each column once, where it first
comes, with the operand that comes last. Nothing else of the assignments is written or bound
(`Update.assemble_setList`).
-/

namespace SqlAssembly

variable {σ : Type}

/-! ### What the calls assign -/

namespace UpdateCall

/-- The field list that a call gives. -/
def fields? : UpdateCall σ → Option (List String)
  | fields names => some names
  | _ => none

/-- The values by position that a call gives. -/
def operands? : UpdateCall σ → Option (List (Operand σ))
  | values operands => some operands
  | _ => none

/-- The assignments by name that a call adds. -/
def named : UpdateCall σ → List (Assignment σ)
  | assign assignments => assignments
  | assignIf name operand? => operand?.toList.map (Assignment.mk name)
  | record row => row.assignments
  | _ => []

/-- The field list after a run of calls. -/
def lastFields (calls : List (UpdateCall σ)) : List String :=
  (calls.filterMap fields?).getLast?.getD []

/-- The values by position after a run of calls, if there are any. -/
def lastOperands (calls : List (UpdateCall σ)) : Option (List (Operand σ)) :=
  (calls.filterMap operands?).getLast?

/-- What a run of calls assigns: the values by position to their fields, then the assignments by
name in call order. -/
def assigned (calls : List (UpdateCall σ)) : List (Assignment σ) :=
  (lastFields calls).zipWith Assignment.mk ((lastOperands calls).getD []) ++ calls.flatMap named

end UpdateCall

namespace Update

open UpdateCall

variable (d : Dialect) (calls : List (UpdateCall σ))

theorem fields_build : (build d calls).fields = lastFields calls :=
  foldl_latest fields (fun _ call => by cases call <;> rfl) { dialect := d } calls

theorem positional_build : (build d calls).positional = lastOperands calls := by
  have hrun : (build d calls).positional
      = (calls.filterMap fun call => call.operands?.map some).getLast?.getD none :=
    foldl_latest positional (fun _ call => by cases call <;> rfl) { dialect := d } calls
  rw [← List.map_filterMap, List.getLast?_map] at hrun
  refine hrun.trans ?_
  rw [lastOperands]
  cases (calls.filterMap operands?).getLast? <;> rfl

theorem assignments_build : (build d calls).assignments = calls.flatMap named :=
  (foldl_append assignments
    (fun _ call => by cases call <;> simp [apply, addRecord, named, RecordRow.assignments])
    { dialect := d } calls).trans (List.nil_append _)

/-! ### The `SET` list -/

variable {calls}

/-- Whether a part of a `SET` list sets the column of an entry to its operand. -/
def IsAssignmentSql (owner : Option RecordType) (e : String × Operand Query)
    (part : Sql) : Prop :=
  ∃ sql, (e.2.map (Query.render d)).render owner = .ok (some sql)
    ∧ part = [.name e.1, .text "="] ++ sql

theorem isAssignmentSql_iff {owner : Option RecordType} {e : String × Operand Query} {part : Sql} :
    assignmentSql owner e.1 (e.2.map (Query.render d)) = .ok part
      ↔ IsAssignmentSql d owner e part := by
  rw [assignmentSql, Except.bind_eq_ok, IsAssignmentSql]
  constructor
  · rintro ⟨inner, hinner, h⟩
    cases inner with
    | none => cases h
    | some sql =>
      cases h
      exact ⟨sql, hinner, rfl⟩
  · rintro ⟨sql, hsql, rfl⟩
    exact ⟨some sql, hsql, rfl⟩

/-- What an update assigns stands for columns, and there are as many values by position as
fields. -/
theorem assigned_of_merged {owner : Option RecordType} {m : OrderedMap (Operand σ)}
    (h : (build d calls).merged owner = .ok m) :
    ∃ es, (∀ operands, lastOperands calls = some operands →
          operands.length = (lastFields calls).length)
      ∧ List.Forall₂ (fun b e => columnName owner b.name = .ok e.1 ∧ b.operand = e.2)
          (assigned calls) es
      ∧ OrderedMap.ofEntries es = m := by
  obtain ⟨positional, es, hpositional, hes, _, rfl⟩ := merged_eq_ok.1 h
  refine ⟨es, fun operands hoperands => ?_, ?_, rfl⟩
  · by_contra hlength
    simp [positionalAssignments, positional_build, fields_build, hoperands, hlength]
      at hpositional
  · have hassigned : positional ++ (build d calls).assignments = assigned calls := by
      rw [← positionalAssignments_eq hpositional, fields_build, positional_build,
        assignments_build, assigned]
    rw [hassigned] at hes
    refine (Except.mapM_eq_ok.1 hes).imp fun b e he => ?_
    obtain ⟨column, hcolumn, he⟩ := Except.bind_eq_ok.1 he
    cases he
    exact ⟨hcolumn, rfl⟩

/-- An update that assembles sets each column that it assigns once. -/
theorem assemble_setList {calls : List (UpdateCall Query)} {a : Assembled}
    (h : (Command.update (build d calls)).assemble = .ok a) :
    ∃ source target es setList parts filter returning,
      (build d calls).target = some source ∧ source.asTarget .update = .ok target
      ∧ (∀ operands, lastOperands calls = some operands →
          operands.length = (lastFields calls).length)
      ∧ List.Forall₂ (fun b e => columnName source.recordType? b.name = .ok e.1 ∧ b.operand = e.2)
          (assigned calls) es
      ∧ Entries.IsLatest es setList
      ∧ List.Forall₂ (IsAssignmentSql d source.recordType?) setList parts
      ∧ ((build d calls).filter.map (Query.render d)).renderClause " WHERE" d source.recordType?
          = .ok filter
      ∧ returningClause source.recordType? (build d calls).returning = .ok returning
      ∧ a.sql = "UPDATE " ++ d.spell target.sql ++ " SET "
          ++ String.intercalate ", " (Sql.spellAll d 0 parts)
          ++ (filter ++ returning).spell d (Sql.valuesAll parts).length
      ∧ a.values = Sql.valuesAll parts ++ filter.values := by
  have hdialect : (Command.update (build d calls)).dialect = d := dialect_build d calls
  obtain ⟨sql, hsql, rfl⟩ := (Command.assemble_eq_ok hdialect).1 h
  obtain ⟨_, _, source, target, m, parts, filter, returning, htarget, htargetSql, hm, hparts,
    hfilter, hreturning, rfl⟩ := render_eq_ok.1 hsql
  obtain ⟨source, hsource, rfl⟩ := Option.map_eq_some_iff.1 htarget
  rw [Source.recordType?_map] at hm hparts hfilter hreturning
  rw [Source.asTarget_map] at htargetSql
  obtain ⟨built, hbuilt, rfl⟩ := Except.map_eq_ok.1 ((merged_map ..).symm.trans hm)
  obtain ⟨es, hlength, hes, rfl⟩ := assigned_of_merged d hbuilt
  rw [OrderedMap.entries_map, Entries.map, List.mapM_map, Except.mapM_eq_ok] at hparts
  refine ⟨source, target, es, _, parts, filter, returning, hsource, htargetSql, hlength, hes,
    OrderedMap.isLatest_ofEntries es, hparts.imp fun e part => (isAssignmentSql_iff d).1, hfilter,
    hreturning, ?_, ?_⟩
  · show Sql.spell d 0 _ = _
    simp [TableRef.values_sql, String.append_assoc]
  · simp [values_returningClause hreturning, TableRef.values_sql]

/-- A record type whose attributes are named apart from their columns. -/
def renamedType : RecordType :=
  (({ table := "t" } : RecordType).declare "name" "full_name").declare "age" "years"

/-- Calls that give values by position, replace them, and then set the column of an attribute that
has a value already. -/
def overriding : List (UpdateCall Query) :=
  [.target (.table (.record { type := renamedType }) none), .fields ["name", "age"],
    .values [.value (.int 1), .value (.int 2)], .assign [⟨"full_name", .value (.int 3)⟩],
    .values [.value (.int 4), .value (.int 5)]]

theorem assemble_setList_overriding :
    (Command.update (build .generic overriding)).assemble
      = .ok ⟨"UPDATE \"t\" SET \"full_name\"=?, \"years\"=?", [.int 3, .int 5]⟩
    ∧ ∃ es setList,
      List.Forall₂ (fun b e => columnName (some renamedType) b.name = .ok e.1 ∧ b.operand = e.2)
        (assigned overriding) es
      ∧ Entries.IsLatest es setList := by
  have hassemble : (Command.update (build .generic overriding)).assemble
      = .ok ⟨"UPDATE \"t\" SET \"full_name\"=?, \"years\"=?", [.int 3, .int 5]⟩ := rfl
  obtain ⟨source, _, es, setList, _, _, _, htarget, _, _, hes, hlatest, _⟩ :=
    assemble_setList .generic hassemble
  cases htarget
  exact ⟨hassemble, es, setList, hes, hlatest⟩

end Update

end SqlAssembly
