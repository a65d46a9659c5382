import SqlAssembly.Proofs.Outcome
import SqlAssembly.Select.Render

/-!
# Scopes do not look into queries

Whatever is put in the place of the queries of a select, its sources are bound to the same names,
it passes the same checks, and the clauses that hold no query are the same. So a clause can be
written, rendered or traversed with the queries replaced by what was made of them.
-/

namespace SqlAssembly

variable {σ τ : Type} (f : σ → τ)

/-! ### Bindings -/

namespace Binding

@[simp] theorem qualifier_map (b : Binding σ) : (b.map f).qualifier = b.qualifier := rfl

@[simp] theorem columnSql_map (b : Binding σ) (column : SqlName) :
    (b.map f).columnSql column = b.columnSql column := rfl

@[simp] theorem listSql_map (b : Binding σ) (qualify : Bool) (columns : Columns) :
    (b.map f).listSql qualify columns = b.listSql qualify columns := rfl

theorem ofTable_map (taken : List String) (record : Option RecordType) (t : TableRef) :
    ofTable taken record t = (ofTable taken record t).map (map f) := by
  obtain ⟨schema, table, alias?⟩ := t
  cases alias? with
  | some aliasName =>
    simp only [ofTable]
    cases claimAlias aliasName taken with
    | error e => rfl
    | ok aliasName => by_cases h : table = .name aliasName <;> simp [h] <;> rfl
  | none =>
    cases table with
    | name name => by_cases h : name ∈ taken <;> simp [ofTable, h] <;> rfl
    | raw sql => rfl

theorem ofQuery_map (taken : List String) (q : σ) (alias? : Option String) :
    ofQuery taken (f q) alias? = (ofQuery taken q alias?).map (map f) := by
  cases alias? with
  | none => rfl
  | some aliasName =>
    cases h : claimAlias aliasName taken with
    | error e => simp [ofQuery, h]
    | ok aliasName =>
      simp [ofQuery, h]
      rfl

theorem ofSource_map (taken : List String) (s : Source σ) :
    ofSource taken (s.map f) = (ofSource taken s).map (map f) := by
  cases s with
  | table name schema =>
    simp only [Source.map, ofSource]
    cases name.asTable schema with
    | error e => rfl
    | ok t => exact ofTable_map f taken name.recordType? t
  | subquery q alias? => exact ofQuery_map f taken q alias?

end Binding

/-! ### Scopes -/

theorem SourceItem.bindAll_map (taken : List String) (items : List (SourceItem σ)) :
    bindAll taken (items.map (SourceItem.map f))
      = (bindAll taken items).map (List.map (BoundItem.map f)) := by
  induction items generalizing taken with
  | nil => rfl
  | cons i is ih =>
    match i with
    | .plain s cs | .lateral s cs =>
      simp only [List.map_cons, SourceItem.map, bindAll, Binding.ofSource_map]
      cases Binding.ofSource taken s with
      | error e => rfl
      | ok b =>
        simp only [Except.map_ok, Except.ok_bind, Binding.qualifier_map, ih]
        cases bindAll (taken ++ [b.qualifier]) is <;> rfl
    | .expressions cs =>
      simp only [List.map_cons, SourceItem.map, bindAll, ih]
      cases bindAll taken is <;> rfl

theorem Join.bindAll_map (taken : List String) (joins : List (Join σ)) :
    bindAll taken (joins.map (Join.map f))
      = (bindAll taken joins).map (List.map (BoundJoin.map f)) := by
  induction joins generalizing taken with
  | nil => rfl
  | cons j js ih =>
    simp only [List.map_cons, bindAll, Join.map, Binding.ofSource_map]
    cases Binding.ofSource taken j.source with
    | error e => rfl
    | ok b =>
      simp only [Except.map_ok, Except.ok_bind, Binding.qualifier_map, ih]
      cases bindAll (taken ++ [b.qualifier]) js <;> rfl

@[simp] theorem BoundItem.binding?_map (i : BoundItem σ) :
    (i.map f).binding? = i.binding?.map (Binding.map f) := by
  cases i <;> rfl

@[simp] theorem BoundItem.listSql_map (i : BoundItem σ) : (i.map f).listSql = i.listSql := by
  cases i <;> rfl

theorem BoundItem.sources_map (lateral : Bool) (items : List (BoundItem σ)) :
    sources lateral (items.map (BoundItem.map f))
      = (sources lateral items).map (Binding.map f) := by
  simp only [sources, List.filterMap_map, List.map_filterMap]
  refine List.filterMap_congr fun i _ => ?_
  cases i with
  | source b l columns => by_cases h : l = lateral <;> simp [BoundItem.map, h]
  | expressions columns => rfl

namespace Scope

theorem fromBindings_map (s : Scope σ) :
    (s.map f).fromBindings = s.fromBindings.map (Binding.map f) := by
  simp only [fromBindings, map, List.filterMap_map, List.map_filterMap]
  exact List.filterMap_congr fun i _ => BoundItem.binding?_map f i

/-- Sources are bound to the same names whatever their queries are. -/
theorem bind_map (s : Select σ) : bind (s.map f) = (bind s).map (map f) := by
  simp only [bind, Select.map, SourceItem.bindAll_map]
  cases SourceItem.bindAll [] s.items with
  | error e => rfl
  | ok items =>
    have hq := congrArg (List.map Binding.qualifier) (fromBindings_map f ⟨items, []⟩)
    simp only [fromBindings, map, List.map_map, Function.comp_def, Binding.qualifier_map] at hq
    simp only [Except.map_ok, Except.ok_bind, hq, Join.bindAll_map]
    cases Join.bindAll (List.map Binding.qualifier (items.filterMap BoundItem.binding?)) s.joins <;>
      rfl

@[simp] theorem selectList_map (s : Scope σ) : (s.map f).selectList = s.selectList := by
  simp only [selectList, map, List.mapM_map]
  simp [Function.comp_def, BoundJoin.map, Join.map]

end Scope

/-! ### Conditions -/

namespace Condition

@[simp] theorem check_map (c : Condition σ) : (c.map f).check = c.check := by
  simp only [check, map, List.length_map]
  rfl

@[simp] theorem isEmpty_map (c : Condition σ) : (c.map f).isEmpty = c.isEmpty := by
  obtain ⟨style, root, opened, unopened⟩ := c
  cases root <;> cases opened <;> rfl

end Condition

/-! ### Checks -/

namespace Select

theorem isSource_map (i : SourceItem σ) : (i.map f).isSource = i.isSource := by
  cases i <;> rfl

theorem checkMembers_map (us : List (UnionPart σ)) :
    checkMembers (us.map (UnionPart.map f)) = checkMembers us := by
  induction us with
  | nil => rfl
  | cons u us ih =>
    obtain ⟨m, kind⟩ := u
    cases m <;> simp [checkMembers, UnionPart.map, UnionMember.map, ih]

@[simp] theorem check_map (s : Select σ) : (s.map f).check = s.check := by
  have hb : (s.map f).checkBareUnion = s.checkBareUnion := by
    simp [checkBareUnion, hasSourceClause, map]
  have hs : (s.map f).items.any SourceItem.isSource = s.items.any SourceItem.isSource := by
    simp [map, Function.comp_def, isSource_map]
  simp only [check, hb, hs]
  simp only [map, Condition.check_map, checkMembers_map, List.isEmpty_map]

@[simp] theorem target_map (s : Select σ) : (s.map f).target = s.target := by
  obtain ⟨_, _, items, joins⟩ := s
  match items, joins with
  | [], _ | [.lateral _ _], _ | [.expressions _], _ => rfl
  | i :: _ :: _, _ => cases i <;> rfl
  | [.plain source columns], [] => cases source <;> rfl
  | [.plain source columns], _ :: _ => rfl

@[simp] theorem joinOnSql_map (prior : List (Binding σ)) (j : BoundJoin σ) :
    joinOnSql (prior.map (Binding.map f)) (j.map f) = joinOnSql prior j := by
  obtain ⟨⟨kind, source, condition, columns⟩, b⟩ := j
  simp only [joinOnSql, BoundJoin.map, Join.map]
  split
  · rfl
  · rfl
  · rfl
  · rename_i condition _
    cases condition with
    | raw sql => rfl
    | columns field other otherField operator =>
      simp only [joinConditionSql, List.find?_map, Function.comp_def, Binding.qualifier_map]
      cases other.asQualifier with
      | error e => rfl
      | ok q =>
        cases h : prior.find? fun b => b.qualifier == q.name with
        | none => simp [h]
        | some b =>
          simp [h]
          rfl

@[simp] theorem tailSql_map (s : Select σ) : (s.map f).tailSql = s.tailSql := rfl

end Select

end SqlAssembly
