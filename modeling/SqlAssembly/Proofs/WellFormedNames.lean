import SqlAssembly.Proofs.Bindings
import SqlAssembly.Proofs.BoundValues
import SqlAssembly.Proofs.UncheckedNames

/-!
# Malformed names

A name comes into the SQL of a command in one of two ways. It is checked, and then it is neither
empty nor holds a NUL; or it is one of `Command.unchecked`. So if a command assembles and these are
well-formed, all names that its SQL quotes are (`Command.wellFormedNames_assemble`).
-/

namespace SqlAssembly

variable {σ : Type} {f : σ → Rendered} {g : σ → List String}
  (h : ∀ q sql, f q = .ok sql → WellFormedNames (g q) → WellFormedNames sql.names)
  {d : Dialect} {owner : Option RecordType}

/-! ### Conditions -/

include h in
theorem Operand.wellFormedNames_render {o : Operand σ} {sql : Sql}
    (hsql : (o.map f).render owner = .ok (some sql))
    (hu : WellFormedNames ((o.map g).unchecked owner)) : WellFormedNames sql.names := by
  cases o with
  | absent => cases hsql
  | value v =>
    cases hsql
    exact .nil
  | literal s =>
    cases hsql
    exact .nil
  | field c =>
    obtain ⟨field, hfield, hsql⟩ := Except.bind_eq_ok.1 hsql
    cases hsql
    exact Field.wellFormedNames_sql hfield hu
  | subquery q =>
    obtain ⟨inner, hinner, hsql⟩ := Except.bind_eq_ok.1 hsql
    cases hsql
    simpa using h q inner hinner hu

include h in
theorem Predicate.wellFormedNames_render {p : Predicate σ} {sql : Sql}
    (hsql : (p.map f).render d owner = .ok sql) (hfield : WellFormedNames (p.field.unchecked owner))
    (hoperand : WellFormedNames ((p.operand.map g).unchecked owner)) :
    WellFormedNames sql.names := by
  obtain ⟨_, _, hsql⟩ := Except.bind_eq_ok.1 hsql
  obtain ⟨field, hfieldSql, hsql⟩ := Except.bind_eq_ok.1 hsql
  obtain ⟨operand, hoperandSql, hsql⟩ := Except.bind_eq_ok.1 hsql
  have hfield := Field.wellFormedNames_sql hfieldSql hfield
  cases hsql
  cases operand with
  | none => split <;> simpa [spaced] using hfield
  | some sql =>
    have hoperand := Operand.wellFormedNames_render h hoperandSql hoperand
    split <;> simpa [spaced] using ⟨hfield, hoperand⟩

namespace Node

theorem names_joinSiblings (parts : List (Connector × Sql)) :
    (joinSiblings parts).names = parts.flatMap fun part => part.2.names := by
  cases parts with
  | nil => rfl
  | cons first rest =>
    rw [joinSiblings, Sql.names_append, List.flatMap_cons]
    congr 1
    induction rest with
    | nil => rfl
    | cons part parts ih => simp [ih]

mutual

theorem wellFormedNames_render
    (h : ∀ q sql, f q = .ok sql → WellFormedNames (g q) → WellFormedNames sql.names)
    {style : ConditionStyle} {n : Node σ} {sql : Sql}
    (hsql : (n.map f).render d owner style = .ok (some sql))
    (hu : WellFormedNames ((n.map g).unchecked owner)) : WellFormedNames sql.names := by
  match n with
  | leaf c p =>
    obtain ⟨inner, hinner, hsql⟩ :=
      Except.bind_eq_ok.1 (by simpa only [Node.map, render] using hsql)
    cases hsql
    obtain ⟨hfield, hoperand⟩ :=
      WellFormedNames.append_iff.1 (by simpa [Node.map, unchecked] using hu)
    simpa using Predicate.wellFormedNames_render h hinner hfield hoperand
  | group c ns =>
    obtain ⟨parts, hparts, hsql⟩ :=
      Except.bind_eq_ok.1 (by simpa only [Node.map, render] using hsql)
    have hnames := wellFormedNames_renderAll h hparts (by simpa [Node.map, unchecked] using hu)
    split at hsql
    · cases hsql
    · cases hsql
      simpa using hnames

theorem wellFormedNames_renderAll
    (h : ∀ q sql, f q = .ok sql → WellFormedNames (g q) → WellFormedNames sql.names)
    {style : ConditionStyle} {ns : List (Node σ)} {parts : List (Connector × Sql)}
    (hparts : renderAll d owner style (mapAll f ns) = .ok parts)
    (hu : WellFormedNames (uncheckedAll owner (mapAll g ns))) :
    WellFormedNames (joinSiblings parts).names := by
  rw [names_joinSiblings]
  match ns with
  | [] =>
    cases hparts
    exact .nil
  | n :: ns =>
    obtain ⟨first, hfirst, hparts⟩ :=
      Except.bind_eq_ok.1 (by simpa only [mapAll, renderAll] using hparts)
    obtain ⟨rest, hrest, hparts⟩ := Except.bind_eq_ok.1 hparts
    obtain ⟨hn, hns⟩ := WellFormedNames.append_iff.1 (by simpa [mapAll, uncheckedAll] using hu)
    have hrest := wellFormedNames_renderAll h hrest hns
    rw [names_joinSiblings] at hrest
    cases hparts
    cases first with
    | none => exact hrest
    | some sql =>
      rw [List.flatMap_cons, WellFormedNames.append_iff]
      exact ⟨wellFormedNames_render h hfirst hn, hrest⟩

end

end Node

include h in
theorem Condition.wellFormedNames_renderClause {keyword : String} {c : Condition σ} {sql : Sql}
    (hsql : (c.map f).renderClause keyword d owner = .ok sql)
    (hu : WellFormedNames ((c.map g).unchecked owner)) : WellFormedNames sql.names := by
  obtain ⟨condition, hcondition, hsql⟩ := Except.bind_eq_ok.1 hsql
  obtain ⟨_, _, hcondition⟩ := Except.bind_eq_ok.1 hcondition
  obtain ⟨parts, hparts, hcondition⟩ := Except.bind_eq_ok.1 hcondition
  have hnames := Node.wellFormedNames_renderAll h hparts hu
  cases hcondition
  split at hsql
  · cases hsql
    exact .nil
  · cases hsql
    simpa using hnames

/-! ### Sources -/

theorem wellFormedName_numbered {base : String} (hbase : WellFormedName base) (n : Nat) :
    WellFormedName (numbered base n) := by
  constructor
  · simp [numbered, String.append_eq_empty_iff, hbase.1]
  · rw [numbered, String.toList_append, String.toList_append, List.mem_append, List.mem_append]
    rintro ((hnul | hnul) | hnul)
    · exact hbase.2 hnul
    · exact absurd hnul (by decide)
    · exact absurd (isDigit_of_mem_toString hnul) (by decide)

theorem wellFormedName_freshAlias {base : String} (hbase : WellFormedName base)
    (taken : List String) : WellFormedName (freshAlias base taken) := by
  unfold freshAlias
  split
  · exact hbase
  · exact wellFormedName_numbered hbase _

/-- The names that a bound source is written with, its query replaced by what it brings. -/
def Binding.names (b : Binding (List String)) : List String :=
  b.qualifier :: b.alias?.toList ++ b.schema.toList
    ++ match b.body with
      | .table table schema => table.names ++ schema.toList
      | .query names => names

namespace Binding

theorem wellFormedNames_ofTable {taken : List String} {record : Option RecordType} {t : TableRef}
    {b : Binding σ} (hb : ofTable taken record t = .ok b) (ht : WellFormedNames t.names) :
    WellFormedNames (b.map g).names := by
  obtain ⟨schema, table, alias?⟩ := t
  simp only [TableRef.names, WellFormedNames.append_iff] at ht
  obtain ⟨⟨hschema, htable⟩, halias⟩ := ht
  cases alias? with
  | some aliasName =>
    obtain ⟨name, hname, hb⟩ := Except.bind_eq_ok.1 hb
    obtain ⟨rfl, -⟩ := claimAlias_eq_ok.1 hname
    cases hb
    split <;> simp_all [names, map, SourceBody.map]
  | none =>
    cases table with
    | name name =>
      have hname : WellFormedName name := by simpa [SqlName.names] using htable
      cases hb
      split <;> simp_all [names, map, SourceBody.map, wellFormedName_freshAlias]
    | raw sql =>
      have ht : WellFormedName "t" := by decide
      cases hb
      simp_all [names, map, SourceBody.map, wellFormedName_freshAlias]

theorem wellFormedNames_ofSource {taken : List String} {s : Source σ} {b : Binding σ}
    (hb : ofSource taken s = .ok b) (hu : WellFormedNames (s.map g).unchecked) :
    WellFormedNames (b.map g).names := by
  cases s with
  | table name schema =>
    obtain ⟨t, ht, hb⟩ := Except.bind_eq_ok.1 hb
    exact wellFormedNames_ofTable hb (Identifier.wellFormedNames_asTable ht hu)
  | subquery q alias? =>
    obtain ⟨halias, hq⟩ := WellFormedNames.append_iff.1 hu
    cases alias? with
    | some aliasName =>
      obtain ⟨name, hname, hbound⟩ := Except.bind_eq_ok.1 hb
      obtain ⟨rfl, -⟩ := claimAlias_eq_ok.1 hname
      cases hbound
      simp_all [names, map, SourceBody.map]
    | none =>
      have ht : WellFormedName "t" := by decide
      cases hb
      simp_all [names, map, SourceBody.map, wellFormedName_freshAlias]

include h in
theorem wellFormedNames_sql {b : Binding σ} {sql : Sql} (hsql : (b.map f).sql = .ok sql)
    (hb : WellFormedNames (b.map g).names) : WellFormedNames sql.names := by
  obtain ⟨qualifier, alias?, schema, qualifies, record, body⟩ := b
  cases body with
  | table table schema =>
    cases hsql
    simp_all [names, map, SourceBody.map, names_aliasSql, wellFormedNames_tableSql]
  | query q =>
    obtain ⟨inner, hinner, hsql⟩ := Except.bind_eq_ok.1 hsql
    cases hsql
    have hq := h q inner hinner
    simp_all [names, map, SourceBody.map, names_aliasSql]

variable {b : Binding σ} (hb : WellFormedNames (b.map g).names)

include hb

theorem wellFormedName_qualifier :
    WellFormedName b.qualifier ∧ WellFormedNames b.schema.toList := by
  simp only [names, WellFormedNames.append_iff, WellFormedNames.cons_iff] at hb
  exact ⟨hb.1.1.1, hb.1.2⟩

theorem wellFormedNames_columnSql {column : SqlName} {sql : Sql} (h : b.columnSql column = .ok sql)
    (hcolumn : WellFormedNames column.names) : WellFormedNames sql.names := by
  obtain ⟨hqualifier, hschema⟩ := wellFormedName_qualifier hb
  exact SqlAssembly.wellFormedNames_columnSql h hcolumn .nil (by simpa using hqualifier) hschema

theorem wellFormedNames_listSql {qualify : Bool} {columns : Columns} {parts : List Sql}
    (h : b.listSql qualify columns = .ok parts)
    (hu : WellFormedNames (columns.unchecked b.record)) :
    ∀ part ∈ parts, WellFormedNames part.names := by
  obtain ⟨hqualifier, hschema⟩ := wellFormedName_qualifier hb
  rw [Columns.unchecked, WellFormedNames.flatMap_iff] at hu
  unfold Binding.listSql at h
  split at h
  · obtain ⟨sql, hsql, h⟩ := Except.bind_eq_ok.1 h
    cases h
    have hstar : WellFormedNames (SqlName.name "*").names := by decide
    simpa using wellFormedNames_columnSql hb hsql hstar
  · split at h
    · refine Except.forall_mem_of_mapM (fun c hc sql hsql => ?_) h
      exact Column.wellFormedNames_sql hsql (hu c hc) (by simpa using hqualifier) hschema
    · refine Except.forall_mem_of_mapM (fun c hc sql hsql => ?_) h
      exact Column.wellFormedNames_plain hsql (hu c hc)

end Binding

namespace BoundItem

/-- The sources of one kind are among all sources. -/
theorem sources_subset {lateral : Bool} {items : List (BoundItem σ)} :
    sources lateral items ⊆ items.filterMap binding? := by
  intro b hb
  obtain ⟨i, hi, hib⟩ := List.mem_filterMap.1 hb
  refine List.mem_filterMap.2 ⟨i, hi, ?_⟩
  cases i with
  | source binding l columns =>
    dsimp only at hib
    split at hib
    · exact hib
    · cases hib
  | expressions columns => cases hib

theorem wellFormedNames_listSql {i : BoundItem σ} {parts : List Sql} (hi : i.listSql = .ok parts)
    (hb : ∀ b, i.binding? = some b → WellFormedNames (b.map g).names)
    (hu : WellFormedNames i.uncheckedColumns) : ∀ part ∈ parts, WellFormedNames part.names := by
  cases i with
  | source b l columns => exact Binding.wellFormedNames_listSql (hb b rfl) hi hu
  | expressions columns =>
    have hu := WellFormedNames.flatMap_iff.1 hu
    refine Except.forall_mem_of_mapM (fun c hc sql hsql => ?_) hi
    exact Column.wellFormedNames_plain hsql (hu c hc)

end BoundItem

theorem SourceItem.wellFormedNames_bindAll {taken : List String} {items : List (SourceItem σ)}
    {bs : List (BoundItem σ)} (hbs : bindAll taken items = .ok bs)
    (hu : ∀ i ∈ items, WellFormedNames (i.map g).unchecked) :
    ∀ b ∈ bs.filterMap BoundItem.binding?, WellFormedNames (b.map g).names := by
  induction items generalizing taken bs with
  | nil =>
    cases hbs
    simp
  | cons i is ih =>
    obtain ⟨hi, his⟩ := List.forall_mem_cons.1 hu
    match i with
    | .plain s _ | .lateral s _ =>
      obtain ⟨b, hb, hbs⟩ := Except.bind_eq_ok.1 (by simpa only [bindAll] using hbs)
      obtain ⟨rest, hrest, hbs⟩ := Except.bind_eq_ok.1 hbs
      cases hbs
      exact List.forall_mem_cons.2 ⟨Binding.wellFormedNames_ofSource hb hi, ih hrest his⟩
    | .expressions _ =>
      obtain ⟨rest, hrest, hbs⟩ := Except.bind_eq_ok.1 (by simpa only [bindAll] using hbs)
      cases hbs
      exact fun b hb => ih hrest his b hb

theorem Join.wellFormedNames_bindAll {taken : List String} {joins : List (Join σ)}
    {bs : List (BoundJoin σ)} (hbs : bindAll taken joins = .ok bs)
    (hu : ∀ j ∈ joins, WellFormedNames (j.source.map g).unchecked) :
    ∀ j ∈ bs, WellFormedNames (j.binding.map g).names := by
  induction joins generalizing taken bs with
  | nil =>
    cases hbs
    simp
  | cons j js ih =>
    obtain ⟨hj, hjs⟩ := List.forall_mem_cons.1 hu
    obtain ⟨b, hb, hbs⟩ := Except.bind_eq_ok.1 (by simpa only [bindAll] using hbs)
    obtain ⟨rest, hrest, hbs⟩ := Except.bind_eq_ok.1 hbs
    cases hbs
    exact List.forall_mem_cons.2 ⟨Binding.wellFormedNames_ofSource hb hj, ih hrest hjs⟩

theorem Scope.wellFormedNames_bind {s : Select σ} {scope : Scope σ} (hscope : bind s = .ok scope)
    (hitems : ∀ i ∈ s.items, WellFormedNames (i.map g).unchecked)
    (hjoins : ∀ j ∈ s.joins, WellFormedNames (j.source.map g).unchecked) :
    (∀ b ∈ scope.fromBindings, WellFormedNames (b.map g).names)
    ∧ ∀ j ∈ scope.joins, WellFormedNames (j.binding.map g).names := by
  obtain ⟨hbound, hjoined⟩ := bind_eq_ok.1 hscope
  exact ⟨SourceItem.wellFormedNames_bindAll hbound hitems,
    Join.wellFormedNames_bindAll hjoined hjoins⟩

/-! ### Selects -/

namespace Select

theorem wellFormedNames_joinConditionSql {prior : List (Binding σ)} {joined : Binding σ}
    {condition : JoinCondition} {sql : Sql}
    (hsql : joinConditionSql prior joined condition = .ok sql)
    (hprior : ∀ b ∈ prior, WellFormedNames (b.map g).names)
    (hjoined : WellFormedNames (joined.map g).names)
    (hu : WellFormedNames (condition.unchecked prior joined)) : WellFormedNames sql.names := by
  cases condition with
  | raw sql =>
    cases hsql
    exact .nil
  | columns field other otherField operator =>
    obtain ⟨q, hq, hsql⟩ := Except.bind_eq_ok.1 hsql
    dsimp only at hsql
    split at hsql
    · cases hsql
    · rename_i b hb
      obtain ⟨otherColumn, hother, hsql⟩ := Except.bind_eq_ok.1 hsql
      obtain ⟨left, hleft, hsql⟩ := Except.bind_eq_ok.1 hsql
      obtain ⟨column, hcolumn, hsql⟩ := Except.bind_eq_ok.1 hsql
      obtain ⟨right, hright, hsql⟩ := Except.bind_eq_ok.1 hsql
      cases hsql
      obtain ⟨hotherNames, hfieldNames⟩ :=
        WellFormedNames.append_iff.1 (by simpa [JoinCondition.unchecked, hq, hb] using hu)
      have hprior := hprior b (List.mem_of_find?_eq_some hb)
      have hleft := Binding.wellFormedNames_columnSql hprior hleft
        (Identifier.wellFormedNames_asColumn hother hotherNames).1
      have hright := Binding.wellFormedNames_columnSql hjoined hright
        (Identifier.wellFormedNames_asColumn hcolumn hfieldNames).1
      simpa using ⟨hleft, hright⟩

theorem wellFormedNames_joinOnSql {prior : List (Binding σ)} {j : BoundJoin σ} {sql : Sql}
    (hsql : joinOnSql prior j = .ok sql)
    (hprior : ∀ b ∈ prior, WellFormedNames (b.map g).names)
    (hjoined : WellFormedNames (j.binding.map g).names)
    (hu : WellFormedNames (j.join.condition.toList.flatMap
      (JoinCondition.unchecked prior j.binding))) : WellFormedNames sql.names := by
  unfold joinOnSql at hsql
  split at hsql
  · cases hsql
    exact .nil
  · cases hsql
  · cases hsql
  · rename_i condition hcondition _
    exact wellFormedNames_joinConditionSql hsql hprior hjoined (by simpa [hcondition] using hu)

include h in
theorem wellFormedNames_joinsSql {prior : List (Binding σ)} {joins : List (BoundJoin σ)}
    {clauses : List Sql}
    (hclauses : joinsSql (prior.map (Binding.map f)) (joins.map (BoundJoin.map f)) = .ok clauses)
    (hprior : ∀ b ∈ prior, WellFormedNames (b.map g).names)
    (hjoins : ∀ j ∈ joins, WellFormedNames (j.binding.map g).names)
    (hu : WellFormedNames (Join.uncheckedConditions prior joins)) :
    ∀ clause ∈ clauses, WellFormedNames clause.names := by
  induction joins generalizing prior clauses with
  | nil =>
    cases hclauses
    simp
  | cons j js ih =>
    obtain ⟨first, hfirst, hclauses⟩ :=
      Except.bind_eq_ok.1 (by simpa only [List.map_cons, joinsSql] using hclauses)
    obtain ⟨rest, hrest, hclauses⟩ := Except.bind_eq_ok.1 hclauses
    obtain ⟨source, hsource, hfirst⟩ := Except.bind_eq_ok.1 hfirst
    obtain ⟨condition, hcondition, hfirst⟩ := Except.bind_eq_ok.1 hfirst
    rw [joinOnSql_map] at hcondition
    have hrest : joinsSql ((prior ++ [j.binding]).map (Binding.map f))
        (js.map (BoundJoin.map f)) = .ok rest := by
      simpa [BoundJoin.map] using hrest
    obtain ⟨hj, hjs⟩ := List.forall_mem_cons.1 hjoins
    obtain ⟨hu, hus⟩ := WellFormedNames.append_iff.1 hu
    have hsource := Binding.wellFormedNames_sql h hsource hj
    have hcondition := wellFormedNames_joinOnSql hcondition hprior hj hu
    have hprior : ∀ b ∈ prior ++ [j.binding], WellFormedNames (b.map g).names :=
      List.forall_mem_append.2 ⟨hprior, by simpa using hj⟩
    cases hfirst
    cases hclauses
    exact List.forall_mem_cons.2 ⟨by simpa using ⟨hsource, hcondition⟩, ih hrest hprior hjs hus⟩

include h in
theorem wellFormedNames_fromSql {items : List (BoundItem σ)} {sql : Sql}
    (hsql : fromSql (items.map (BoundItem.map f)) = .ok sql)
    (hitems : ∀ b ∈ items.filterMap BoundItem.binding?, WellFormedNames (b.map g).names) :
    WellFormedNames sql.names := by
  obtain ⟨plain, hplain, hsql⟩ := Except.bind_eq_ok.1 hsql
  obtain ⟨lateral, hlateral, hsql⟩ := Except.bind_eq_ok.1 hsql
  rw [BoundItem.sources_map, List.mapM_map] at hplain hlateral
  have hplain : ∀ sql ∈ plain, WellFormedNames sql.names := by
    refine Except.forall_mem_of_mapM (fun b hb sql hsql => ?_) hplain
    exact Binding.wellFormedNames_sql h hsql (hitems b (BoundItem.sources_subset hb))
  have hlateral : ∀ sql ∈ lateral, WellFormedNames sql.names := by
    refine Except.forall_mem_of_mapM (fun b hb sql hsql => ?_) hlateral
    obtain ⟨source, hsource, hsql⟩ := Except.bind_eq_ok.1 hsql
    cases hsql
    simpa using Binding.wellFormedNames_sql h hsource (hitems b (BoundItem.sources_subset hb))
  have htables := List.forall_mem_append.2 ⟨hplain, hlateral⟩
  cases hall : plain ++ lateral with
  | nil =>
    rw [hall] at hsql
    cases hsql
    exact .nil
  | cons t ts =>
    rw [hall] at hsql htables
    cases hsql
    simpa using htables

theorem wellFormedNames_selectList {scope : Scope σ} {columns : List Sql}
    (hcolumns : scope.selectList = .ok columns)
    (hfrom : ∀ b ∈ scope.fromBindings, WellFormedNames (b.map g).names)
    (hjoins : ∀ j ∈ scope.joins, WellFormedNames (j.binding.map g).names)
    (hu : WellFormedNames scope.unchecked) : ∀ column ∈ columns, WellFormedNames column.names := by
  obtain ⟨items, hitems, hcolumns⟩ := Except.bind_eq_ok.1 hcolumns
  obtain ⟨joins, hjoined, hcolumns⟩ := Except.bind_eq_ok.1 hcolumns
  simp only [Scope.unchecked, WellFormedNames.append_iff, WellFormedNames.flatMap_iff] at hu
  obtain ⟨⟨hitemNames, hjoinNames⟩, -⟩ := hu
  have hitems : ∀ parts ∈ items, ∀ part ∈ parts, WellFormedNames (Sql.names part) := by
    refine Except.forall_mem_of_mapM (fun i hi parts hparts => ?_) hitems
    have hbound (b : Binding σ) (hb : i.binding? = some b) : WellFormedNames (b.map g).names :=
      hfrom b (List.mem_filterMap.2 ⟨i, hi, hb⟩)
    exact BoundItem.wellFormedNames_listSql hparts hbound (hitemNames i hi)
  have hjoined : ∀ parts ∈ joins, ∀ part ∈ parts, WellFormedNames (Sql.names part) := by
    refine Except.forall_mem_of_mapM (fun j hj parts hparts => ?_) hjoined
    have hadded := hjoinNames j hj
    rw [BoundJoin.uncheckedColumns] at hadded
    cases hcolumns : j.join.columns with
    | none =>
      rw [hcolumns] at hparts
      cases hparts
      simp
    | some columns =>
      rw [hcolumns] at hparts hadded
      exact Binding.wellFormedNames_listSql (hjoins j hj) hparts (by simpa using hadded)
  split at hcolumns
  · cases hcolumns
  · cases hcolumns
    intro column hcolumn
    obtain ⟨parts, hparts, hcolumn⟩ := List.mem_flatten.1 hcolumn
    rcases List.mem_append.1 hparts with hparts | hparts
    · exact hitems parts hparts column hcolumn
    · exact hjoined parts hparts column hcolumn

theorem wellFormedNames_groupBySql {fields : List Field} {sql : Sql}
    (hsql : groupBySql fields = .ok sql)
    (hu : WellFormedNames (fields.flatMap (Field.unchecked none))) : WellFormedNames sql.names := by
  unfold groupBySql at hsql
  split at hsql
  · cases hsql
    exact .nil
  · obtain ⟨parts, hparts, hsql⟩ := Except.bind_eq_ok.1 hsql
    cases hsql
    rw [WellFormedNames.flatMap_iff] at hu
    simpa using Except.forall_mem_of_mapM
      (fun field hfield sql hsql => Field.wellFormedNames_sql hsql (hu field hfield)) hparts

theorem wellFormedNames_orderBySql {fields : List (Field × Direction)} {sql : Sql}
    (hsql : orderBySql fields = .ok sql)
    (hu : WellFormedNames (fields.flatMap fun part => part.1.unchecked none)) :
    WellFormedNames sql.names := by
  unfold orderBySql at hsql
  split at hsql
  · cases hsql
    exact .nil
  · obtain ⟨parts, hparts, hsql⟩ := Except.bind_eq_ok.1 hsql
    cases hsql
    rw [WellFormedNames.flatMap_iff] at hu
    have hparts : ∀ sql ∈ parts, WellFormedNames sql.names := by
      refine Except.forall_mem_of_mapM (fun part hpart sql hsql => ?_) hparts
      obtain ⟨field, hfield, hsql⟩ := Except.bind_eq_ok.1 hsql
      cases hsql
      simpa using Field.wellFormedNames_sql hfield (hu part hpart)
    simpa using hparts

theorem names_limitSql (limit offset : Option Int64) : (limitSql limit offset).names = [] := by
  cases limit <;> cases offset <;> rfl

theorem wellFormedNames_tailSql {s : Select σ} {clauses : List Sql}
    (hclauses : s.tailSql = .ok clauses)
    (hu : WellFormedNames (s.orderBy.flatMap fun part => part.1.unchecked none)) :
    ∀ clause ∈ clauses, WellFormedNames clause.names := by
  obtain ⟨orderBy, horderBy, hclauses⟩ := Except.bind_eq_ok.1 hclauses
  cases hclauses
  have horderBy := wellFormedNames_orderBySql horderBy hu
  cases s.forUpdate <;> simpa [names_limitSql] using horderBy

include h in
theorem wellFormedNames_unionsSql {bare : Bool} {unions : List (UnionPart σ)} {members : List Sql}
    (hmembers : unionsSql bare (unions.map (UnionPart.map f)) = .ok members)
    (hu : WellFormedNames (unions.flatMap fun u => (u.member.map g).queries.flatten)) :
    ∀ member ∈ members, WellFormedNames member.names := by
  induction unions generalizing bare members with
  | nil =>
    cases hmembers
    simp
  | cons u us ih =>
    obtain ⟨first, hfirst, hmembers⟩ :=
      Except.bind_eq_ok.1 (by simpa only [List.map_cons, unionsSql] using hmembers)
    obtain ⟨rest, hrest, hmembers⟩ := Except.bind_eq_ok.1 hmembers
    obtain ⟨hunion, hunions⟩ := WellFormedNames.append_iff.1 hu
    have hfirst : WellFormedNames first.names := by
      obtain ⟨m, kind⟩ := u
      cases m with
      | query q =>
        exact h q first hfirst (by simpa [UnionMember.map, UnionMember.queries] using hunion)
      | literal sql =>
        cases hfirst
        exact .nil
      | refused kind => cases hfirst
    have hrest := ih hrest hunions
    cases hmembers
    cases bare <;> simpa [hfirst] using hrest

include h in
theorem wellFormedNames_headSql {s : Select σ} {clauses : List Sql}
    (hclauses : (s.map f).headSql = .ok clauses)
    (hitems : ∀ i ∈ s.items, WellFormedNames (i.map g).unchecked)
    (hjoins : ∀ j ∈ s.joins, WellFormedNames (j.source.map g).unchecked)
    (hscope : ∀ scope, Scope.bind s = .ok scope → WellFormedNames scope.unchecked) :
    ∀ clause ∈ clauses, WellFormedNames clause.names := by
  obtain ⟨bound, hbound, hclauses⟩ := Except.bind_eq_ok.1 hclauses
  rw [Scope.bind_map] at hbound
  obtain ⟨scope, hbind, rfl⟩ := Except.map_eq_ok.1 hbound
  obtain ⟨columns, hcolumns, hclauses⟩ := Except.bind_eq_ok.1 hclauses
  obtain ⟨sources, hsources, hclauses⟩ := Except.bind_eq_ok.1 hclauses
  obtain ⟨joined, hjoined, hclauses⟩ := Except.bind_eq_ok.1 hclauses
  rw [Scope.fromBindings_map] at hjoined
  rw [Scope.selectList_map] at hcolumns
  obtain ⟨hfrom, hjoin⟩ := Scope.wellFormedNames_bind hbind hitems hjoins
  have hu := hscope scope hbind
  have hcolumns := wellFormedNames_selectList hcolumns hfrom hjoin hu
  have hsources := wellFormedNames_fromSql h hsources hfrom
  have hjoined := wellFormedNames_joinsSql h hjoined hfrom hjoin (WellFormedNames.append_iff.1 hu).2
  cases hclauses
  refine List.forall_mem_cons.2 ⟨?_, List.forall_mem_cons.2 ⟨hsources, hjoined⟩⟩
  simpa [listSql] using hcolumns

include h in
theorem wellFormedNames_filterSql {s : Select σ} {clauses : List Sql}
    (hclauses : (s.map f).filterSql d = .ok clauses)
    (hfilter : WellFormedNames ((s.filter.map g).unchecked s.target))
    (hgroupBy : WellFormedNames (s.groupBy.flatMap (Field.unchecked none)))
    (hhaving : WellFormedNames ((s.having.map g).unchecked none)) :
    ∀ clause ∈ clauses, WellFormedNames clause.names := by
  obtain ⟨filterSql, hfilterSql, hclauses⟩ := Except.bind_eq_ok.1 hclauses
  obtain ⟨groupBy, hgroupBySql, hclauses⟩ := Except.bind_eq_ok.1 hclauses
  obtain ⟨having, hhavingSql, hclauses⟩ := Except.bind_eq_ok.1 hclauses
  rw [target_map] at hfilterSql
  have hfilter := Condition.wellFormedNames_renderClause h hfilterSql hfilter
  have hhaving := Condition.wellFormedNames_renderClause h hhavingSql hhaving
  have hgroupBy := wellFormedNames_groupBySql hgroupBySql hgroupBy
  cases hclauses
  simpa using ⟨hfilter, hgroupBy, hhaving⟩

include h in
theorem wellFormedNames_render {s : Select σ} {sql : Sql} (hsql : (s.map f).render d = .ok sql)
    (hu : WellFormedNames (s.map g).unchecked) : WellFormedNames sql.names := by
  simp only [unchecked_map, WellFormedNames.append_iff, and_assoc] at hu
  obtain ⟨hitems, hjoins, hscope, hfilter, hgroupBy, hhaving, horderBy, hunions⟩ := hu
  rw [WellFormedNames.flatMap_iff] at hitems hjoins
  obtain ⟨_, hsql⟩ := render_eq_ok.1 hsql
  have hpresent (clauses : List Sql) (hclauses : ∀ c ∈ clauses, WellFormedNames c.names) :
      ∀ c ∈ present clauses, WellFormedNames c.names :=
    fun c hc => hclauses c (List.mem_of_mem_filter hc)
  split at hsql
  · obtain ⟨members, tail, hmembers, htail, rfl⟩ := hsql
    have hmembers := wellFormedNames_unionsSql h hmembers hunions
    have htail := hpresent tail (wellFormedNames_tailSql htail horderBy)
    rw [Sql.names_join, WellFormedNames.flatMap_iff]
    exact List.forall_mem_append.2 ⟨hmembers, htail⟩
  · obtain ⟨head, filter, tail, members, hhead, hfilterSql, htail, hmembers, rfl⟩ := hsql
    have hscope (scope : Scope σ) (hbind : Scope.bind s = .ok scope) :
        WellFormedNames scope.unchecked := by
      rw [hbind] at hscope
      exact hscope
    have hhead := wellFormedNames_headSql h hhead hitems hjoins hscope
    have hfilter := wellFormedNames_filterSql h hfilterSql hfilter hgroupBy hhaving
    have htail := wellFormedNames_tailSql htail horderBy
    have hmembers := wellFormedNames_unionsSql h hmembers hunions
    have hclauses := hpresent (head ++ filter ++ tail) (by
      simpa only [List.forall_mem_append] using ⟨⟨hhead, hfilter⟩, htail⟩)
    rw [Sql.names_join, WellFormedNames.flatMap_iff]
    exact List.forall_mem_append.2 ⟨hclauses, hmembers⟩

end Select

/-! ### Inserts -/

theorem TableRef.wellFormedNames_sql {t : TableRef} (ht : WellFormedNames t.names) :
    WellFormedNames t.sql.names := by
  simp only [names, WellFormedNames.append_iff] at ht
  rw [sql, Sql.names_append, WellFormedNames.append_iff, names_aliasSql]
  exact ⟨wellFormedNames_tableSql ht.1.2 ht.1.1, ht.2⟩

theorem Source.wellFormedNames_target {kind : StatementKind} {target : Option (Source σ)}
    {source : Source Rendered} {t : TableRef} (hsource : target.map (map f) = some source)
    (ht : source.asTarget kind = .ok t)
    (hu : WellFormedNames ((target.map (map g)).toList.flatMap unchecked)) :
    WellFormedNames t.sql.names := by
  obtain ⟨source, rfl, rfl⟩ := Option.map_eq_some_iff.1 hsource
  cases source with
  | table name schema =>
    have hu : WellFormedNames (name.uncheckedTable schema) := by
      simpa [map, unchecked] using hu
    exact TableRef.wellFormedNames_sql (Identifier.wellFormedNames_asTable ht hu)
  | subquery query alias? => cases ht

/-- The record that a statement is on does not depend on the queries in it. -/
theorem Source.recordType?_target {target : Option (Source σ)} {source : Source Rendered}
    (hsource : target.map (map f) = some source) :
    (target.map (map g)).bind recordType? = source.recordType? := by
  obtain ⟨source, rfl, rfl⟩ := Option.map_eq_some_iff.1 hsource
  simp

theorem wellFormedNames_mapM_columnName {names columns : List String}
    (hcolumns : names.mapM (columnName owner) = .ok columns)
    (hu : WellFormedNames (uncheckedNames owner names)) : WellFormedNames columns := by
  rw [uncheckedNames, WellFormedNames.flatMap_iff] at hu
  exact Except.forall_mem_of_mapM
    (fun name hname column hcolumn => wellFormedName_columnName hcolumn (hu name hname)) hcolumns

namespace Insert

theorem wellFormedNames_columns {s : Insert σ} {columns : List String}
    (hcolumns : s.columns owner = .ok columns)
    (hu : WellFormedNames (uncheckedNames owner s.givenNames)) : WellFormedNames columns := by
  have hgiven := (columns_eq_ok.1 hcolumns).1
  rw [givenColumns_eq] at hgiven
  exact wellFormedNames_mapM_columnName hgiven hu

/-- An ordered row has no operands but those of the row. -/
theorem operands_of_orderRow {columns : List String} {number : Nat} {r : Row σ}
    {operands : List (Operand σ)} (hr : orderRow owner columns number r = .ok operands) :
    operands ⊆ r.operands := by
  cases r with
  | positional values =>
    simp only [orderRow] at hr
    split at hr
    · cases hr
      exact List.Subset.refl _
    · cases hr
  | named assignments =>
    obtain ⟨row, hrow, hr⟩ := Except.bind_eq_ok.1 hr
    have hrow : ∀ e ∈ row, e.2 ∈ assignments.map Assignment.operand := by
      refine Except.forall_mem_of_mapM (fun a ha e he => ?_) hrow
      obtain ⟨column, _, he⟩ := Except.bind_eq_ok.1 he
      cases he
      exact List.mem_map_of_mem ha
    split at hr
    · cases hr
    · exact Except.forall_mem_of_mapM
        (fun column _ operand hoperand => hrow _ (mem_of_operandFor hoperand)) hr

theorem operands_of_orderRows {columns : List String} {number : Nat} {rs : List (Row σ)}
    {ordered : List (List (Operand σ))} (hrs : orderRows owner columns number rs = .ok ordered) :
    ∀ operands ∈ ordered, ∀ o ∈ operands, o ∈ rs.flatMap Row.operands := by
  induction rs generalizing number ordered with
  | nil =>
    cases hrs
    simp
  | cons r rs ih =>
    obtain ⟨first, hfirst, hrs⟩ := Except.bind_eq_ok.1 (by simpa only [orderRows] using hrs)
    obtain ⟨rest, hrest, hrs⟩ := Except.bind_eq_ok.1 hrs
    cases hrs
    rw [List.flatMap_cons]
    refine List.forall_mem_cons.2 ⟨fun o ho => ?_, fun operands hoperands o ho => ?_⟩
    · exact List.mem_append_left _ (operands_of_orderRow hfirst ho)
    · exact List.mem_append_right _ (ih hrest operands hoperands o ho)

include h in
theorem wellFormedNames_valuesSql {number : Nat} {columns : List String}
    {operands : List (Operand σ)} {parts : List Sql}
    (hparts : valuesSql owner number columns (operands.map (Operand.map f)) = .ok parts)
    (hu : ∀ o ∈ operands, WellFormedNames ((o.map g).unchecked owner)) :
    ∀ part ∈ parts, WellFormedNames part.names := by
  induction columns generalizing operands parts with
  | nil =>
    cases hparts
    simp
  | cons column columns ih =>
    cases operands with
    | nil =>
      cases hparts
      simp
    | cons o os =>
      obtain ⟨ho, hos⟩ := List.forall_mem_cons.1 hu
      obtain ⟨operand, hoperand, hparts⟩ :=
        Except.bind_eq_ok.1 (by simpa only [List.map_cons, valuesSql] using hparts)
      cases operand with
      | none => cases hparts
      | some sql =>
        obtain ⟨rest, hrest, hparts⟩ := Except.bind_eq_ok.1 hparts
        cases hparts
        exact List.forall_mem_cons.2
          ⟨Operand.wellFormedNames_render h hoperand ho, ih hrest hos⟩

include h in
theorem wellFormedNames_rowsSql {number : Nat} {columns : List String}
    {rows : List (List (Operand σ))} {parts : List Sql}
    (hparts : rowsSql owner columns number (rows.map (List.map (Operand.map f))) = .ok parts)
    (hu : ∀ operands ∈ rows, ∀ o ∈ operands, WellFormedNames ((o.map g).unchecked owner)) :
    ∀ part ∈ parts, WellFormedNames part.names := by
  induction rows generalizing number parts with
  | nil =>
    cases hparts
    simp
  | cons r rs ih =>
    obtain ⟨hr, hrs⟩ := List.forall_mem_cons.1 hu
    obtain ⟨first, hfirst, hparts⟩ :=
      Except.bind_eq_ok.1 (by simpa only [List.map_cons, rowsSql] using hparts)
    obtain ⟨rest, hrest, hparts⟩ := Except.bind_eq_ok.1 hparts
    cases hparts
    refine List.forall_mem_cons.2 ⟨?_, ih hrest hrs⟩
    simpa using wellFormedNames_valuesSql h hfirst hr

include h in
theorem wellFormedNames_render {s : Insert σ} {sql : Sql} (hsql : (s.map f).render = .ok sql)
    (hu : WellFormedNames (s.map g).unchecked) : WellFormedNames sql.names := by
  obtain ⟨_, source, target, columns, mapped, parts, returning, hsource, htarget, _, hcolumns,
    hmapped, hparts, hreturning, rfl⟩ := render_eq_ok.1 hsql
  have howner : (s.map g).target.bind Source.recordType? = source.recordType? :=
    Source.recordType?_target hsource
  rw [columns_map, ← columns_map g] at hcolumns
  obtain ⟨ordered, hordered, rfl⟩ := Except.map_eq_ok.1 ((orderRows_map ..).symm.trans hmapped)
  simp only [unchecked, howner, WellFormedNames.append_iff] at hu
  obtain ⟨⟨⟨htargetNames, hgiven⟩, hoperands⟩, hreturningNames⟩ := hu
  rw [WellFormedNames.flatMap_iff] at hoperands
  have htarget := Source.wellFormedNames_target hsource htarget htargetNames
  have hcolumns := wellFormedNames_columns hcolumns hgiven
  have hrows : ∀ part ∈ parts, WellFormedNames part.names := by
    refine wellFormedNames_rowsSql h hparts fun operands hrow o ho => ?_
    obtain ⟨r, hr, hor⟩ := List.mem_flatMap.1 (operands_of_orderRows hordered operands hrow o ho)
    have hr := hoperands (r.map g) (List.mem_map_of_mem hr)
    rw [Row.operands_map, WellFormedNames.flatMap_iff] at hr
    exact hr (o.map g) (List.mem_map_of_mem hor)
  have hreturning := wellFormedNames_returningClause hreturning hreturningNames
  simpa [List.flatMap_map, Piece.names, htarget, hreturning] using ⟨hcolumns, hrows⟩

end Insert

/-! ### Updates and deletes -/

namespace Update

include h in
theorem wellFormedNames_assignmentSql {column : String} {operand : Operand σ} {sql : Sql}
    (hsql : assignmentSql owner column (operand.map f) = .ok sql)
    (hcolumn : WellFormedName column)
    (hu : WellFormedNames ((operand.map g).unchecked owner)) : WellFormedNames sql.names := by
  obtain ⟨inner, hinner, hsql⟩ := Except.bind_eq_ok.1 hsql
  cases inner with
  | none => cases hsql
  | some inner =>
    cases hsql
    simpa [Piece.names] using ⟨hcolumn, Operand.wellFormedNames_render h hinner hu⟩

/-- The columns that an update assigns are read from the names of its assignments. -/
theorem wellFormedNames_merged {s : Update σ} {m : OrderedMap (Operand σ)}
    (hm : s.merged owner = .ok m)
    (hu : WellFormedNames (uncheckedNames owner
      ((s.fields.zipWith Assignment.mk (s.positional.getD []) ++ s.assignments).map
        Assignment.name))) : ∀ e ∈ m.entries, WellFormedName e.1 := by
  obtain ⟨positional, es, hpositional, hes, _, rfl⟩ := merged_eq_ok.1 hm
  rw [positionalAssignments_eq hpositional, uncheckedNames, WellFormedNames.flatMap_iff] at hu
  have hkeys : ∀ e ∈ es, WellFormedName e.1 := by
    refine Except.forall_mem_of_mapM (fun a ha e he => ?_) hes
    obtain ⟨column, hcolumn, he⟩ := Except.bind_eq_ok.1 he
    cases he
    exact wellFormedName_columnName hcolumn (hu a.name (List.mem_map_of_mem ha))
  intro e he
  have hmem := ((OrderedMap.isLatest_ofEntries es).mem_keys e.1).1 (List.mem_map_of_mem he)
  obtain ⟨e', he', hkey⟩ := List.mem_map.1 hmem
  exact hkey ▸ hkeys e' he'

include h in
theorem wellFormedNames_render {s : Update σ} {sql : Sql} (hsql : (s.map f).render d = .ok sql)
    (hu : WellFormedNames (s.map g).unchecked) : WellFormedNames sql.names := by
  obtain ⟨_, _, source, target, mapped, parts, filter, returning, hsource, htarget, hmapped,
    hparts, hfilter, hreturning, rfl⟩ := render_eq_ok.1 hsql
  have howner : (s.map g).target.bind Source.recordType? = source.recordType? :=
    Source.recordType?_target hsource
  obtain ⟨m, hm, rfl⟩ := Except.map_eq_ok.1 ((merged_map ..).symm.trans hmapped)
  have hmg : (s.map g).merged source.recordType? = .ok (m.map (Operand.map g)) := by
    rw [merged_map, hm]
    rfl
  simp only [unchecked, howner, WellFormedNames.append_iff] at hu
  obtain ⟨⟨⟨⟨htargetNames, hnames⟩, hoperands⟩, hfilterNames⟩, hreturningNames⟩ := hu
  rw [← entries_merged hmg, OrderedMap.entries_map, Entries.map, List.flatMap_map,
    WellFormedNames.flatMap_iff] at hoperands
  have hcolumns := wellFormedNames_merged hmg hnames
  rw [OrderedMap.entries_map, Entries.map, List.forall_mem_map] at hcolumns
  rw [OrderedMap.entries_map, Entries.map, List.mapM_map] at hparts
  have hparts : ∀ part ∈ parts, WellFormedNames part.names := by
    refine Except.forall_mem_of_mapM (fun e he sql hsql => ?_) hparts
    exact wellFormedNames_assignmentSql h hsql (hcolumns e he) (hoperands e he)
  have htarget := Source.wellFormedNames_target hsource htarget htargetNames
  have hfilter := Condition.wellFormedNames_renderClause h hfilter hfilterNames
  have hreturning := wellFormedNames_returningClause hreturning hreturningNames
  simpa [htarget, hfilter, hreturning] using hparts

end Update

include h in
theorem Delete.wellFormedNames_render {s : Delete σ} {sql : Sql}
    (hsql : (s.map f).render d = .ok sql) (hu : WellFormedNames (s.map g).unchecked) :
    WellFormedNames sql.names := by
  obtain ⟨_, source, target, filter, returning, hsource, htarget, hfilter, hreturning, rfl⟩ :=
    render_eq_ok.1 hsql
  have howner : (s.map g).target.bind Source.recordType? = source.recordType? :=
    Source.recordType?_target hsource
  simp only [unchecked, howner, WellFormedNames.append_iff] at hu
  obtain ⟨⟨htargetNames, hfilterNames⟩, hreturningNames⟩ := hu
  have htarget := Source.wellFormedNames_target hsource htarget htargetNames
  have hfilter := Condition.wellFormedNames_renderClause h hfilter hfilterNames
  have hreturning := wellFormedNames_returningClause hreturning hreturningNames
  simpa [htarget, hfilter] using hreturning

/-! ### Statements at any depth -/

theorem Query.wellFormedNames_render {q : Query} {sql : Sql} (hsql : q.render d = .ok sql)
    (hu : WellFormedNames q.unchecked) : WellFormedNames sql.names := by
  let R (r : Rendered) (names : List String) : Prop :=
    ∀ sql, r = .ok sql → WellFormedNames names → WellFormedNames sql.names
  have hR : R (q.render d) q.unchecked :=
    fold_rel R (fun s _ hs hu => Select.wellFormedNames_render (fun p => p.2) hs hu) q
  exact hR sql hsql hu

theorem Statement.wellFormedNames_render {s : Statement} {sql : Sql} (hsql : s.render d = .ok sql)
    (hu : WellFormedNames s.unchecked) : WellFormedNames sql.names := by
  have hq (q : Query) (sql : Sql) (hsql : q.render d = .ok sql)
      (hu : WellFormedNames q.unchecked) : WellFormedNames sql.names :=
    Query.wellFormedNames_render hsql hu
  cases s with
  | select s => exact hq (.of s) sql hsql hu
  | insert s => exact Insert.wellFormedNames_render hq hsql hu
  | update s => exact Update.wellFormedNames_render hq hsql hu
  | delete s => exact Delete.wellFormedNames_render hq hsql hu
  | literal s =>
    cases hsql
    exact .nil

/-- The name and the columns of a common table are checked. -/
theorem CommonTable.wellFormedNames_render {t : CommonTable} {sql : Sql}
    (hsql : t.render d = .ok sql) (hu : WellFormedNames t.statement.unchecked) :
    WellFormedNames sql.names := by
  obtain ⟨_, hname, hsql⟩ := Except.bind_eq_ok.1 hsql
  obtain ⟨_, hcolumns, hsql⟩ := Except.bind_eq_ok.1 hsql
  obtain ⟨body, hbody, hsql⟩ := Except.bind_eq_ok.1 hsql
  have hbody := Statement.wellFormedNames_render hbody hu
  have hname := checkName_eq_ok.1 hname
  have hcolumns : WellFormedNames t.columns :=
    fun c hc => checkName_eq_ok.1 (Except.forall_mem_of_forM hcolumns c hc)
  cases hsql
  split <;> simp [Piece.names, List.flatMap_map, hname, hbody, hcolumns]

theorem With.wellFormedNames_render {s : With} {sql : Sql} (hsql : s.render d = .ok sql)
    (hu : WellFormedNames s.unchecked) : WellFormedNames sql.names := by
  obtain ⟨_, statement, tables, body, hstatement, htables, hbody, rfl⟩ := render_eq_ok.1 hsql
  simp only [unchecked, hstatement, WellFormedNames.append_iff, WellFormedNames.flatMap_iff] at hu
  obtain ⟨htableNames, hlast⟩ := hu
  have htables : ∀ table ∈ tables, WellFormedNames table.names := by
    refine Except.forall_mem_of_mapM (fun t ht sql hsql => ?_) htables
    exact CommonTable.wellFormedNames_render hsql (htableNames t ht)
  have hbody := Statement.wellFormedNames_render hbody (hlast statement (by simp))
  simpa [hbody] using htables

theorem Command.wellFormedNames_render {c : Command} {sql : Sql} (hsql : c.render d = .ok sql)
    (hu : WellFormedNames c.unchecked) : WellFormedNames sql.names := by
  cases c with
  | select s => exact Statement.wellFormedNames_render (s := .select s) hsql hu
  | insert s => exact Statement.wellFormedNames_render (s := .insert s) hsql hu
  | update s => exact Statement.wellFormedNames_render (s := .update s) hsql hu
  | delete s => exact Statement.wellFormedNames_render (s := .delete s) hsql hu
  | commonTables s => exact With.wellFormedNames_render hsql hu

/-! ### Commands -/

/-- Every name that an assembled command quotes is well-formed, if those are that nothing checks.
Its text is the same however malformed names are quoted. -/
theorem Command.wellFormedNames_assemble {c : Command} {a : Assembled} (ha : c.assemble = .ok a)
    (hu : WellFormedNames c.unchecked) :
    ∃ sql, c.render c.dialect = .ok sql ∧ a.sql = c.dialect.spell sql
      ∧ (∀ name ∈ sql.names, name ≠ "" ∧ '\x00' ∉ name.toList)
      ∧ ∀ quote : String → String,
        (∀ name, name ≠ "" ∧ '\x00' ∉ name.toList → quote name = c.dialect.quoteIdentifier name) →
        { c.dialect with quoteIdentifier := quote }.spell sql = a.sql := by
  obtain ⟨sql, hsql, rfl⟩ := (assemble_eq_ok rfl).1 ha
  have hnames := wellFormedNames_render hsql hu
  refine ⟨sql, hsql, rfl, hnames, fun quote hquote => ?_⟩
  exact Sql.spell_congr_names (fun name hname => hquote name (hnames name hname)) 0

namespace Command

/-- A select from an aliased record in a common table, and from a query under an alias. -/
def guarded : Command :=
  let person : RecordTable :=
    { type := ({ table := "person", schema := some "hr" } : RecordType).declare "id" "person_id"
      alias? := some "p" }
  .commonTables
    { dialect := .generic
      tables := [{
        name := "chosen"
        statement := .select (.build .generic [.source (.table (.record person) none) .all,
          .filter (.add .and (.ofAttribute person "id") "=" (.value (.int 1)))]) }]
      statement := some (.select (.build .generic [.source (.subquery
        (.of (.build .generic [.source (.table (.name "chosen") none) .all])) (some "c")) .all])) }

theorem wellFormedNames_assemble_guarded :
    guarded.unchecked = ["person", "hr", "p", "person_id", "c"]
    ∧ ∃ sql, guarded.render .generic = .ok sql
      ∧ ∀ name ∈ sql.names, name ≠ "" ∧ '\x00' ∉ name.toList := by
  have hunchecked : guarded.unchecked = ["person", "hr", "p", "person_id", "c"] := rfl
  have hnames : WellFormedNames guarded.unchecked := by
    rw [hunchecked]
    decide
  obtain ⟨sql, hsql⟩ : ∃ sql, guarded.render .generic = .ok sql := ⟨_, rfl⟩
  have hdialect : guarded.dialect = .generic := rfl
  have ha := (assemble_eq_ok hdialect).2 ⟨sql, hsql, rfl⟩
  obtain ⟨sql, hsql, -, hwellFormed, -⟩ := wellFormedNames_assemble ha hnames
  exact ⟨hunchecked, sql, hsql, hwellFormed⟩

/-- A select with a malformed name of each kind that nothing checks: the schema and the table of a
record, the alias of a query, the alias of a record that qualifies a field, and its column. -/
def unguarded : Command :=
  let person : RecordType := ({ table := "\x00t" } : RecordType).declare "id" "\x00c"
  .select (.build .generic [
    .source (.table (.record { type := person }) (some "\x00s")) .all,
    .source (.subquery (.of (.build .generic [.source (.table (.name "t") none) .all]))
      (some "\x00q")) .all,
    .filter (.add .and (.ofAttribute { type := person, alias? := some "" } "id") "="
      (.value (.int 1)))])

/-- It is assembled, and all these names are quoted. -/
theorem not_wellFormedNames_unguarded :
    ∃ a sql, unguarded.assemble = .ok a ∧ unguarded.render unguarded.dialect = .ok sql
      ∧ a.sql = unguarded.dialect.spell sql
      ∧ unguarded.unchecked = ["\x00t", "\x00s", "\x00q", "", "\x00c"]
      ∧ ∀ name ∈ unguarded.unchecked,
        name ∈ sql.names ∧ ¬ (name ≠ "" ∧ '\x00' ∉ name.toList) := by
  have hunchecked : unguarded.unchecked = ["\x00t", "\x00s", "\x00q", "", "\x00c"] := rfl
  obtain ⟨sql, hsql, hnames⟩ : ∃ sql, unguarded.render unguarded.dialect = .ok sql
      ∧ sql.names
        = ["\x00s", "\x00t", "\x00q", "\x00s", "\x00t", "t", "t", "\x00q", "", "\x00c"] :=
    ⟨_, rfl, rfl⟩
  have hassemble := (assemble_eq_ok rfl).2 ⟨sql, hsql, rfl⟩
  refine ⟨_, sql, hassemble, hsql, rfl, hunchecked, ?_⟩
  rw [hunchecked, hnames]
  decide

end Command

end SqlAssembly
