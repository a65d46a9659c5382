import SqlAssembly.Proofs.BoundValues
import SqlAssembly.Proofs.Clauses
import SqlAssembly.Proofs.UncheckedNames

/-!
# What a statement reads

A statement reads identifiers: its tables, the fields of its predicates, the columns that it lists
or gives values to. And it writes the queries in it, but for those of assignments that are
overridden. If it can be rendered then each identifier can be read, and each query that is written
can be rendered (`Statement.succeeds_parts`).
-/

namespace SqlAssembly

open SqlAssembly.Except (Succeeds)

variable {σ τ : Type}

/-! ### Readings -/

/-- An identifier, as it is read in a place of a statement. -/
inductive Reading where
  /-- A table in a schema. -/
  | table (name : Identifier) (schema : Option String)
  /-- The alias of a query. -/
  | queryAlias (aliasName : String)
  /-- A field in a statement on a record. -/
  | field (owner : Option RecordType) (f : Field)
  /-- A column of a record. -/
  | column (owner : Option RecordType) (c : Column)
  /-- The name of a column that a value is given to. -/
  | assigned (owner : Option RecordType) (name : String)
  | qualifier (name : Identifier)

/-- Whether the identifier can be read. -/
def Reading.IsReadable : Reading → Prop
  | table name schema => Succeeds (name.asTable schema)
  | queryAlias aliasName => aliasName ≠ ""
  | field owner f => Succeeds (f.resolve owner)
  | column owner c => Succeeds (c.sql owner none none)
  | assigned owner name => Succeeds (columnName owner name)
  | qualifier name => Succeeds name.asQualifier

/-- The readings of the columns that are listed. -/
def Columns.readings (owner : Option RecordType) (columns : Columns) : List Reading :=
  columns.listed.map (.column owner)

/-- The readings of the columns that a statement returns. -/
def returningReadings (owner : Option RecordType) (columns : Option Columns) : List Reading :=
  columns.toList.flatMap (Columns.readings owner)

def Condition.readings (owner : Option RecordType) (c : Condition σ) : List Reading :=
  c.pending.flatMap fun p => p.fields.map (.field owner)

def Source.readings : Source σ → List Reading
  | table name schema => [.table name schema]
  | subquery _ alias? => alias?.toList.map .queryAlias

def SourceItem.readings : SourceItem σ → List Reading
  | plain source columns | lateral source columns =>
    source.readings ++ columns.readings source.recordType?
  | expressions columns => columns.map (.column none)

/-- The readings of the condition of a join. The owner of the other field is found only when the
sources are bound. -/
def JoinCondition.readings (joined : Option RecordType) : JoinCondition → List Reading
  | columns field other otherField _ =>
    [.qualifier other, .column none { name := otherField }, .column joined { name := field }]
  | raw _ => []

def Join.readings (j : Join σ) : List Reading :=
  j.source.readings ++ j.condition.toList.flatMap (JoinCondition.readings j.source.recordType?)
    ++ j.columns.toList.flatMap (Columns.readings j.source.recordType?)

def Select.readings (s : Select σ) : List Reading :=
  s.items.flatMap SourceItem.readings ++ s.joins.flatMap Join.readings
    ++ s.filter.readings s.target ++ s.groupBy.map (.field none) ++ s.having.readings none
    ++ s.orderBy.map fun p => .field none p.1

/-- The names that a row gives values to. -/
def Row.names : Row σ → List String
  | positional _ => []
  | named assignments => assignments.map Assignment.name

def Insert.readings (s : Insert σ) : List Reading :=
  let owner := s.target.bind Source.recordType?
  s.target.toList.flatMap Source.readings
    ++ (s.fields ++ s.rows.flatMap Row.names).map (.assigned owner)
    ++ (s.rows.flatMap Row.operands).flatMap (fun o => o.fields.map (.field owner))
    ++ returningReadings owner s.returning

/-- All assignments of an update, those by position first. -/
def Update.allAssignments (s : Update σ) : List (Assignment σ) :=
  s.fields.zipWith Assignment.mk (s.positional.getD []) ++ s.assignments

/-- The values that an update assigns: the last one for each column. -/
def Update.winning (s : Update σ) : List (Operand σ) :=
  (Entries.latest (Assignment.resolved (s.target.bind Source.recordType?) s.allAssignments)).map
    Prod.snd

def Update.readings (s : Update σ) : List Reading :=
  let owner := s.target.bind Source.recordType?
  s.target.toList.flatMap Source.readings
    ++ s.allAssignments.map (fun a => .assigned owner a.name)
    ++ s.winning.flatMap (fun o => o.fields.map (.field owner)) ++ s.filter.readings owner
    ++ returningReadings owner s.returning

def Delete.readings (s : Delete σ) : List Reading :=
  let owner := s.target.bind Source.recordType?
  s.target.toList.flatMap Source.readings ++ s.filter.readings owner
    ++ returningReadings owner s.returning

/-- The identifiers that a statement reads itself, which are not those of the queries in it. -/
def Statement.readings : Statement → List Reading
  | select s => s.readings
  | insert s => s.readings
  | update s => s.readings
  | delete s => s.readings
  | literal _ => []

/-! ### Queries that are written -/

/-- The queries in an update, but for those of assignments that are overridden. -/
def Update.written (s : Update σ) : List σ :=
  s.winning.flatMap Operand.queries ++ s.filter.queries

/-- The queries that are written when the statement is, without those in other queries. -/
def Statement.written : Statement → List Query
  | select s => s.queries
  | insert s => s.queries
  | update s => s.written
  | delete s => s.queries
  | literal _ => []

/-! ### Columns -/

/-- A name that can be read as a column of a record can be read as a column of none. -/
theorem Identifier.succeeds_asColumn_none {owner : Option RecordType} {i : Identifier}
    (h : Succeeds (i.asColumn owner)) : Succeeds (i.asColumn none) := by
  induction i with
  | name s =>
    obtain ⟨_, hcheck, -⟩ := Except.succeeds_bind.1 h
    exact Except.succeeds_bind.2 ⟨_, hcheck, Except.succeeds_ok _⟩
  | aliased base aliasName ih =>
    obtain ⟨_, hcheck, h⟩ := Except.succeeds_bind.1 h
    obtain ⟨column, hbase, -⟩ := Except.succeeds_bind.1 h
    obtain ⟨column', hbase'⟩ := ih ⟨column, hbase⟩
    exact Except.succeeds_bind.2 ⟨_, hcheck, Except.succeeds_bind.2
      ⟨column', hbase', Except.succeeds_ok _⟩⟩
  | literal sql => exact Except.succeeds_ok _
  | record t => exact absurd h (Except.not_succeeds_error _)

/-- The alias that an identifier carries is checked when it is read. -/
theorem Identifier.checkName_of_asColumn {owner : Option RecordType} {i : Identifier}
    {name : SqlName} {alias? : Option String} (h : i.asColumn owner = .ok (name, alias?)) :
    ∀ a ∈ alias?, checkName .aliasName a = .ok () := by
  cases i with
  | name s =>
    obtain ⟨_, -, h⟩ := Except.bind_eq_ok.1 h
    cases owner with
    | none =>
      cases h
      simp
    | some r =>
      dsimp only at h
      split at h
      · cases h
        simp
      · obtain ⟨column, -, h⟩ := Except.bind_eq_ok.1 h
        cases h
        simp
  | aliased base aliasName =>
    obtain ⟨_, hcheck, h⟩ := Except.bind_eq_ok.1 h
    obtain ⟨column, -, h⟩ := Except.bind_eq_ok.1 h
    cases h
    simpa using hcheck
  | literal sql =>
    cases h
    simp
  | record t => cases h

theorem Reading.isReadable_column {owner : Option RecordType} {name : Identifier}
    (h : Succeeds (name.asColumn owner)) : (column owner { name }).IsReadable := by
  obtain ⟨⟨column, alias?⟩, hcolumn⟩ := h
  refine Column.succeeds_sql.2 ⟨column, alias?, hcolumn, ?_⟩
  exact Identifier.checkName_of_asColumn hcolumn

/-! ### Conditions and sources -/

variable {d : Dialect} {owner : Option RecordType}

theorem Operand.isReadable_fields {o : Operand Rendered} (h : Succeeds (o.render owner)) :
    ∀ f ∈ o.fields, (Reading.field owner f).IsReadable :=
  fun f hf => Field.succeeds_sql.1 ((Operand.succeeds_render.1 h).1 f hf)

theorem Condition.isReadable_readings {c : Condition σ} (h : ∀ p ∈ c.pending, p.Fits d owner) :
    ∀ r ∈ c.readings owner, r.IsReadable := by
  refine List.forall_mem_flatMap.2 fun p hp => List.forall_mem_map.2 fun f hf => ?_
  exact Field.succeeds_sql.1 ((h p hp).2 f hf)

theorem Source.isReadable_readings {b : Binding σ} {s : Source σ} (h : b.IsOf s) :
    ∀ r ∈ s.readings, r.IsReadable := by
  obtain ⟨taken, h⟩ := h
  cases s with
  | table name schema =>
    obtain ⟨t, ht, -⟩ := Except.bind_eq_ok.1 h
    exact List.forall_mem_singleton.2 ⟨t, ht⟩
  | subquery query alias? =>
    cases alias? with
    | none => simp [readings]
    | some aliasName =>
      obtain ⟨name, hname, -⟩ := Except.bind_eq_ok.1 h
      exact List.forall_mem_singleton.2 (claimAlias_eq_ok.1 hname).2.1

theorem Columns.isReadable_readings {b : Binding σ} {s : Source σ} (h : b.IsOf s)
    {qualify : Bool} {columns : Columns} (hlist : Succeeds (b.listSql qualify columns)) :
    ∀ r ∈ columns.readings s.recordType?, r.IsReadable := by
  refine List.forall_mem_map.2 fun c hc => ?_
  have hcolumn := Binding.succeeds_listSql.1 hlist c hc
  rwa [h.spec.1] at hcolumn

theorem SourceItem.isReadable_readings {i : SourceItem σ} {b : BoundItem σ}
    (h : BoundItem.IsOf i b) (hlist : Succeeds b.listSql) : ∀ r ∈ i.readings, r.IsReadable := by
  cases h with
  | plain hb columns | lateral hb columns =>
    exact List.forall_mem_append.2
      ⟨Source.isReadable_readings hb, Columns.isReadable_readings hb hlist⟩
  | expressions columns => exact List.forall_mem_map.2 (Except.succeeds_mapM.1 hlist)

theorem JoinCondition.isReadable_readings {prior : List (Binding σ)} {joined : Binding σ}
    {condition : JoinCondition} (h : Succeeds (Select.joinConditionSql prior joined condition)) :
    ∀ r ∈ condition.readings joined.record, r.IsReadable := by
  cases condition with
  | raw sql => simp [readings]
  | columns field other otherField operator =>
    obtain ⟨q, hq, h⟩ := Except.succeeds_bind.1 h
    dsimp only at h
    split at h
    · exact absurd h (Except.not_succeeds_error _)
    · obtain ⟨left, hleft, h⟩ := Except.succeeds_bind.1 h
      obtain ⟨_, -, h⟩ := Except.succeeds_bind.1 h
      obtain ⟨right, hright, -⟩ := Except.succeeds_bind.1 h
      have hleft := Identifier.succeeds_asColumn_none ⟨left, hleft⟩
      simp only [readings, List.forall_mem_cons]
      exact ⟨⟨q, hq⟩, Reading.isReadable_column hleft, Reading.isReadable_column ⟨right, hright⟩,
        by simp⟩

theorem Join.isReadable_readings {j : Join σ} {b : BoundJoin σ} (h : BoundJoin.IsOf j b)
    (hlist : Succeeds b.listSql) {prior : List (Binding σ)}
    (hon : Succeeds (Select.joinOnSql prior b)) : ∀ r ∈ j.readings, r.IsReadable := by
  obtain ⟨rfl, hb⟩ := h
  simp only [readings, List.forall_mem_append, List.forall_mem_flatMap, Option.mem_toList]
  refine ⟨⟨Source.isReadable_readings hb, fun condition hcondition => ?_⟩,
    fun columns hcolumns => ?_⟩
  · unfold Select.joinOnSql at hon
    rw [← hb.spec.1]
    simp only [Option.mem_def.1 hcondition] at hon
    cases htakes : b.join.kind.takesCondition with
    | false =>
      rw [htakes] at hon
      exact absurd hon (Except.not_succeeds_error _)
    | true =>
      rw [htakes] at hon
      exact JoinCondition.isReadable_readings hon
  · exact Columns.isReadable_readings hb (BoundJoin.succeeds_listSql.1 hlist columns hcolumns)

/-! ### Selects -/

namespace Select

/-- The identifiers that a select reads can be read if its clauses fit. -/
theorem isReadable_readings {s : Select Rendered} (h : Succeeds (s.render d)) :
    ∀ r ∈ s.readings, r.IsReadable := by
  obtain ⟨hcheck, horderBy, hfit, -⟩ := succeeds_render.1 h
  have horderBy : ∀ p ∈ s.orderBy, (Reading.field none p.1).IsReadable :=
    fun p hp => Field.succeeds_sql.1 (horderBy p hp)
  simp only [readings, List.forall_mem_append, List.forall_mem_map]
  refine ⟨?_, horderBy⟩
  by_cases hitems : s.items = []
  · obtain ⟨hjoins, hfilter, hgroupBy, hhaving⟩ := clauses_of_bare hcheck hitems
    simp [hitems, hjoins, hgroupBy, Condition.readings, hfilter, hhaving]
  · obtain ⟨scope, hfit⟩ := hfit hitems
    obtain ⟨hlist, hjoinList, -⟩ := Scope.succeeds_selectList.1 hfit.list
    obtain ⟨hbound, hjoined⟩ := Scope.forall₂_bind hfit.bound
    have hitemReadings : ∀ i ∈ s.items, ∀ r ∈ i.readings, r.IsReadable := by
      intro i hi
      obtain ⟨b, hb, hib⟩ := exists_of_forall₂ hbound i hi
      exact SourceItem.isReadable_readings hib (hlist b hb)
    have hjoinReadings : ∀ j ∈ s.joins, ∀ r ∈ j.readings, r.IsReadable := by
      intro j hj
      obtain ⟨b, hb, hjb⟩ := exists_of_forall₂ hjoined j hj
      obtain ⟨before, after, hsplit⟩ := List.append_of_mem hb
      exact Join.isReadable_readings hjb (hjoinList b hb) (hfit.on before b after hsplit)
    exact ⟨⟨⟨⟨List.forall_mem_flatMap.2 hitemReadings, List.forall_mem_flatMap.2 hjoinReadings⟩,
      Condition.isReadable_readings hfit.filter⟩,
      fun f hf => Field.succeeds_sql.1 (hfit.groupBy f hf)⟩,
      Condition.isReadable_readings hfit.having⟩

end Select

/-! ### Targets and columns to return -/

/-- The target of a statement is a table that can be read. -/
theorem Source.isReadable_target {s : Source σ} {kind : StatementKind} {t : TableRef}
    (h : s.asTarget kind = .ok t) : s.queries = [] ∧ ∀ r ∈ s.readings, r.IsReadable := by
  cases s with
  | table name schema => exact ⟨rfl, List.forall_mem_singleton.2 ⟨t, h⟩⟩
  | subquery query alias? => cases h

theorem isReadable_returningReadings {columns : Option Columns}
    (h : Succeeds (returningClause owner columns)) :
    ∀ r ∈ returningReadings owner columns, r.IsReadable := by
  cases columns with
  | none => simp [returningReadings]
  | some columns =>
    obtain ⟨sql, hsql, -⟩ := Except.succeeds_bind.1 h
    simp only [returningReadings, Option.toList_some, List.flatMap_singleton, Columns.readings,
      List.forall_mem_map]
    unfold Columns.returningSql at hsql
    cases hlisted : columns.listed with
    | nil => simp
    | cons c cs =>
      rw [hlisted] at hsql
      obtain ⟨parts, hparts, -⟩ := Except.bind_eq_ok.1 hsql
      exact Except.succeeds_mapM.1 ⟨parts, hparts⟩

/-! ### Inserts -/

theorem Row.queries_eq (r : Row σ) : r.queries = r.operands.flatMap Operand.queries := by
  cases r with
  | positional operands => rfl
  | named assignments => simp [queries, operands, List.flatMap_map]

/-- Names that are resolved can be read, and no operand is lost. -/
theorem Assignment.of_resolveAll {assignments : List (Assignment σ)}
    {row : List (String × Operand σ)} (h : resolveAll owner assignments = .ok row) :
    (∀ a ∈ assignments, (Reading.assigned owner a.name).IsReadable)
      ∧ assignments.map Assignment.operand = row.map Prod.snd := by
  rw [resolveAll, Except.mapM_eq_ok] at h
  induction h with
  | nil => simp
  | cons ha _ ih =>
    obtain ⟨column, hcolumn, ha⟩ := Except.bind_eq_ok.1 ha
    cases ha
    exact ⟨List.forall_mem_cons.2 ⟨⟨column, hcolumn⟩, ih.1⟩, congrArg _ ih.2⟩

namespace Insert

/-- Ordering a row reads its names and keeps its operands. -/
theorem of_orderRow {columns : List String} (hnodup : columns.Nodup) {number : Nat} {r : Row σ}
    {operands : List (Operand σ)} (h : orderRow owner columns number r = .ok operands) :
    (∀ n ∈ r.names, (Reading.assigned owner n).IsReadable) ∧ r.operands ⊆ operands := by
  cases r with
  | positional values =>
    simp only [orderRow] at h
    split at h
    · cases h
      exact ⟨by simp [Row.names], List.Subset.refl _⟩
    · cases h
  | named assignments =>
    obtain ⟨row, hrow, h⟩ := Except.bind_eq_ok.1 h
    split at h
    · cases h
    · rename_i hlength
      have hlength := not_not.1 hlength
      obtain ⟨hnames, hoperands⟩ := Assignment.of_resolveAll hrow
      refine ⟨List.forall_mem_map.2 hnames, ?_⟩
      rw [Row.operands, hoperands]
      refine List.forall_mem_map.2 fun e he => ?_
      have hcolumn : e.1 ∈ columns :=
        (perm_columns hnodup hlength h).mem_iff.2 (List.mem_map_of_mem he)
      -- the operand under the column of an entry is that of the entry, the only one there
      obtain ⟨o, ho, hfilter⟩ := exists_of_forall₂ (filter_column hnodup hlength h) e.1 hcolumn
      have hentry : e ∈ row.filter fun p => p.1 == e.1 := List.mem_filter.2 ⟨he, by simp⟩
      rw [hfilter, List.mem_singleton] at hentry
      rw [hentry]
      exact ho

theorem succeeds_valuesSql {columns : List String} {number : Nat}
    {operands : List (Operand Rendered)} (hlength : operands.length = columns.length)
    (h : Succeeds (valuesSql owner number columns operands)) :
    ∀ o ∈ operands, Succeeds (o.render owner) := by
  induction columns generalizing operands with
  | nil =>
    obtain rfl : operands = [] := List.length_eq_zero_iff.1 hlength
    simp
  | cons column columns ih =>
    cases operands with
    | nil => simp
    | cons o os =>
      obtain ⟨sql?, ho, h⟩ := Except.succeeds_bind.1 h
      cases sql? with
      | none => exact absurd h (Except.not_succeeds_error _)
      | some sql =>
        obtain ⟨rest, hrest, -⟩ := Except.succeeds_bind.1 h
        exact List.forall_mem_cons.2 ⟨⟨_, ho⟩, ih (by simpa using hlength) ⟨rest, hrest⟩⟩

/-- The names and the operands of all rows are read when the rows are rendered. -/
theorem of_rowsSql {columns : List String} (hnodup : columns.Nodup) {number : Nat}
    {rows : List (Row Rendered)} {ordered : List (List (Operand Rendered))}
    (hordered : orderRows owner columns number rows = .ok ordered)
    (h : Succeeds (rowsSql owner columns number ordered)) :
    (∀ n ∈ rows.flatMap Row.names, (Reading.assigned owner n).IsReadable)
      ∧ ∀ o ∈ rows.flatMap Row.operands, Succeeds (o.render owner) := by
  induction rows generalizing number ordered with
  | nil => simp
  | cons r rs ih =>
    obtain ⟨operands, hoperands, hordered⟩ := Except.bind_eq_ok.1 hordered
    obtain ⟨rest, hrest, hordered⟩ := Except.bind_eq_ok.1 hordered
    cases hordered
    obtain ⟨first, hfirst, h⟩ := Except.succeeds_bind.1 h
    obtain ⟨others, hothers, -⟩ := Except.succeeds_bind.1 h
    obtain ⟨hnames, hsubset⟩ := of_orderRow hnodup hoperands
    have hvalues := succeeds_valuesSql (length_orderRow hoperands) ⟨first, hfirst⟩
    obtain ⟨hrestNames, hrestValues⟩ := ih hrest ⟨others, hothers⟩
    exact ⟨List.forall_mem_append.2 ⟨hnames, hrestNames⟩,
      List.forall_mem_append.2 ⟨fun o ho => hvalues o (hsubset ho), hrestValues⟩⟩

/-- The field list is read, where there is one. -/
theorem isReadable_fields {s : Insert σ} {columns : List String}
    (h : s.columns owner = .ok columns) :
    ∀ n ∈ s.fields, (Reading.assigned owner n).IsReadable := by
  have hgiven := (columns_eq_ok.1 h).1
  rw [givenColumns_eq] at hgiven
  cases hfields : s.fields with
  | nil => simp
  | cons n ns =>
    have hnames : s.givenNames = n :: ns := by simp [givenNames, hfields]
    rw [hnames] at hgiven
    exact Except.succeeds_mapM.1 ⟨columns, hgiven⟩

/-- If an insert can be rendered then so can the queries in it, and it can read what it reads. -/
theorem succeeds_parts {s : Insert Rendered} (h : Succeeds s.render) :
    (∀ q ∈ s.queries, Succeeds q) ∧ ∀ r ∈ s.readings, r.IsReadable := by
  obtain ⟨sql, h⟩ := h
  obtain ⟨-, source, target, columns, ordered, rows, returning, hsource, htarget, -, hcolumns,
    hordered, hrows, hreturning, -⟩ := render_eq_ok.1 h
  obtain ⟨hnoQueries, htargetReadings⟩ := Source.isReadable_target htarget
  obtain ⟨hnames, hoperands⟩ := of_rowsSql (nodup_columns hcolumns) hordered ⟨rows, hrows⟩
  constructor
  · rw [queries, hsource, Option.toList_some, List.flatMap_singleton, hnoQueries, List.nil_append,
      funext Row.queries_eq, ← List.flatMap_assoc]
    exact List.forall_mem_flatMap.2 fun o ho => (Operand.succeeds_render.1 (hoperands o ho)).2
  · rw [readings, hsource, Option.bind_some, Option.toList_some, List.flatMap_singleton]
    refine List.forall_mem_append.2 ⟨List.forall_mem_append.2 ⟨List.forall_mem_append.2
      ⟨htargetReadings, ?_⟩, ?_⟩, isReadable_returningReadings ⟨returning, hreturning⟩⟩
    · refine List.forall_mem_map.2 (List.forall_mem_append.2 ⟨isReadable_fields hcolumns, hnames⟩)
    · refine List.forall_mem_flatMap.2 fun o ho => List.forall_mem_map.2 ?_
      exact Operand.isReadable_fields (hoperands o ho)

end Insert

/-! ### Updates -/

namespace Update

theorem succeeds_assignmentSql {column : String} {o : Operand Rendered}
    (h : Succeeds (assignmentSql owner column o)) : Succeeds (o.render owner) := by
  obtain ⟨sql?, ho, -⟩ := Except.succeeds_bind.1 h
  exact ⟨sql?, ho⟩

/-- The values that win are those of the map that is filled with all assignments. -/
theorem winning_eq {s : Update σ} {source : Source σ} {m : OrderedMap (Operand σ)}
    (hsource : s.target = some source) (hm : s.merged source.recordType? = .ok m) :
    s.winning = m.entries.map Prod.snd := by
  rw [winning, hsource, Option.bind_some, allAssignments, ← entries_merged hm]

/-- If an update can be rendered then so can the queries that are written, and it can read what it
reads: the names of all its assignments, but of the values only those that win. -/
theorem succeeds_parts {s : Update Rendered} (h : Succeeds (s.render d)) :
    (∀ q ∈ s.written, Succeeds q) ∧ ∀ r ∈ s.readings, r.IsReadable := by
  obtain ⟨sql, h⟩ := h
  obtain ⟨-, hcheck, source, target, m, assignments, filter, returning, hsource, htarget, hm,
    hassignments, hfilter, hreturning, -⟩ := render_eq_ok.1 h
  obtain ⟨hfits, hfilterQueries⟩ := (Condition.succeeds_renderClause_iff hcheck).1 ⟨filter, hfilter⟩
  obtain ⟨positional, es, hpositional, hes, -, -⟩ := merged_eq_ok.1 hm
  obtain ⟨hnames, -⟩ := Assignment.of_resolveAll hes
  rw [← positionalAssignments_eq hpositional] at hnames
  have hwinning : ∀ o ∈ s.winning, Succeeds (o.render source.recordType?) := by
    rw [winning_eq hsource hm]
    refine List.forall_mem_map.2 fun e he => ?_
    exact succeeds_assignmentSql (Except.succeeds_mapM.1 ⟨assignments, hassignments⟩ e he)
  constructor
  · refine List.forall_mem_append.2 ⟨List.forall_mem_flatMap.2 fun o ho => ?_, hfilterQueries⟩
    exact (Operand.succeeds_render.1 (hwinning o ho)).2
  · rw [readings, hsource, Option.bind_some, Option.toList_some, List.flatMap_singleton]
    refine List.forall_mem_append.2 ⟨List.forall_mem_append.2 ⟨List.forall_mem_append.2
      ⟨List.forall_mem_append.2 ⟨(Source.isReadable_target htarget).2,
        List.forall_mem_map.2 hnames⟩, ?_⟩, Condition.isReadable_readings hfits⟩,
      isReadable_returningReadings ⟨returning, hreturning⟩⟩
    refine List.forall_mem_flatMap.2 fun o ho => List.forall_mem_map.2 ?_
    exact Operand.isReadable_fields (hwinning o ho)

end Update

/-! ### Deletes -/

theorem Delete.succeeds_parts {s : Delete Rendered} (h : Succeeds (s.render d)) :
    (∀ q ∈ s.queries, Succeeds q) ∧ ∀ r ∈ s.readings, r.IsReadable := by
  obtain ⟨sql, h⟩ := h
  obtain ⟨hcheck, source, target, filter, returning, hsource, htarget, hfilter, hreturning, -⟩ :=
    render_eq_ok.1 h
  obtain ⟨hfits, hfilterQueries⟩ := (Condition.succeeds_renderClause_iff hcheck).1 ⟨filter, hfilter⟩
  obtain ⟨hnoQueries, htargetReadings⟩ := Source.isReadable_target htarget
  constructor
  · rw [queries, hsource, Option.toList_some, List.flatMap_singleton, hnoQueries, List.nil_append]
    exact hfilterQueries
  · rw [readings, hsource, Option.bind_some, Option.toList_some, List.flatMap_singleton]
    exact List.forall_mem_append.2 ⟨List.forall_mem_append.2 ⟨htargetReadings,
      Condition.isReadable_readings hfits⟩, isReadable_returningReadings ⟨returning, hreturning⟩⟩

/-! ### Changing the queries -/

section Map

variable (f : σ → τ)

@[simp] theorem Operand.fields_map (o : Operand σ) : (o.map f).fields = o.fields := by
  cases o <;> rfl

@[simp] theorem Predicate.fields_map (p : Predicate σ) : (p.map f).fields = p.fields := by
  simp [fields, map]

@[simp] theorem Condition.readings_map (c : Condition σ) :
    (c.map f).readings owner = c.readings owner := by
  simp [readings, pending_map, List.flatMap_map]

@[simp] theorem Source.readings_map (s : Source σ) : (s.map f).readings = s.readings := by
  cases s <;> rfl

@[simp] theorem SourceItem.readings_map (i : SourceItem σ) : (i.map f).readings = i.readings := by
  cases i <;> simp [readings, map]

@[simp] theorem Join.readings_map (j : Join σ) : (j.map f).readings = j.readings := by
  simp [readings, map]

theorem Select.readings_map (s : Select σ) : (s.map f).readings = s.readings := by
  unfold readings
  rw [target_map]
  simp [map, List.flatMap_map]

@[simp] theorem Row.names_map (r : Row σ) : (r.map f).names = r.names := by
  cases r <;> simp [names, map, Assignment.map]

theorem Source.recordType?_bind_map (target : Option (Source σ)) :
    (target.map (Source.map f)).bind Source.recordType? = target.bind Source.recordType? := by
  cases target <;> simp

theorem Source.readings_flatMap_map (target : Option (Source σ)) :
    (target.map (Source.map f)).toList.flatMap Source.readings
      = target.toList.flatMap Source.readings := by
  cases target <;> simp

theorem Source.queries_flatMap_map (target : Option (Source σ)) :
    (target.map (Source.map f)).toList.flatMap Source.queries
      = (target.toList.flatMap Source.queries).map f := by
  cases target <;> simp [queries_map]

theorem Row.queries_map (r : Row σ) : (r.map f).queries = r.queries.map f := by
  simp [queries_eq, operands_map, Operand.queries_map, List.flatMap_map, List.map_flatMap]

theorem Insert.readings_map (s : Insert σ) : (s.map f).readings = s.readings := by
  have hoperands : (s.rows.flatMap fun r => r.operands.map (Operand.map f))
      = (s.rows.flatMap Row.operands).map (Operand.map f) :=
    List.map_flatMap.symm
  unfold readings
  simp [map, Source.recordType?_bind_map, Source.readings_flatMap_map, List.flatMap_map,
    Row.operands_map, hoperands]

theorem Insert.queries_map (s : Insert σ) : (s.map f).queries = s.queries.map f := by
  simp [queries, map, Source.queries_flatMap_map, List.flatMap_map, List.map_flatMap,
    Row.queries_map]

theorem Assignment.resolved_map (assignments : List (Assignment σ)) :
    resolved owner (assignments.map (Assignment.map f))
      = Entries.map (Operand.map f) (resolved owner assignments) := by
  simp only [resolved, List.filterMap_map, Entries.map, List.map_filterMap]
  refine List.filterMap_congr fun a _ => ?_
  simp [Assignment.map, Function.comp_def]

theorem Entries.latest_map {α β : Type} (g : α → β) (es : List (String × α)) :
    latest (map g es) = map g (latest es) := by
  rw [← OrderedMap.entries_ofEntries, OrderedMap.ofEntries_map, OrderedMap.entries_map,
    OrderedMap.entries_ofEntries]

theorem Update.allAssignments_map (s : Update σ) :
    (s.map f).allAssignments = s.allAssignments.map (Assignment.map f) := by
  cases h : s.positional <;>
    simp [allAssignments, map, h, List.zipWith_map_right, List.map_zipWith, Assignment.map]

theorem Update.winning_map (s : Update σ) :
    (s.map f).winning = s.winning.map (Operand.map f) := by
  rw [winning, allAssignments_map, Assignment.resolved_map, Entries.latest_map]
  simp [winning, map, Source.recordType?_bind_map, Entries.map]

theorem Update.written_map (s : Update σ) : (s.map f).written = s.written.map f := by
  rw [written, winning_map]
  simp [written, map, Condition.queries_map, Operand.queries_map, List.flatMap_map,
    List.map_flatMap]

theorem Update.readings_map (s : Update σ) : (s.map f).readings = s.readings := by
  unfold readings
  rw [winning_map, allAssignments_map]
  simp [map, Source.recordType?_bind_map, Source.readings_flatMap_map, List.flatMap_map,
    Assignment.map]

theorem Delete.queries_map (s : Delete σ) : (s.map f).queries = s.queries.map f := by
  simp [queries, map, Source.queries_flatMap_map, Condition.queries_map]

theorem Delete.readings_map (s : Delete σ) : (s.map f).readings = s.readings := by
  simp [readings, map, Source.recordType?_bind_map, Source.readings_flatMap_map]

end Map

/-! ### Statements -/

theorem Statement.succeeds_render_select {s : Select Query} :
    Succeeds ((Statement.select s).render d) ↔ Succeeds ((s.map (Query.render d)).render d) := by
  rw [← Query.render_of]
  rfl

/-- If a statement can be rendered then so can all queries that are written with it, and it can read
all identifiers that it reads. -/
theorem Statement.succeeds_parts {s : Statement} (h : Succeeds (s.render d)) :
    (∀ q ∈ s.written, Succeeds (q.render d)) ∧ ∀ r ∈ s.readings, r.IsReadable := by
  cases s with
  | select s =>
    have h := succeeds_render_select.1 h
    have hqueries := (Select.succeeds_render.1 h).2.2.2
    have hreadings := Select.isReadable_readings h
    rw [Select.queries_map, List.forall_mem_map] at hqueries
    rw [Select.readings_map] at hreadings
    exact ⟨hqueries, hreadings⟩
  | insert s =>
    have hparts := Insert.succeeds_parts h
    rwa [Insert.queries_map, Insert.readings_map, List.forall_mem_map] at hparts
  | update s =>
    have hparts := Update.succeeds_parts h
    rwa [Update.written_map, Update.readings_map, List.forall_mem_map] at hparts
  | delete s =>
    have hparts := Delete.succeeds_parts h
    rwa [Delete.queries_map, Delete.readings_map, List.forall_mem_map] at hparts
  | literal sql => exact ⟨List.forall_mem_nil _, List.forall_mem_nil _⟩

end SqlAssembly
