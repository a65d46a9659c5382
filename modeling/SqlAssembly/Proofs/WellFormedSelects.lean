import SqlAssembly.Proofs.BracketTree
import SqlAssembly.Proofs.DialectChoice
import SqlAssembly.Proofs.Readings
import SqlAssembly.Proofs.SourceNames

/-!
# Well-formed selects

What a select needs to be accepted is a matter of its structure alone, once its names are
well-formed and belong to no records (`Select.IsWellFormed`). Where `ILIKE` is supported, a select is
assembled exactly if it is well-formed and each query in it is assembled on its own
(`Select.assemble_iff_isWellFormed`).
-/

namespace SqlAssembly

open SqlAssembly.Except (Succeeds)

variable {σ τ : Type} {d : Dialect}

/-! ### Well-formed names -/

namespace Identifier

/-- The name of the source that a qualifier refers to; raw SQL refers to none. -/
def qualifierName? : Identifier → Option String
  | name s => some s
  | aliased _ aliasName => some aliasName
  | literal _ | record _ => none

theorem asQualifier_of_wellNamed {i : Identifier} (h : i.WellNamed) {name : String}
    (hname : i.qualifierName? = some name) : i.asQualifier = .ok ⟨name, none, none⟩ := by
  cases i with
  | name s =>
    cases hname
    rw [asQualifier, checkName_eq_ok.2 h]
    rfl
  | aliased base aliasName =>
    cases hname
    rw [asQualifier, checkName_eq_ok.2 h.1, recordType?_of_wellNamed h.2]
    rfl
  | literal sql | record t => cases hname

theorem succeeds_asColumn {i : Identifier} (h : i.WellNamed) : Succeeds (i.asColumn none) := by
  induction i with
  | name s => exact ⟨_, by rw [asColumn, checkName_eq_ok.2 h]; rfl⟩
  | aliased base aliasName ih =>
    obtain ⟨column, hcolumn⟩ := ih h.2
    exact ⟨_, by rw [asColumn, checkName_eq_ok.2 h.1, hcolumn]; rfl⟩
  | literal sql => exact ⟨_, rfl⟩
  | record t => exact h.elim

end Identifier

/-- The names of a field are well-formed, and raw SQL does not qualify it. -/
def Field.WellNamed (f : Field) : Prop :=
  f.name.WellNamed ∧ ∀ t ∈ f.table, t.WellNamed ∧ t.qualifierName? ≠ none

/-- The names of a column and its alias are well-formed. -/
def Column.WellNamed (c : Column) : Prop :=
  c.name.WellNamed ∧ ∀ a ∈ c.alias?, WellFormedName a

/-- The names in the condition of a join are well-formed, and raw SQL does not stand for a
source. -/
def JoinCondition.WellNamed : JoinCondition → Prop
  | columns field other otherField _ =>
    field.WellNamed ∧ (other.WellNamed ∧ other.qualifierName? ≠ none) ∧ otherField.WellNamed
  | raw _ => True

theorem Field.succeeds_sql_of_wellNamed {f : Field} (h : f.WellNamed) : Succeeds (f.sql none) := by
  obtain ⟨column, hcolumn⟩ := Identifier.succeeds_asColumn h.1
  refine succeeds_sql.2 ?_
  unfold resolve
  cases htable : f.table with
  | none =>
    simp only [hcolumn]
    exact ⟨_, rfl⟩
  | some table =>
    obtain ⟨htable, hqualifier⟩ := h.2 table htable
    obtain ⟨name, hname⟩ := Option.ne_none_iff_exists'.1 hqualifier
    simp only [Identifier.asQualifier_of_wellNamed htable hname, Except.ok_bind, hcolumn]
    exact ⟨_, rfl⟩

theorem Column.succeeds_sql_of_wellNamed {c : Column} (h : c.WellNamed) :
    Succeeds (c.sql none none none) := by
  obtain ⟨⟨column, alias?⟩, hcolumn⟩ := Identifier.succeeds_asColumn h.1
  refine succeeds_sql.2 ⟨column, alias?, hcolumn, fun a ha => ?_⟩
  obtain halias | ⟨-, halias⟩ := Option.or_eq_some_iff.1 ha
  · exact checkName_eq_ok.2 (h.2 a halias)
  · exact Identifier.checkName_of_asColumn hcolumn a halias

/-- The columns of an entry. -/
def SourceItem.columns : SourceItem σ → List Column
  | plain _ columns | lateral _ columns => columns.listed
  | expressions columns => columns

namespace Select

/-- The columns that a select lists. -/
def columns (s : Select σ) : List Column :=
  s.items.flatMap SourceItem.columns
    ++ s.joins.flatMap fun j => j.columns.toList.flatMap Columns.listed

/-- The fields of a select. -/
def fields (s : Select σ) : List Field :=
  (s.filter.pending ++ s.having.pending).flatMap Predicate.fields ++ s.groupBy
    ++ s.orderBy.map Prod.fst

/-- All names of a select are well-formed, and none is a record. -/
structure WellNamed (s : Select σ) : Prop where
  sources : ∀ source ∈ s.sources, source.WellNamed
  columns : ∀ c ∈ s.columns, c.WellNamed
  conditions : ∀ j ∈ s.joins, ∀ condition ∈ j.condition, condition.WellNamed
  fields : ∀ f ∈ s.fields, f.WellNamed

end Select

/-! ### Well-formed selects -/

/-- The source that the condition of a join names besides the joined one. -/
def JoinCondition.other? : JoinCondition → Option Identifier
  | columns _ other _ _ => some other
  | raw _ => none

/-- The join has a condition unless it is a cross or a natural one, and the condition names a source
of the given ones. -/
def Join.IsConditioned (names : List String) (j : Join σ) : Prop :=
  (j.condition = none ↔ j.kind = .cross ∨ j.kind = .natural)
    ∧ ∀ other ∈ j.condition.bind JoinCondition.other?,
      ∃ name ∈ names, other.qualifierName? = some name

/-- The structure of a select whose conditions are built by the given calls is accepted. -/
structure Select.IsWellFormed (s : Select σ) (filterCalls havingCalls : List (ConditionCall σ)) :
    Prop where
  /-- No call met an error. -/
  kept : s.deferred = none
  filter : ConditionCall.WellBracketed filterCalls
  having : ConditionCall.WellBracketed havingCalls
  /-- There is an entry, or the select is a bare union. -/
  entries : s.items ≠ [] ∨ 2 ≤ s.unions.length ∧ s.joins = [] ∧ filterCalls = [] ∧ s.groupBy = []
    ∧ havingCalls = []
  joined : s.joins ≠ [] → s.fromSources ≠ []
  members : ∀ u ∈ s.unions, ∀ kind, u.member ≠ .refused kind
  /-- No alias that was asked for is empty or registered before. -/
  aliases : ∀ before source after, s.sources = before ++ source :: after →
    ∀ a ∈ source.alias?, a ≠ "" ∧ a ∉ Source.names before
  /-- The condition of a join names a source of the `FROM` list or of an earlier join. -/
  on : ∀ before j after, s.joins = before ++ j :: after →
    j.IsConditioned (Source.names (s.fromSources ++ before.map Join.source))
  /-- The select list, where there is one, is not empty. -/
  list : s.items ≠ [] → (∃ i ∈ s.items, i ≠ .expressions []) ∨ ∃ j ∈ s.joins, j.columns ≠ none

/-! ### Joins -/

theorem JoinKind.takesCondition_eq_false {kind : JoinKind} :
    kind.takesCondition = false ↔ kind = .cross ∨ kind = .natural := by
  cases kind <;> decide

namespace Select

variable {prior : List (Binding σ)}

/-- A condition on two columns can be written exactly if one of the sources before the join has the
name of the other one. -/
theorem succeeds_joinConditionSql (hprior : ∀ b ∈ prior, b.record = none) {joined : Binding σ}
    (hjoined : joined.record = none) {field other otherField : Identifier} {operator : String}
    (hnames : (JoinCondition.columns field other otherField operator).WellNamed) :
    Succeeds (joinConditionSql prior joined (.columns field other otherField operator))
      ↔ ∃ name ∈ prior.map Binding.qualifier, other.qualifierName? = some name := by
  obtain ⟨hfield, ⟨hother, hqualifier⟩, hotherField⟩ := hnames
  obtain ⟨name, hname⟩ := Option.ne_none_iff_exists'.1 hqualifier
  simp only [joinConditionSql, Identifier.asQualifier_of_wellNamed hother hname, Except.ok_bind,
    hname, Option.some.injEq, exists_eq_right']
  cases hfind : prior.find? fun b => b.qualifier == name with
  | none =>
    have hmem : name ∉ prior.map Binding.qualifier := by
      simpa using List.find?_eq_none.1 hfind
    exact iff_of_false (Except.not_succeeds_error _) hmem
  | some b =>
    have hb := List.mem_of_find?_eq_some hfind
    have hmem : name ∈ prior.map Binding.qualifier := by
      have hsame : b.qualifier = name := by simpa using List.find?_some hfind
      exact hsame ▸ List.mem_map_of_mem hb
    obtain ⟨column, hcolumn⟩ := Identifier.succeeds_asColumn hfield
    obtain ⟨otherColumn, hotherColumn⟩ := Identifier.succeeds_asColumn hotherField
    refine iff_of_true ?_ hmem
    simp only [hprior b hb, hjoined, Option.or_none, hcolumn, hotherColumn]
    exact ⟨_, rfl⟩

theorem succeeds_joinOnSql (hprior : ∀ b ∈ prior, b.record = none) {j : BoundJoin σ}
    (hjoined : j.binding.record = none)
    (hnames : ∀ condition ∈ j.join.condition, condition.WellNamed) :
    Succeeds (joinOnSql prior j) ↔ j.join.IsConditioned (prior.map Binding.qualifier) := by
  unfold joinOnSql Join.IsConditioned
  rw [← JoinKind.takesCondition_eq_false]
  cases hcondition : j.join.condition with
  | none => cases j.join.kind.takesCondition <;> simp
  | some condition =>
    cases j.join.kind.takesCondition with
    | false => simp
    | true =>
      cases condition with
      | raw sql => simp [joinConditionSql, JoinCondition.other?]
      | columns field other otherField operator =>
        have hcolumns := hnames _ hcondition
        simpa [JoinCondition.other?] using succeeds_joinConditionSql hprior hjoined hcolumns

end Select

/-! ### The clauses -/

namespace Scope

variable {s : Select σ} {scope : Scope σ} (hnames : s.WellNamed) (hbind : bind s = .ok scope)

include hnames hbind

theorem record_of_mem {b : Binding σ} (hb : b ∈ scope.bindings) : b.record = none := by
  obtain ⟨hitems, hjoins⟩ := forall₂_bind hbind
  obtain ⟨hfrom, hjoined⟩ := List.forall_mem_append.1 hnames.sources
  obtain hb | hb := List.mem_append.1 hb
  · obtain ⟨i, hi, hib⟩ := List.mem_filterMap.1 hb
    obtain ⟨item, hitem, hbound⟩ := exists_of_forall₂ hitems.flip i hi
    have hsource (source : Source σ) (hsource : item.source? = some source) : source.WellNamed :=
      hfrom source (List.mem_filterMap.2 ⟨item, hitem, hsource⟩)
    cases hbound with
    | plain hof columns | lateral hof columns =>
      cases hib
      rw [hof.spec.1]
      exact Source.recordType?_of_wellNamed (hsource _ rfl)
    | expressions columns => cases hib
  · obtain ⟨j, hj, rfl⟩ := List.mem_map.1 hb
    obtain ⟨join, hjoin, -, hof⟩ := exists_of_forall₂ hjoins.flip j hj
    rw [hof.spec.1]
    exact Source.recordType?_of_wellNamed (hjoined _ (List.mem_map_of_mem hjoin))

/-- The select list can be written exactly if it is not empty. -/
theorem succeeds_selectList_iff :
    Succeeds scope.selectList
      ↔ (∃ i ∈ s.items, i ≠ .expressions []) ∨ ∃ j ∈ s.joins, j.columns ≠ none := by
  obtain ⟨hitems, hjoins⟩ := forall₂_bind hbind
  obtain ⟨hitemColumns, hjoinColumns⟩ := List.forall_mem_append.1 hnames.columns
  have hitemList : ∀ i ∈ scope.items, Succeeds i.listSql := by
    intro i hi
    obtain ⟨item, hitem, hbound⟩ := exists_of_forall₂ hitems.flip i hi
    have hcolumns := List.forall_mem_flatMap.1 hitemColumns item hitem
    cases hbound with
    | @plain b _ hof columns | @lateral b _ hof columns =>
      have hb : b ∈ scope.bindings :=
        List.mem_append_left _ (List.mem_filterMap.2 ⟨_, hi, rfl⟩)
      refine Binding.succeeds_listSql.2 fun c hc => ?_
      rw [record_of_mem hnames hbind hb]
      exact Column.succeeds_sql_of_wellNamed (hcolumns c hc)
    | expressions columns =>
      exact Except.succeeds_mapM.2 fun c hc => Column.succeeds_sql_of_wellNamed (hcolumns c hc)
  have hjoinList : ∀ j ∈ scope.joins, Succeeds j.listSql := by
    intro j hj
    obtain ⟨join, hjoin, rfl, hof⟩ := exists_of_forall₂ hjoins.flip j hj
    have hb : j.binding ∈ scope.bindings := List.mem_append_right _ (List.mem_map_of_mem hj)
    refine BoundJoin.succeeds_listSql.2 fun columns hcolumns => ?_
    refine Binding.succeeds_listSql.2 fun c hc => ?_
    rw [record_of_mem hnames hbind hb]
    refine Column.succeeds_sql_of_wellNamed (List.forall_mem_flatMap.1 hjoinColumns _ hjoin c ?_)
    exact List.mem_flatMap.2 ⟨columns, Option.mem_toList.2 hcolumns, hc⟩
  have hnoItem : (∀ i ∈ s.items, i = .expressions [])
      ↔ ∀ i ∈ scope.items, i = .expressions [] := by
    refine forall_mem_iff_of_forall₂ hitems fun item i hbound => ?_
    cases hbound <;> simp
  have hnoJoin : (∀ j ∈ s.joins, j.columns = none)
      ↔ ∀ j ∈ scope.joins, j.join.columns = none :=
    forall_mem_iff_of_forall₂ hjoins fun join j hbound => by rw [hbound.1]
  simp only [succeeds_selectList, ← hnoItem, ← hnoJoin, not_and_or, not_forall, exists_prop]
  exact ⟨fun h => h.2.2, fun h => ⟨hitemList, hjoinList, h⟩⟩

end Scope

namespace Select

variable {s : Select σ} (hnames : s.WellNamed)

include hnames

theorem target_of_wellNamed : s.target = none := by
  unfold target
  split
  · rename_i source columns hitems hjoins
    refine Source.recordType?_of_wellNamed (hnames.sources source ?_)
    simp [sources, fromSources, hitems, SourceItem.source?]
  · rfl

theorem fits_of_wellNamed (hilike : d.supportsIlike = true) {p : Predicate σ}
    (hp : p ∈ s.filter.pending ++ s.having.pending) : p.Fits d none := by
  refine ⟨Predicate.checkIlike_of_supportsIlike hilike p.operator, fun f hf => ?_⟩
  refine Field.succeeds_sql_of_wellNamed (hnames.fields f ?_)
  simp only [fields, List.mem_append, List.mem_flatMap]
  exact .inl (.inl ⟨p, List.mem_append.1 hp, hf⟩)

/-- The conditions of the joins can be written exactly if each join has a condition where it needs
one, on a source before it. -/
theorem succeeds_on_iff {scope : Scope σ} (hbind : Scope.bind s = .ok scope) :
    (∀ before j after, scope.joins = before ++ j :: after →
        Succeeds (joinOnSql (scope.fromBindings ++ before.map BoundJoin.binding) j))
      ↔ ∀ before j after, s.joins = before ++ j :: after →
        j.IsConditioned (Source.names (s.fromSources ++ before.map Join.source)) := by
  rw [← BoundJoin.map_join (Scope.forall₂_bind hbind).2, forall_split_map]
  refine forall₄_congr fun before j after hsplit => ?_
  have hj : j ∈ scope.joins := by simp [hsplit]
  have hjoin : j.join ∈ s.joins := by
    rw [← BoundJoin.map_join (Scope.forall₂_bind hbind).2]
    exact List.mem_map_of_mem hj
  have hrecord : ∀ b ∈ scope.bindings, b.record = none :=
    fun b hb => Scope.record_of_mem hnames hbind hb
  have hsubset : scope.fromBindings ++ before.map BoundJoin.binding ⊆ scope.bindings := by
    rw [Scope.bindings, hsplit, List.map_append, ← List.append_assoc]
    exact List.subset_append_left ..
  have hprior : ∀ b ∈ scope.fromBindings ++ before.map BoundJoin.binding, b.record = none :=
    fun b hb => hrecord b (hsubset hb)
  have hjoined : j.binding.record = none :=
    hrecord _ (List.mem_append_right _ (List.mem_map_of_mem hj))
  rw [succeeds_joinOnSql hprior hjoined (hnames.conditions _ hjoin),
    Scope.names_before hnames.sources hbind hsplit]

/-- The clauses of a select fit if its aliases are free, its joins are conditioned, and it selects
something. -/
theorem exists_clausesFit_iff (hilike : d.supportsIlike = true) :
    (∃ scope, s.ClausesFit d scope)
      ↔ Source.AliasesFree [] s.sources
        ∧ (∀ before j after, s.joins = before ++ j :: after →
            j.IsConditioned (Source.names (s.fromSources ++ before.map Join.source)))
        ∧ ((∃ i ∈ s.items, i ≠ .expressions []) ∨ ∃ j ∈ s.joins, j.columns ≠ none) := by
  rw [← Scope.succeeds_bind hnames.sources]
  constructor
  · rintro ⟨scope, hfit⟩
    exact ⟨⟨scope, hfit.bound⟩, (succeeds_on_iff hnames hfit.bound).1 hfit.on,
      (Scope.succeeds_selectList_iff hnames hfit.bound).1 hfit.list⟩
  · rintro ⟨⟨scope, hbind⟩, hon, hlist⟩
    refine ⟨scope, hbind, (Scope.succeeds_selectList_iff hnames hbind).2 hlist,
      (succeeds_on_iff hnames hbind).2 hon, fun p hp => ?_, fun f hf => ?_, fun p hp => ?_⟩
    · rw [target_of_wellNamed hnames]
      exact fits_of_wellNamed hnames hilike (List.mem_append_left _ hp)
    · exact Field.succeeds_sql_of_wellNamed (hnames.fields f (by simp [fields, hf]))
    · exact fits_of_wellNamed hnames hilike (List.mem_append_right _ hp)

omit hnames

/-- Whether the clauses fit does not depend on the queries. -/
theorem clausesFit_map {f : σ → τ} {scope : Scope σ} (hbind : Scope.bind s = .ok scope) :
    (s.map f).ClausesFit d (scope.map f) ↔ s.ClausesFit d scope := by
  have hbound : Scope.bind (s.map f) = .ok (scope.map f) := by
    rw [Scope.bind_map, hbind]
    rfl
  have hon : (∀ before j after, (scope.map f).joins = before ++ j :: after →
        Succeeds (joinOnSql ((scope.map f).fromBindings ++ before.map BoundJoin.binding) j))
      ↔ ∀ before j after, scope.joins = before ++ j :: after →
        Succeeds (joinOnSql (scope.fromBindings ++ before.map BoundJoin.binding) j) := by
    refine (forall_split_map (BoundJoin.map f)).trans (forall₄_congr fun before j after _ => ?_)
    have hprior : (scope.map f).fromBindings
          ++ (before.map (BoundJoin.map f)).map BoundJoin.binding
        = (scope.fromBindings ++ before.map BoundJoin.binding).map (Binding.map f) := by
      simp [Scope.fromBindings_map, BoundJoin.map]
    rw [hprior, joinOnSql_map]
  have hfits (c : Condition σ) (owner : Option RecordType) :
      (∀ p ∈ (c.map f).pending, p.Fits d owner) ↔ ∀ p ∈ c.pending, p.Fits d owner := by
    simp [Condition.pending_map, Predicate.Fits, Predicate.map, Predicate.fields]
  constructor
  · intro h
    have hfilter := h.filter
    rw [target_map] at hfilter
    exact ⟨hbind, by simpa using h.list, hon.1 h.on, (hfits _ _).1 hfilter, h.groupBy,
      (hfits _ _).1 h.having⟩
  · intro h
    refine ⟨hbound, by simpa using h.list, hon.2 h.on, ?_, h.groupBy, (hfits _ _).2 h.having⟩
    rw [target_map]
    exact (hfits _ _).2 h.filter

theorem exists_clausesFit_map {f : σ → τ} :
    (∃ scope, (s.map f).ClausesFit d scope) ↔ ∃ scope, s.ClausesFit d scope := by
  constructor
  · rintro ⟨scope, hfit⟩
    have hbound := hfit.bound
    rw [Scope.bind_map] at hbound
    obtain ⟨scope, hbind, rfl⟩ := Except.map_eq_ok.1 hbound
    exact ⟨scope, (clausesFit_map hbind).1 hfit⟩
  · rintro ⟨scope, hfit⟩
    exact ⟨scope.map f, (clausesFit_map hfit.bound).2 hfit⟩

/-! ### The checks -/

theorem fromSources_ne_nil_iff :
    s.fromSources ≠ [] ↔ s.items.any SourceItem.isSource = true := by
  rw [fromSources, ne_eq, List.filterMap_eq_nil_iff, List.any_eq_true]
  simp only [not_forall, exists_prop]
  refine exists_congr fun i => and_congr_right fun _ => ?_
  cases i <;> simp [SourceItem.source?, SourceItem.isSource]

theorem checkBareUnion_eq_ok :
    s.checkBareUnion = .ok () ↔ 2 ≤ s.unions.length ∧ s.hasSourceClause = false := by
  unfold checkBareUnion
  by_cases hunions : s.unions = []
  · simp [hunions]
  · rw [if_neg (by simpa using hunions)]
    cases s.hasSourceClause with
    | true => simp
    | false =>
      rw [if_neg Bool.false_ne_true]
      by_cases hlength : s.unions.length < 2
      · rw [if_pos hlength]
        exact iff_of_false nofun fun h => absurd h.1 (Nat.not_le.2 hlength)
      · rw [if_neg hlength]
        exact iff_of_true rfl ⟨Nat.not_lt.1 hlength, rfl⟩

theorem hasSourceClause_eq_false :
    s.hasSourceClause = false
      ↔ s.joins = [] ∧ s.filter.isEmpty = true ∧ s.groupBy = [] ∧ s.having.isEmpty = true := by
  simp [hasSourceClause, and_assoc]

/-! ### Built selects -/

section Built

variable {filterCalls havingCalls : List (ConditionCall σ)}
  (hfilter : s.filter = .build .parenthesized filterCalls)
  (hhaving : s.having = .build .parenthesized havingCalls)

include hfilter hhaving

/-- The checks are passed exactly if the structure of the select is right as far as it can be told
without names. -/
theorem check_build_iff :
    s.check = .ok () ↔
      s.deferred = none ∧ ConditionCall.WellBracketed filterCalls
        ∧ ConditionCall.WellBracketed havingCalls
        ∧ (s.items ≠ [] ∨ 2 ≤ s.unions.length ∧ s.joins = [] ∧ filterCalls = [] ∧ s.groupBy = []
          ∧ havingCalls = [])
        ∧ (s.joins ≠ [] → s.fromSources ≠ [])
        ∧ ∀ u ∈ s.unions, ∀ kind, u.member ≠ .refused kind := by
  rw [check_eq_ok, fromSources_ne_nil_iff, hfilter, hhaving, Condition.check_build,
    Condition.check_build]
  refine and_congr_right fun _ => and_congr_right fun hfilterCalls => ?_
  refine and_congr_right fun hhavingCalls => and_congr_left fun _ => ?_
  rw [checkBareUnion_eq_ok, hasSourceClause_eq_false, hfilter, hhaving,
    Condition.isEmpty_build _ hfilterCalls, Condition.isEmpty_build _ hhavingCalls,
    or_iff_not_imp_left, not_not]

/-- A select is accepted exactly if it is well-formed and its queries are accepted. -/
theorem succeeds_render_iff_isWellFormed {f : σ → Rendered} (hilike : d.supportsIlike = true)
    (hnames : s.WellNamed) :
    Succeeds ((s.map f).render d)
      ↔ s.IsWellFormed filterCalls havingCalls ∧ ∀ q ∈ s.queries, Succeeds (f q) := by
  have horderBy : ∀ p ∈ (s.map f).orderBy, Succeeds (p.1.sql none) :=
    fun p hp => Field.succeeds_sql_of_wellNamed (hnames.fields p.1
      (List.mem_append_right _ (List.mem_map_of_mem hp)))
  have hitems : (s.map f).items ≠ [] ↔ s.items ≠ [] := by
    simp [map]
  rw [succeeds_render, check_map, check_build_iff hfilter hhaving, hitems, exists_clausesFit_map,
    exists_clausesFit_iff hnames hilike, queries_map, List.forall_mem_map]
  constructor
  · rintro ⟨⟨hkept, hfilterCalls, hhavingCalls, hentries, hjoined, hmembers⟩, -, hfit, hqueries⟩
    -- a bare union binds nothing, but it has no sources whose aliases could be taken
    have hbound : Source.AliasesFree [] s.sources
        ∧ ∀ before j after, s.joins = before ++ j :: after →
          j.IsConditioned (Source.names (s.fromSources ++ before.map Join.source)) := by
      by_cases hne : s.items = []
      · obtain ⟨-, hjoins, -⟩ := hentries.resolve_left (not_not.2 hne)
        have hsources : s.sources = [] := by simp [sources, fromSources, hne, hjoins]
        exact ⟨by simp [Source.AliasesFree, hsources], by simp [hjoins]⟩
      · exact ⟨(hfit hne).1, (hfit hne).2.1⟩
    exact ⟨⟨hkept, hfilterCalls, hhavingCalls, hentries, hjoined, hmembers, hbound.1, hbound.2,
      fun hne => (hfit hne).2.2⟩, hqueries⟩
  · rintro ⟨h, hqueries⟩
    exact ⟨⟨h.kept, h.filter, h.having, h.entries, h.joined, h.members⟩, horderBy,
      fun hne => ⟨h.aliases, h.on, h.list hne⟩, hqueries⟩

end Built

/-- Where `ILIKE` is supported, a select with well-formed names is assembled exactly if its calls
give it a well-formed structure and each query in it is assembled on its own. -/
theorem assemble_iff_isWellFormed {calls : List (SelectCall Query)}
    (hilike : d.supportsIlike = true) (hnames : (build d calls).WellNamed) :
    (∃ a, (Command.select (build d calls)).assemble = .ok a)
      ↔ (build d calls).IsWellFormed (calls.filterMap SelectCall.filterCall?)
          (calls.filterMap SelectCall.havingCall?)
        ∧ ∀ q ∈ (build d calls).queries,
          ∃ a, ((Command.select q.select).withDialect d).assemble = .ok a := by
  have hdialect : (Command.select (build d calls)).dialect = d := dialect_build d calls
  have hassemble : Succeeds (Command.select (build d calls)).assemble
      ↔ Succeeds (((build d calls).map (Query.render d)).render d) := by
    rw [Command.assemble_eq, hdialect, Except.succeeds_map, ← Query.render_of]
    rfl
  have hinner (q : Query) : Succeeds ((Command.select q.select).withDialect d).assemble
      ↔ Succeeds (q.render d) := by
    obtain ⟨select⟩ := q
    rw [Command.assemble_withDialect, Except.succeeds_map]
    rfl
  refine hassemble.trans ?_
  rw [succeeds_render_iff_isWellFormed (filter_build d calls) (having_build d calls) hilike hnames]
  exact and_congr_right fun _ => forall₂_congr fun q _ => (hinner q).symm

/-- A table twice, without an alias, and a query that is joined to the second one under the given
alias. -/
def visits (aliasName : String) : List (SelectCall Query) :=
  [.source (.table (.name "visit") none) .all,
    .source (.table (.name "visit") none) (.list [{ name := .name "day" }]),
    .join
      { kind := .left
        source := .subquery (.of (.build .sqlite [.source (.table (.name "guest") none) .all]))
          (some aliasName)
        condition := some (.columns (.name "id") (.name "visit_2") (.name "guest") "=") },
    .filter (.openGroup .and),
    .filter (.add .and { table := some (.name "visit_2"), name := .name "day" } "="
      (.value (.int 1))),
    .filter .closeGroup]

theorem wellNamed_visits (aliasName : String) :
    (build .generic (visits aliasName)).WellNamed where
  sources := by
    have hvisit : WellFormedName "visit" := by decide
    have hsources : (build .generic (visits aliasName)).sources
        = [.table (.name "visit") none, .table (.name "visit") none, .subquery _ _] := rfl
    rw [hsources]
    simp [Source.WellNamed, Identifier.WellNamed, hvisit]
  columns := by
    have hcolumns : (build .generic (visits aliasName)).columns = [{ name := .name "day" }] := rfl
    rw [hcolumns]
    simp [Column.WellNamed, Identifier.WellNamed]
    decide
  conditions := by
    have hjoins : (build .generic (visits aliasName)).joins = [_] := rfl
    rw [hjoins]
    simp [JoinCondition.WellNamed, Identifier.WellNamed, Identifier.qualifierName?]
    decide
  fields := by
    have hfields : (build .generic (visits aliasName)).fields
        = [{ table := some (.name "visit_2"), name := .name "day" }] := rfl
    rw [hfields]
    simp [Field.WellNamed, Identifier.WellNamed, Identifier.qualifierName?]
    decide

set_option maxRecDepth 10000 in
/-- The second table is registered under a numbered alias, which is not free any more. -/
theorem assemble_iff_isWellFormed_visits :
    (build .generic (visits "g")).IsWellFormed ((visits "g").filterMap SelectCall.filterCall?) []
      ∧ ¬ (build .generic (visits "visit_2")).IsWellFormed
        ((visits "visit_2").filterMap SelectCall.filterCall?) [] := by
  constructor
  · exact ((assemble_iff_isWellFormed rfl (wellNamed_visits "g")).1 ⟨_, rfl⟩).1
  · intro h
    have hinner : ∀ q ∈ (build .generic (visits "visit_2")).queries,
        ∃ a, ((Command.select q.select).withDialect .generic).assemble = .ok a :=
      List.forall_mem_singleton.2 ⟨_, rfl⟩
    obtain ⟨a, ha⟩ := (assemble_iff_isWellFormed rfl (wellNamed_visits "visit_2")).2 ⟨h, hinner⟩
    have herror : (Command.select (build .generic (visits "visit_2"))).assemble
        = .error (.duplicateAlias "visit_2") := rfl
    rw [herror] at ha
    cases ha

end Select

end SqlAssembly
