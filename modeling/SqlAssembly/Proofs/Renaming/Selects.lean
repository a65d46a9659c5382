import SqlAssembly.Proofs.Bindings
import SqlAssembly.Proofs.Query.Scope
import SqlAssembly.Proofs.Renaming.Conditions

/-!
# Renaming selects from one table

The SQL of a select from one table, on plain names and bound values, is renamed with the select. The
alias of a table is dropped exactly if that of the renamed table is, and no alias is numbered, as
there is no other source.
-/

namespace SqlAssembly

variable {r : Renaming} {σ τ : Type}

/-! ### Sources -/

namespace Source

def rename (r : Renaming) : Source σ → Source σ
  | table name schema => table (name.rename r) (schema.map r)
  | subquery query alias? => subquery query (alias?.map r)

/-- Whether the source is a table with a plain name. -/
def isPlain : Source σ → Bool
  | table name _ => name.isPlain
  | subquery _ _ => false

@[simp] theorem rename_map (f : σ → τ) (s : Source σ) :
    (s.map f).rename r = (s.rename r).map f := by
  cases s <;> rfl

@[simp] theorem isPlain_map (f : σ → τ) (s : Source σ) : (s.map f).isPlain = s.isPlain := by
  cases s <;> rfl

@[simp] theorem isPlain_rename (s : Source σ) : (s.rename r).isPlain = s.isPlain := by
  cases s with
  | table name schema => exact name.isPlain_rename
  | subquery query alias? => rfl

theorem recordType?_of_isPlain {s : Source σ} (h : s.isPlain) : s.recordType? = none := by
  cases s with
  | table name schema => exact Identifier.recordType?_of_isPlain h
  | subquery query alias? => cases h

theorem leVia_asTarget (kind : StatementKind) {s : Source σ} (h : s.isPlain) :
    Except.LeVia (TableRef.Renamed r) (s.asTarget kind) ((s.rename r).asTarget kind) := by
  cases s with
  | table name schema => exact Identifier.leVia_asTable h schema
  | subquery query alias? => cases h

end Source

namespace SourceItem

def rename (r : Renaming) : SourceItem σ → SourceItem σ
  | plain source columns => plain (source.rename r) (columns.rename r)
  | lateral source columns => lateral (source.rename r) (columns.rename r)
  | expressions columns => expressions (columns.map (Column.rename r))

/-- Whether source and columns are plain. -/
def isPlain : SourceItem σ → Bool
  | plain source columns | lateral source columns => source.isPlain && columns.isPlain
  | expressions columns => columns.all Column.isPlain

@[simp] theorem rename_map (f : σ → τ) (i : SourceItem σ) :
    (i.map f).rename r = (i.rename r).map f := by
  cases i <;> simp [rename, map]

@[simp] theorem isPlain_map (f : σ → τ) (i : SourceItem σ) : (i.map f).isPlain = i.isPlain := by
  cases i <;> simp [isPlain, map]

@[simp] theorem isPlain_rename (i : SourceItem σ) : (i.rename r).isPlain = i.isPlain := by
  cases i with
  | plain source columns | lateral source columns => simp [isPlain, rename]
  | expressions columns => exact Column.all_isPlain_map_rename columns

@[simp] theorem isSource_rename (i : SourceItem σ) : (i.rename r).isSource = i.isSource := by
  cases i <;> rfl

end SourceItem

/-! ### Bindings -/

/-- A bound table and the renamed bound table. -/
inductive Binding.Renamed (r : Renaming) : Binding σ → Binding σ → Prop where
  | mk (qualifier : String) (alias? schema : Option String) (qualifies : Bool) (table : String)
    (tableSchema : Option String) :
    Renamed r ⟨qualifier, alias?, schema, qualifies, none, .table (.name table) tableSchema⟩
      ⟨r qualifier, alias?.map r, schema.map r, qualifies, none,
        .table (.name (r table)) (tableSchema.map r)⟩

namespace Binding

theorem leVia_ofTable {t t' : TableRef} (h : TableRef.Renamed r t t') :
    Except.LeVia (Renamed r) (ofTable [] none t : Except SqlError (Binding σ))
      (ofTable [] none t') := by
  obtain ⟨schema, name, alias?, halias⟩ := h
  cases alias? with
  | none => exact Except.leVia_ok (.mk name none schema false name schema)
  | some aliasName =>
    have hne : r aliasName ≠ "" := (r.wellFormed (halias aliasName rfl)).1
    have hclaim : Except.LeVia (fun a a' => a = aliasName ∧ a' = r aliasName)
        (claimAlias aliasName []) (claimAlias (r aliasName) []) := by
      intro a ha
      obtain ⟨rfl, -⟩ := claimAlias_eq_ok.1 ha
      exact ⟨r a, claimAlias_eq_ok.2 ⟨rfl, hne, List.not_mem_nil⟩, rfl, rfl⟩
    refine hclaim.bind fun a a' hab => ?_
    obtain ⟨rfl, rfl⟩ := hab
    by_cases hname : name = a
    · subst hname
      simpa using Except.leVia_ok (.mk name none schema false name schema)
    · have hrenamed : r name ≠ r a := fun h => hname (r.injective h)
      simpa [hname, hrenamed] using Except.leVia_ok (.mk a (some a) none true name schema)

theorem leVia_ofSource {s : Source σ} (h : s.isPlain) :
    Except.LeVia (Renamed r) (ofSource [] s) (ofSource [] (s.rename r)) := by
  cases s with
  | table name schema =>
    have hname : name.isPlain = true := h
    have hrename : (name.rename r).isPlain = true := by rwa [Identifier.isPlain_rename]
    refine (Identifier.leVia_asTable hname schema).bind fun t t' ht => ?_
    rw [Identifier.recordType?_of_isPlain hname, Identifier.recordType?_of_isPlain hrename]
    exact leVia_ofTable ht
  | subquery query alias? => cases h

variable {b b' : Binding σ}

theorem leVia_listSql (h : Renamed r b b') (qualify : Bool) {columns : Columns}
    (hcolumns : columns.isPlain) :
    Except.LeVia (List.Forall₂ (Sql.Renamed r)) (b.listSql qualify columns)
      (b'.listSql qualify (columns.rename r)) := by
  obtain ⟨qualifier, alias?, schema, qualifies, table, tableSchema⟩ := h
  unfold listSql
  rw [Columns.listed_rename]
  have hlisted : columns.listed.all Column.isPlain := hcolumns
  generalize columns.listed = listed at hlisted
  cases listed with
  | nil =>
    exact (leVia_columnSql "*" none (some qualifier) schema).bind fun _ _ hsql =>
      Except.leVia_ok (.cons hsql .nil)
  | cons c cs =>
    cases qualify with
    | true => exact Column.leVia_mapM_sql hlisted (some qualifier) schema
    | false => exact Column.leVia_mapM_sql hlisted none none

theorem Renamed.leVia_sql {b b' : Binding Rendered} (h : Renamed r b b') :
    Except.LeVia (Sql.Renamed r) b.sql b'.sql := by
  obtain ⟨qualifier, alias?, schema, qualifies, table, tableSchema⟩ := h
  exact Except.leVia_ok ((Sql.Renamed.tableSql table tableSchema).append (.aliasSql alias?))

end Binding

/-! ### Scopes -/

/-- A bound entry and the renamed entry. -/
inductive BoundItem.Renamed (r : Renaming) : BoundItem σ → BoundItem σ → Prop where
  | source {b b' : Binding σ} (binding : Binding.Renamed r b b') (lateral : Bool)
    {columns : Columns} (plain : columns.isPlain) :
    Renamed r (.source b lateral columns) (.source b' lateral (columns.rename r))
  | expressions {columns : List Column} (plain : columns.all Column.isPlain) :
    Renamed r (.expressions columns) (.expressions (columns.map (Column.rename r)))

/-- At most one entry is a source, and if one is then no name is taken before it. -/
theorem SourceItem.leVia_bindAll {items : List (SourceItem σ)} {taken taken' : List String}
    (h : items.all isPlain)
    (hsingle : items.countP isSource = 0
      ∨ items.countP isSource = 1 ∧ taken = [] ∧ taken' = []) :
    Except.LeVia (List.Forall₂ (BoundItem.Renamed r)) (bindAll taken items)
      (bindAll taken' (items.map (rename r))) := by
  induction items generalizing taken taken' with
  | nil => exact Except.leVia_ok .nil
  | cons i is ih =>
    obtain ⟨hi, his⟩ : i.isPlain = true ∧ is.all isPlain = true := by simpa using h
    match i with
    | .plain s columns | .lateral s columns =>
      obtain ⟨hs, hcolumns⟩ : s.isPlain = true ∧ columns.isPlain = true := by
        simpa [isPlain] using hi
      obtain ⟨hrest, rfl, rfl⟩ : is.countP isSource = 0 ∧ taken = [] ∧ taken' = [] := by
        simpa [isSource, List.countP_cons] using hsingle
      exact (Binding.leVia_ofSource hs).bind fun b b' hb =>
        (ih his (.inl hrest)).bind fun bs bs' hbs =>
          Except.leVia_ok (.cons (.source hb _ hcolumns) hbs)
    | .expressions columns =>
      have hrest : is.countP isSource = 0
          ∨ is.countP isSource = 1 ∧ taken = [] ∧ taken' = [] := by
        simpa [isSource, List.countP_cons] using hsingle
      exact (ih his hrest).bind fun bs bs' hbs =>
        Except.leVia_ok (.cons (.expressions hi) hbs)

theorem BoundItem.leVia_listSql {i i' : BoundItem σ} (h : Renamed r i i') :
    Except.LeVia (List.Forall₂ (Sql.Renamed r)) i.listSql i'.listSql := by
  cases h with
  | source hb lateral hcolumns =>
    rename_i b b' columns
    have hqualifies : b'.qualifies = b.qualifies := by cases hb; rfl
    show Except.LeVia _ (b.listSql b.qualifies columns)
      (b'.listSql b'.qualifies (columns.rename r))
    rw [hqualifies]
    exact Binding.leVia_listSql hb b.qualifies hcolumns
  | expressions hcolumns => exact Column.leVia_mapM_sql hcolumns none none

/-- The bound sources of one kind. -/
theorem BoundItem.renamed_sources (lateral : Bool) {items items' : List (BoundItem σ)}
    (h : List.Forall₂ (BoundItem.Renamed r) items items') :
    List.Forall₂ (Binding.Renamed r) (sources lateral items) (sources lateral items') := by
  induction h with
  | nil => exact .nil
  | cons hi _ ih =>
    cases hi with
    | source hb l hcolumns =>
      by_cases hl : l = lateral
      · simpa [sources, hl] using ⟨hb, ih⟩
      · simpa [sources, hl] using ih
    | expressions hcolumns => exact ih

namespace Select

/-- Rename in a select without joins and unions. -/
def rename (r : Renaming) (s : Select σ) : Select σ :=
  { s with
    items := s.items.map (SourceItem.rename r)
    filter := s.filter.rename r
    groupBy := s.groupBy.map (Field.rename r)
    having := s.having.rename r
    orderBy := s.orderBy.map fun p => (p.1.rename r, p.2) }

/-- Whether all parts of the select are plain, and it has neither joins nor unions. -/
def hasPlainParts (s : Select σ) : Bool :=
  s.items.all SourceItem.isPlain && s.joins.isEmpty && s.unions.isEmpty && s.filter.isPlain
    && s.groupBy.all Field.isPlain && s.having.isPlain && s.orderBy.all fun p => p.1.isPlain

/-- Whether all parts of the select are plain, and it has at most one source. -/
def isPlain (s : Select σ) : Bool :=
  s.hasPlainParts && decide (s.items.countP SourceItem.isSource ≤ 1)

@[simp] theorem rename_map (f : σ → τ) (s : Select σ) :
    (s.map f).rename r = (s.rename r).map f := by
  simp [rename, map]

@[simp] theorem isPlain_map (f : σ → τ) (s : Select σ) : (s.map f).isPlain = s.isPlain := by
  have hitems : (s.items.map (SourceItem.map f)).all SourceItem.isPlain
      = s.items.all SourceItem.isPlain := by
    rw [List.all_map]
    congr 1
    exact funext fun i => i.isPlain_map f
  have hsources : (s.items.map (SourceItem.map f)).countP SourceItem.isSource
      = s.items.countP SourceItem.isSource := by
    rw [List.countP_map]
    congr 1
    exact funext fun i => isSource_map f i
  simp [isPlain, hasPlainParts, map, hitems, hsources]

theorem check_rename (s : Select σ) : (s.rename r).check = s.check := by
  have hsources : (s.items.map (SourceItem.rename r)).any SourceItem.isSource
      = s.items.any SourceItem.isSource := by
    rw [List.any_map]
    congr 1
    exact funext fun i => i.isSource_rename
  have hclause : (s.rename r).hasSourceClause = s.hasSourceClause := by
    simp [hasSourceClause, rename]
  have hbare : (s.rename r).checkBareUnion = s.checkBareUnion := by
    unfold checkBareUnion
    rw [hclause]
    rfl
  unfold check
  rw [hbare]
  simp only [rename, hsources, Condition.check_rename, List.isEmpty_map]

theorem target_of_isPlain {s : Select σ} (h : s.items.all SourceItem.isPlain) :
    s.target = none := by
  unfold target
  split
  · rename_i source columns hitems hjoins
    rw [hitems] at h
    have hsource : source.isPlain = true := by simp_all [SourceItem.isPlain]
    exact Source.recordType?_of_isPlain hsource
  · rfl

/-! ### Clauses -/

theorem renamed_listSql (distinct : Bool) {columns columns' : List Sql}
    (h : List.Forall₂ (Sql.Renamed r) columns columns') :
    Sql.Renamed r (listSql distinct columns) (listSql distinct columns') :=
  .text_append (by cases distinct <;> decide) (.join _ (by decide) h)

theorem leVia_fromSql {items items' : List (BoundItem Rendered)}
    (h : List.Forall₂ (BoundItem.Renamed r) items items') :
    Except.LeVia (Sql.Renamed r) (fromSql items) (fromSql items') := by
  refine (Except.leVia_mapM (BoundItem.renamed_sources false h) fun _ _ hb => hb.leVia_sql).bind
    fun plain plain' hplain => ?_
  have hlateral : Except.LeVia (List.Forall₂ (Sql.Renamed r))
      ((BoundItem.sources true items).mapM fun b => do
        return Sql.text "LATERAL " ++ (← b.sql))
      ((BoundItem.sources true items').mapM fun b => do
        return Sql.text "LATERAL " ++ (← b.sql)) :=
    Except.leVia_mapM (BoundItem.renamed_sources true h) fun _ _ hb =>
      hb.leVia_sql.bind fun _ _ hsql => Except.leVia_ok (.text_append (by decide) hsql)
  refine hlateral.bind fun lateral lateral' hlateral => ?_
  have hall : List.Forall₂ (Sql.Renamed r) (plain ++ lateral) (plain' ++ lateral') :=
    List.rel_append hplain hlateral
  generalize plain ++ lateral = tables at hall ⊢
  generalize plain' ++ lateral' = tables' at hall ⊢
  cases hall with
  | nil => exact Except.leVia_ok .nil
  | cons hfirst hrest =>
    exact Except.leVia_ok
      (.text_append (by decide) (.join _ (by decide) (.cons hfirst hrest)))

theorem leVia_mapM_field {fields : List Field} (h : fields.all Field.isPlain) :
    Except.LeVia (List.Forall₂ (Sql.Renamed r)) (fields.mapM (Field.sql none))
      ((fields.map (Field.rename r)).mapM (Field.sql none)) :=
  Except.leVia_mapM_map _ fun f hf => Field.leVia_sql (List.all_eq_true.1 h f hf)

theorem leVia_groupBySql {fields : List Field} (h : fields.all Field.isPlain) :
    Except.LeVia (Sql.Renamed r) (groupBySql fields)
      (groupBySql (fields.map (Field.rename r))) := by
  cases fields with
  | nil => exact Except.leVia_ok .nil
  | cons f fs =>
    exact (leVia_mapM_field h).bind fun _ _ hparts =>
      Except.leVia_ok (.text_append (by decide) (.join _ (by decide) hparts))

theorem leVia_orderBySql {fields : List (Field × Direction)}
    (h : fields.all fun p => p.1.isPlain) :
    Except.LeVia (Sql.Renamed r) (orderBySql fields)
      (orderBySql (fields.map fun p => (p.1.rename r, p.2))) := by
  have hpart : ∀ p ∈ fields, Except.LeVia (Sql.Renamed r)
      (do return (← p.1.sql none) ++ Sql.text (" " ++ p.2.keyword))
      (do return (← (p.1.rename r).sql none) ++ Sql.text (" " ++ p.2.keyword)) := by
    intro p hp
    refine (Field.leVia_sql (List.all_eq_true.1 h p hp)).bind fun _ _ hsql => Except.leVia_ok ?_
    exact hsql.append_text (by cases p.2 <;> decide)
  cases fields with
  | nil => exact Except.leVia_ok .nil
  | cons f fs =>
    exact (Except.leVia_mapM_map _ hpart).bind fun _ _ hparts =>
      Except.leVia_ok (.text_append (by decide) (.join _ (by decide) hparts))

theorem quote_notMem_toString (n : Int) : '"' ∉ (toString n).toList := by
  rw [toList_toString_int]
  have hdigits (m : Nat) : '"' ∉ (toString m).toList := fun h =>
    absurd (isDigit_of_mem_toString h) (by decide)
  split
  · exact hdigits _
  · simpa using hdigits _

theorem renamed_limitSql (limit offset : Option Int64) :
    Sql.Renamed r (limitSql limit offset) (limitSql limit offset) := by
  have hlimit (n : Int64) :
      '"' ∉ (if n < 0 then "LIMIT ALL" else "LIMIT " ++ toString n.toInt).toList := by
    split
    · decide
    · simpa using quote_notMem_toString n.toInt
  have hoffset (n : Int64) : '"' ∉ ("OFFSET " ++ toString n.toInt).toList := by
    simpa using quote_notMem_toString n.toInt
  cases limit with
  | none =>
    cases offset with
    | none => exact .nil
    | some m => exact .text (hoffset m)
  | some n =>
    cases offset with
    | none => exact .text (hlimit n)
    | some m =>
      refine .text ?_
      rw [String.toList_append, String.toList_append, List.mem_append, List.mem_append, not_or,
        not_or]
      exact ⟨⟨hlimit n, by decide⟩, hoffset m⟩

theorem leVia_tailSql {s : Select σ} (h : s.orderBy.all fun p => p.1.isPlain) :
    Except.LeVia (List.Forall₂ (Sql.Renamed r)) s.tailSql (s.rename r).tailSql := by
  have hforUpdate (b : Bool) : Sql.Renamed r (if b then Sql.text "FOR UPDATE" else [])
      (if b then Sql.text "FOR UPDATE" else []) := by
    cases b with
    | true => exact .text (by decide)
    | false => exact .nil
  exact (leVia_orderBySql h).bind fun _ _ horderBy =>
    Except.leVia_ok (.cons horderBy
      (.cons (renamed_limitSql s.limit s.offset) (.cons (hforUpdate s.forUpdate) .nil)))

theorem hasPlainParts_iff {s : Select σ} :
    s.hasPlainParts ↔ s.items.all SourceItem.isPlain ∧ s.joins = [] ∧ s.unions = []
      ∧ s.filter.isPlain ∧ s.groupBy.all Field.isPlain ∧ s.having.isPlain
      ∧ s.orderBy.all fun p => p.1.isPlain := by
  simp only [hasPlainParts, Bool.and_eq_true, List.isEmpty_iff, and_assoc]

theorem leVia_headSql {s : Select Rendered} (hitems : s.items.all SourceItem.isPlain)
    (hsingle : s.items.countP SourceItem.isSource ≤ 1) (hjoins : s.joins = []) :
    Except.LeVia (List.Forall₂ (Sql.Renamed r)) s.headSql (s.rename r).headSql := by
  have hbind : Except.LeVia
      (fun scope scope' => List.Forall₂ (BoundItem.Renamed r) scope.items scope'.items
        ∧ scope.joins = [] ∧ scope'.joins = [])
      (Scope.bind s) (Scope.bind (s.rename r)) := by
    refine (SourceItem.leVia_bindAll hitems ?_).bind fun items items' hitems => ?_
    · exact (Nat.le_one_iff_eq_zero_or_eq_one.1 hsingle).imp_right fun h => ⟨h, rfl, rfl⟩
    · rw [hjoins, show (s.rename r).joins = [] from hjoins]
      exact Except.leVia_ok ⟨hitems, rfl, rfl⟩
  refine hbind.bind fun ⟨items, joins⟩ ⟨items', joins'⟩ hscope => ?_
  obtain ⟨hitems, rfl, rfl⟩ := hscope
  have hlist : Except.LeVia (List.Forall₂ (Sql.Renamed r)) (Scope.selectList ⟨items, []⟩)
      (Scope.selectList ⟨items', []⟩) := by
    refine (Except.leVia_mapM hitems fun _ _ hi => BoundItem.leVia_listSql hi).bind
      fun columns columns' hcolumns => ?_
    simp only [List.mapM_nil, Except.pure_eq, Except.ok_bind, List.append_nil]
    have hcolumns : List.Forall₂ (Sql.Renamed r) columns.flatten columns'.flatten :=
      List.rel_flatten hcolumns
    generalize columns.flatten = listed at hcolumns ⊢
    generalize columns'.flatten = listed' at hcolumns ⊢
    cases hcolumns with
    | nil => exact Except.leVia_error _ _
    | cons hfirst hrest => exact Except.leVia_ok (.cons hfirst hrest)
  exact hlist.bind fun columns columns' hcolumns =>
    (leVia_fromSql hitems).bind fun sources sources' hsources =>
      Except.leVia_ok (.cons (renamed_listSql s.distinct hcolumns) (.cons hsources .nil))

theorem leVia_filterSql {d : Dialect} (hquote : d.quoteIdentifier = doubleQuoted)
    {s : Select Rendered} (h : s.hasPlainParts) :
    Except.LeVia (List.Forall₂ (Sql.Renamed r)) (s.filterSql d) ((s.rename r).filterSql d) := by
  obtain ⟨hitems, -, -, hfilter, hgroupBy, hhaving, -⟩ := hasPlainParts_iff.1 h
  have hrenamed : (s.rename r).items.all SourceItem.isPlain := by
    simpa [rename] using hitems
  unfold filterSql
  rw [target_of_isPlain hitems, target_of_isPlain hrenamed]
  exact (Condition.leVia_renderClause hquote (by decide) hfilter).bind fun _ _ hfilter =>
    (leVia_groupBySql hgroupBy).bind fun _ _ hgroupBy =>
      (Condition.leVia_renderClause hquote (by decide) hhaving).bind fun _ _ hhaving =>
        Except.leVia_ok (.cons hfilter.toRenamed (.cons hgroupBy (.cons hhaving.toRenamed .nil)))

theorem renamed_present {clauses clauses' : List Sql}
    (h : List.Forall₂ (Sql.Renamed r) clauses clauses') :
    List.Forall₂ (Sql.Renamed r) (present clauses) (present clauses') := by
  induction h with
  | nil => exact .nil
  | cons hsql _ ih =>
    cases hsql.pieces with
    | nil => exact ih
    | cons _ _ => exact .cons hsql ih

/-- The SQL of a plain select from one table is renamed with the select. -/
theorem leVia_render {d : Dialect} (hquote : d.quoteIdentifier = doubleQuoted)
    {s : Select Rendered} (h : s.isPlain) :
    Except.LeVia (Sql.Renamed r) (s.render d) ((s.rename r).render d) := by
  obtain ⟨hparts, hsingle⟩ : s.hasPlainParts = true ∧ s.items.countP SourceItem.isSource ≤ 1 := by
    simpa [isPlain] using h
  obtain ⟨hitems, hjoins, hunions, -, -, -, horderBy⟩ := hasPlainParts_iff.1 hparts
  have hempty : (s.rename r).items.isEmpty = s.items.isEmpty := List.isEmpty_map
  have hmembers : (s.rename r).unions = [] := hunions
  unfold render
  rw [check_rename, hempty, hunions, hmembers]
  refine (Except.leVia_refl s.check).bind fun _ _ _ => ?_
  split
  · exact (leVia_tailSql horderBy).bind fun _ _ htail =>
      Except.leVia_ok (.join _ (by decide) (renamed_present htail))
  · exact (leVia_headSql hitems hsingle hjoins).bind fun head head' hhead =>
      (leVia_filterSql hquote hparts).bind fun filter filter' hfilter =>
        (leVia_tailSql horderBy).bind fun tail tail' htail =>
          have hclauses : List.Forall₂ (Sql.Renamed r) (head ++ filter ++ tail)
              (head' ++ filter' ++ tail') :=
            List.rel_append (List.rel_append hhead hfilter) htail
          Except.leVia_ok (.join _ (by decide)
            (List.rel_append (renamed_present hclauses) .nil))

end Select

end SqlAssembly
