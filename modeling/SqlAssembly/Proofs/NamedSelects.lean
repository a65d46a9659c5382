import SqlAssembly.Proofs.Rendering
import SqlAssembly.Proofs.SelectReader
import SqlAssembly.Proofs.SourceNames
import SqlAssembly.Proofs.Writing.Statement

/-!
# Selects of names

A select of named columns from named tables can be read back from its text, whatever characters the
names consist of (`NamedTable.readSelect_assemble`). What is read back is what the select shows: an
alias that repeats the name of its table is not written, and a column is qualified exactly if its
table is written under an alias.
-/

namespace SqlAssembly

variable {σ τ : Type}

/-! ### Names as they are given -/

/-- A well-formed name, under an alias or not. -/
structure GivenName where
  name : String
  alias? : Option String := none
  wellFormed : WellFormedNames (name :: alias?.toList) := by decide

namespace GivenName

/-- The name as an identifier. -/
def identifier (n : GivenName) : Identifier :=
  match n.alias? with
  | none => .name n.name
  | some aliasName => .aliased (.name n.name) aliasName

theorem asTable_identifier (n : GivenName) {schema : Option String}
    (hschema : WellFormedNames schema.toList) :
    n.identifier.asTable schema = .ok ⟨schema, .name n.name, n.alias?⟩ := by
  obtain ⟨name, alias?, hnames⟩ := n
  have htable := Identifier.asTable_name (hnames name (by simp))
    (fun s hs => hschema s (by simpa using hs))
  cases alias? with
  | none => exact htable
  | some aliasName =>
    have halias : checkName .aliasName aliasName = .ok () :=
      checkName_eq_ok.2 (hnames aliasName (by simp))
    rw [identifier, Identifier.asTable, halias, Except.ok_bind, htable]
    rfl

theorem asColumn_identifier (n : GivenName) :
    n.identifier.asColumn none = .ok (.name n.name, n.alias?) := by
  obtain ⟨name, alias?, hnames⟩ := n
  have hname : checkName .column name = .ok () := checkName_eq_ok.2 (hnames name (by simp))
  cases alias? with
  | none => simp [identifier, Identifier.asColumn, hname]
  | some aliasName =>
    have halias : checkName .aliasName aliasName = .ok () :=
      checkName_eq_ok.2 (hnames aliasName (by simp))
    simp [identifier, Identifier.asColumn, hname, halias]

theorem recordType?_identifier (n : GivenName) : n.identifier.recordType? = none := by
  obtain ⟨name, alias?, hnames⟩ := n
  cases alias? <;> rfl

end GivenName

/-! ### Columns and tables by name -/

/-- A column other than `*`. An alias of the column overrides the one of its name. -/
structure NamedColumn where
  given : GivenName
  alias? : Option String := none
  ne_star : given.name ≠ "*" := by decide
  wellFormed : WellFormedNames alias?.toList := by decide

namespace NamedColumn

/-- The column as an entry of a select list. -/
def column (c : NamedColumn) : Column := { name := c.given.identifier, alias? := c.alias? }

/-- The alias that the column is written under. -/
def shownAlias? (c : NamedColumn) : Option String := c.alias?.or c.given.alias?

/-- The column behind an optional table, with its alias. -/
def sql (table : Option String) (c : NamedColumn) : Sql :=
  .column (.path table.toList c.given.name) none :: aliasSql c.shownAlias?

theorem wellFormed_of_shownAlias? {c : NamedColumn} {aliasName : String}
    (h : c.shownAlias? = some aliasName) : WellFormedName aliasName := by
  rcases Option.or_eq_some_iff.1 h with halias | ⟨-, halias⟩
  · exact c.wellFormed aliasName (by simp [halias])
  · exact c.given.wellFormed aliasName (by simp [halias])

theorem sql_column (table : Option String) (c : NamedColumn) :
    c.column.sql none table none = .ok (c.sql table) := by
  have hpath : ColumnExpr.ofName (.name c.given.name) table none
      = .path table.toList c.given.name := by
    cases table <;> rfl
  have hshown : c.column.alias?.or c.given.alias? = c.shownAlias? := rfl
  have hname : c.column.name.asColumn none = _ := c.given.asColumn_identifier
  rw [Column.sql, hname, Except.ok_bind, sql, ← hpath]
  simp only [hshown]
  cases hcase : c.shownAlias? with
  | none => rfl
  | some aliasName =>
    simp only [checkName_eq_ok.2 (wellFormed_of_shownAlias? hcase), Except.ok_bind]
    rfl

end NamedColumn

/-- A table, in a schema or not, and the columns that are selected from it. -/
structure NamedTable where
  given : GivenName
  schema : Option String := none
  columns : List NamedColumn
  wellFormed : WellFormedNames schema.toList := by decide
  columns_ne_nil : columns ≠ [] := by exact List.cons_ne_nil _ _

namespace NamedTable

/-- The name that the table is known by. -/
def exposed (t : NamedTable) : String := t.given.alias?.getD t.given.name

/-- The alias that the table is written under: none that repeats its name. -/
def shownAlias? (t : NamedTable) : Option String := t.given.alias?.filter (· != t.given.name)

/-- The call that selects the columns from the table. -/
def call (t : NamedTable) : SelectCall σ :=
  .source (.table t.given.identifier t.schema) (.list (t.columns.map NamedColumn.column))

/-- The select of columns from tables. -/
def select (d : Dialect) (ts : List NamedTable) : Select σ := .build d (ts.map call)

/-! ### Rendering -/

/-- The table as it is bound. -/
def binding (t : NamedTable) : Binding σ :=
  { qualifier := t.exposed
    alias? := t.shownAlias?
    schema := if t.shownAlias?.isSome then none else t.schema
    qualifies := t.shownAlias?.isSome
    record := none
    body := .table (.name t.given.name) t.schema }

/-- The table is bound under the name that it is known by, if this name is free. -/
theorem ofSource_eq (t : NamedTable) {taken : List String} (hfree : t.exposed ∉ taken) :
    Binding.ofSource taken (.table t.given.identifier t.schema : Source σ) = .ok t.binding := by
  rw [Binding.ofSource, t.given.asTable_identifier t.wellFormed, t.given.recordType?_identifier,
    Except.ok_bind]
  obtain ⟨⟨name, alias?, hnames⟩, schema, columns, hschema, hcolumns⟩ := t
  cases alias? with
  | none =>
    have hfree : name ∉ taken := hfree
    simp [Binding.ofTable, hfree, binding, exposed, shownAlias?]
  | some aliasName =>
    have hclaim : claimAlias aliasName taken = .ok aliasName :=
      claimAlias_eq_ok.2 ⟨rfl, (hnames aliasName (by simp)).1, hfree⟩
    by_cases hsame : aliasName = name
    · subst hsame
      simp [Binding.ofTable, hclaim, binding, exposed, shownAlias?, Option.filter_some]
    · have hne : name ≠ aliasName := fun h => hsame h.symm
      simp [Binding.ofTable, hclaim, binding, exposed, shownAlias?, Option.filter_some, hsame, hne]

theorem exposed_of_shownAlias? {t : NamedTable} {aliasName : String}
    (h : t.shownAlias? = some aliasName) : t.exposed = aliasName := by
  obtain ⟨halias, -⟩ := Option.filter_eq_some_iff.1 h
  rw [exposed, halias, Option.getD_some]

/-- The table with its columns, as it is bound. -/
def boundItem (t : NamedTable) : BoundItem σ :=
  .source t.binding false (.list (t.columns.map NamedColumn.column))

/-- The table with its columns, as an entry of a select. -/
def item (t : NamedTable) : SourceItem σ :=
  .plain (.table t.given.identifier t.schema) (.list (t.columns.map NamedColumn.column))

theorem select_eq (d : Dialect) (ts : List NamedTable) :
    (select d ts : Select σ) = { dialect := d, items := ts.map item } := by
  have hfold (s : Select σ) : (ts.map call).foldl Select.apply s
      = { s with items := s.items ++ ts.map item } := by
    induction ts generalizing s with
    | nil => simp
    | cons t ts ih =>
      rw [List.map_cons, List.foldl_cons, ih]
      simp [call, Select.apply, item]
  rw [select, Select.build, hfold, List.nil_append]

theorem bindAll_items {ts : List NamedTable} {taken : List String}
    (hdistinct : (taken ++ ts.map exposed).Nodup) :
    SourceItem.bindAll taken (ts.map item : List (SourceItem σ)) = .ok (ts.map boundItem) := by
  induction ts generalizing taken with
  | nil => rfl
  | cons t ts ih =>
    rw [List.map_cons, ← List.singleton_append, ← List.append_assoc] at hdistinct
    have hfree : t.exposed ∉ taken := by
      have hnodup := (List.nodup_append.1 hdistinct).1
      intro hmem
      exact (List.nodup_append.1 hnodup).2.2 _ hmem _ (List.mem_singleton_self _) rfl
    have hrest : SourceItem.bindAll (taken ++ [t.exposed]) (ts.map item : List (SourceItem σ))
        = .ok (ts.map boundItem) := ih hdistinct
    have hqualifier : (t.binding : Binding σ).qualifier = t.exposed := rfl
    rw [List.map_cons, item, SourceItem.bindAll, t.ofSource_eq hfree, Except.ok_bind,
      hqualifier, hrest]
    rfl

/-- The columns of the table, as they are shown. -/
def columnsSql (t : NamedTable) : List Sql := t.columns.map (NamedColumn.sql t.shownAlias?)

theorem listSql_boundItem (t : NamedTable) :
    (t.boundItem : BoundItem σ).listSql = .ok t.columnsSql := by
  have hne : t.columns.map NamedColumn.column ≠ [] := by simpa using t.columns_ne_nil
  have hcolumns (table : Option String) :
      (t.columns.map NamedColumn.column).mapM (Column.sql none table none)
        = .ok (t.columns.map (NamedColumn.sql table)) :=
    Except.mapM_map_eq_ok.2 fun c _ => c.sql_column table
  have hlist (qualify : Bool) : (t.binding : Binding σ).listSql qualify
        (.list (t.columns.map NamedColumn.column))
      = if qualify then (t.columns.map NamedColumn.column).mapM
          (Column.sql none (some t.exposed) (t.binding : Binding σ).schema)
        else (t.columns.map NamedColumn.column).mapM (Column.sql none none none) := by
    rw [Binding.listSql, Columns.listed_list]
    split
    · contradiction
    · rfl
  rw [boundItem, BoundItem.listSql, hlist, columnsSql]
  cases hshown : t.shownAlias? with
  | none =>
    have hqualifies : (t.binding : Binding σ).qualifies = false := by simp [binding, hshown]
    rw [hqualifies, if_neg Bool.false_ne_true, hcolumns]
  | some aliasName =>
    have hqualifies : (t.binding : Binding σ).qualifies = true := by simp [binding, hshown]
    have hschema : (t.binding : Binding σ).schema = none := by simp [binding, hshown]
    rw [hqualifies, if_pos rfl, hschema, hcolumns, exposed_of_shownAlias? hshown]

/-- The table, as it is shown. -/
def tableSql (t : NamedTable) : Sql :=
  SqlAssembly.tableSql (.name t.given.name) t.schema ++ aliasSql t.shownAlias?

theorem selectList_eq {ts : List NamedTable} (hne : ts ≠ []) :
    (⟨ts.map boundItem, []⟩ : Scope σ).selectList = .ok (ts.flatMap columnsSql) := by
  have hitems : (ts.map (boundItem (σ := σ))).mapM BoundItem.listSql = .ok (ts.map columnsSql) :=
    Except.mapM_map_eq_ok.2 fun t _ => t.listSql_boundItem
  have hcolumns : ts.flatMap columnsSql ≠ [] := by
    obtain ⟨t, ts, rfl⟩ := List.exists_cons_of_ne_nil hne
    simp [columnsSql, t.columns_ne_nil]
  obtain ⟨c, cs, hcs⟩ := List.exists_cons_of_ne_nil hcolumns
  rw [Scope.selectList, hitems]
  simp only [Except.ok_bind, List.mapM_nil, Except.pure_eq, List.append_nil, ← List.flatMap_def,
    hcs]

theorem fromSql_eq {ts : List NamedTable} (hne : ts ≠ []) :
    Select.fromSql (ts.map boundItem)
      = .ok (Sql.text "FROM " ++ Sql.join ", " (ts.map tableSql)) := by
  have hplain : BoundItem.sources false (ts.map (boundItem (σ := Rendered))) = ts.map binding := by
    simp [BoundItem.sources, boundItem, List.filterMap_map, Function.comp_def]
  have hlateral : BoundItem.sources true (ts.map (boundItem (σ := Rendered))) = [] := by
    simp [BoundItem.sources, boundItem]
  have htables : (ts.map binding).mapM Binding.sql = .ok (ts.map tableSql) :=
    Except.mapM_map_eq_ok.2 fun t _ => rfl
  rw [Select.fromSql, hplain, hlateral, htables]
  obtain ⟨t, ts, rfl⟩ := List.exists_cons_of_ne_nil hne
  simp

/-- The two clauses of the select. -/
def clauses (ts : List NamedTable) : List Sql :=
  [Select.listSql false (ts.flatMap columnsSql),
    Sql.text "FROM " ++ Sql.join ", " (ts.map tableSql)]

theorem render_select (d : Dialect) {ts : List NamedTable} (hne : ts ≠ [])
    (hdistinct : (ts.map exposed).Nodup) :
    (select d ts : Select Rendered).render d = .ok (Sql.join " " (clauses ts)) := by
  have hbind : Scope.bind (select d ts : Select Rendered) = .ok ⟨ts.map boundItem, []⟩ := by
    rw [select_eq, Scope.bind]
    have h : SourceItem.bindAll [] (ts.map (item (σ := Rendered))) = .ok (ts.map boundItem) :=
      bindAll_items hdistinct
    simp [h, Join.bindAll]
  have hhead : (select d ts : Select Rendered).headSql = .ok (clauses ts) := by
    rw [Select.headSql, hbind]
    simp [selectList_eq hne, fromSql_eq hne, Select.joinsSql, select_eq, clauses]
  have hcheck : (select d ts : Select Rendered).check = .ok () := by
    rw [select_eq, Select.check]
    simp [hne, Condition.check, Select.checkMembers]
  have hfilter : (select d ts : Select Rendered).filterSql d = .ok [[], [], []] := by
    rw [select_eq]
    rfl
  have htail : (select d ts : Select Rendered).tailSql = .ok [[], [], []] := by
    rw [select_eq]
    rfl
  have hunions : Select.unionsSql false (select d ts : Select Rendered).unions = .ok [] := by
    rw [select_eq]
    rfl
  have hempty : (select d ts : Select Rendered).items.isEmpty = false := by
    rw [select_eq]
    simpa using hne
  refine Select.render_eq_ok.2 ⟨hcheck, ?_⟩
  rw [hempty]
  exact ⟨_, _, _, _, hhead, hfilter, htail, hunions, rfl⟩

theorem map_select (d : Dialect) (ts : List NamedTable) (f : σ → τ) :
    (select d ts : Select σ).map f = select d ts := by
  rw [select_eq, select_eq]
  simp [Select.map, item, SourceItem.map, Source.map, Condition.map, Node.mapAll]

/-! ### The text -/

theorem valuesAll_columnsSql (ts : List NamedTable) :
    Sql.valuesAll (ts.flatMap columnsSql) = [] := by
  have hcolumn (table : Option String) (c : NamedColumn) : (c.sql table).values = [] :=
    values_aliasSql c.shownAlias?
  rw [Sql.valuesAll, List.flatMap_eq_nil_iff]
  intro sql hsql
  obtain ⟨t, -, hsql⟩ := List.mem_flatMap.1 hsql
  obtain ⟨c, -, rfl⟩ := List.mem_map.1 hsql
  exact hcolumn t.shownAlias? c

theorem valuesAll_tableSql (ts : List NamedTable) : Sql.valuesAll (ts.map tableSql) = [] := by
  simp [Sql.valuesAll, tableSql, values_tableSql, values_aliasSql]

theorem valuesAll_clauses (ts : List NamedTable) : Sql.valuesAll (clauses ts) = [] := by
  simp [clauses, Select.listSql, valuesAll_columnsSql, valuesAll_tableSql]

/-- A column as an entry of the select list. -/
def columnEntry (t : NamedTable) (c : NamedColumn) : ListEntry :=
  ⟨t.shownAlias?.toList, c.given.name, c.shownAlias?⟩

/-- The table as an entry of the `FROM` list. -/
def tableEntry (t : NamedTable) : ListEntry := ⟨t.schema.toList, t.given.name, t.shownAlias?⟩

section Text

variable {d : Dialect} (hquote : d.quoteIdentifier = doubleQuoted)
include hquote

theorem toList_spell_column (t : NamedTable) (c : NamedColumn) :
    (d.spell (c.sql t.shownAlias?)).toList = (t.columnEntry c).chars := by
  have hpath := Dialect.toList_spell_path hquote t.shownAlias?.toList c.ne_star
  have halias := Dialect.toList_spell_aliasSql hquote c.shownAlias?
  rw [columnEntry, ListEntry.chars, ← hpath, ← halias, ← String.toList_append]
  rfl

theorem toList_spell_tableSql (t : NamedTable) :
    (d.spell t.tableSql).toList = t.tableEntry.chars :=
  Dialect.toList_quoteTable hquote t.given.name t.shownAlias? t.schema

theorem toList_spell_clauses (ts : List NamedTable) :
    (d.spell (Sql.join " " (clauses ts))).toList
      = selectChars (ts.flatMap fun t => t.columns.map t.columnEntry) (ts.map tableEntry) := by
  have hcolumns : ((ts.flatMap columnsSql).map d.spell).map String.toList
      = (ts.flatMap fun t => t.columns.map t.columnEntry).map ListEntry.chars := by
    simp [columnsSql, List.map_flatMap, Function.comp_def, toList_spell_column hquote]
  have htables : ((ts.map tableSql).map d.spell).map String.toList
      = (ts.map tableEntry).map ListEntry.chars := by
    simp [toList_spell_tableSql hquote]
  have hlist : d.spell (Select.listSql false (ts.flatMap columnsSql))
      = "SELECT " ++ String.intercalate "," ((ts.flatMap columnsSql).map d.spell) := by
    rw [Dialect.spell, Select.listSql, Sql.spell_append, Sql.spell_text, Sql.spell_join,
      Sql.spellAll_of_valuesAll_eq_nil (valuesAll_columnsSql ts)]
    rfl
  have hfrom : d.spell (Sql.text "FROM " ++ Sql.join ", " (ts.map tableSql))
      = "FROM " ++ String.intercalate ", " ((ts.map tableSql).map d.spell) := by
    rw [Dialect.spell, Sql.spell_append, Sql.spell_text, Sql.spell_join,
      Sql.spellAll_of_valuesAll_eq_nil (valuesAll_tableSql ts)]
  have hselect : "SELECT ".toList = selectWord := rfl
  have hblank : " ".toList ++ "FROM ".toList = fromWord := rfl
  rw [Dialect.spell, Sql.spell_join, Sql.spellAll_of_valuesAll_eq_nil (valuesAll_clauses ts),
    clauses, List.map_cons, List.map_singleton, hlist, hfrom, String.intercalate_cons_cons,
    String.intercalate_singleton]
  simp only [String.toList_append, String.toList_intercalate, hcolumns, htables, selectChars,
    List.append_assoc, hselect, ← hblank]
  rfl

end Text

/-! ### Reading back -/

/-- What is shown of a table: its schema, its name and its alias. -/
def tableRef (t : NamedTable) : TableRef := ⟨t.schema, .name t.given.name, t.shownAlias?⟩

/-- What is shown of a column: its name behind the alias of the table, if one is written, and its
alias. -/
def columnRef (t : NamedTable) (c : NamedColumn) : FieldRef :=
  ⟨.name c.given.name, c.shownAlias?, t.shownAlias?, none⟩

theorem ofEntry?_columnEntry (t : NamedTable) (c : NamedColumn) :
    FieldRef.ofEntry? (t.columnEntry c) = some (t.columnRef c) := by
  rw [columnEntry, columnRef]
  cases t.shownAlias? <;> rfl

theorem ofEntry?_tableEntry (t : NamedTable) :
    TableRef.ofEntry? t.tableEntry = some t.tableRef := by
  rw [tableEntry, tableRef]
  cases t.schema <;> rfl

/-- A select of named columns from tables that are known by distinct names is assembled in each
built-in dialect, with no values, and from its text all is read back that it shows: the columns with
their aliases, qualified exactly if their table is written under an alias, and the tables with their
schemas and aliases, except aliases that repeat the name of the table. -/
theorem readSelect_assemble (b : BuiltinDialect) {ts : List NamedTable} (hne : ts ≠ [])
    (hdistinct : (ts.map exposed).Nodup) :
    ∃ text, (Command.select (select b.dialect ts)).assemble = .ok ⟨text, []⟩
      ∧ readSelect text
        = some (ts.flatMap fun t => t.columns.map t.columnRef, ts.map tableRef) := by
  have hquote : b.dialect.quoteIdentifier = doubleQuoted := by cases b <;> rfl
  have hcolumns : (ts.flatMap fun t => t.columns.map t.columnEntry) ≠ [] := by
    obtain ⟨t, ts, rfl⟩ := List.exists_cons_of_ne_nil hne
    simp [t.columns_ne_nil]
  have htables : ts.map tableEntry ≠ [] := by simpa using hne
  have hrender : (Command.select (select b.dialect ts)).render b.dialect = _ :=
    (Query.render_of _ _).trans
      ((congrArg (Select.render b.dialect) (map_select b.dialect ts _)).trans
        (render_select b.dialect hne hdistinct))
  have hdialect : (Command.select (select b.dialect ts)).dialect = b.dialect := by
    rw [select_eq]
    rfl
  have hassemble := (Command.assemble_eq_ok hdialect).2 ⟨_, hrender, rfl⟩
  rw [Sql.values_join, valuesAll_clauses] at hassemble
  refine ⟨_, hassemble, ?_⟩
  have hrefs : (ts.flatMap fun t => t.columns.map t.columnEntry).mapM FieldRef.ofEntry?
      = some (ts.flatMap fun t => t.columns.map t.columnRef) := by
    have h := mapM_eq_some_map
      (fun p : NamedTable × NamedColumn => ofEntry?_columnEntry p.1 p.2)
      (ts.flatMap fun t => t.columns.map (t, ·))
    simpa [List.map_flatMap, Function.comp_def] using h
  rw [readSelect_eq (toList_spell_clauses hquote ts) hcolumns htables, hrefs,
    mapM_eq_some_map ofEntry?_tableEntry]
  rfl

/-- A table whose alias repeats its name. Its names look like parts of a select. -/
def plainSample : NamedTable :=
  { given := { name := "a\", \"b", alias? := some "a\", \"b" }
    schema := some "s"
    columns :=
      [{ given := { name := "x\",\"y", alias? := some " FROM " } }, { given := { name := "z" } }] }

/-- A table of the same name under an alias of its own. -/
def aliasedSample : NamedTable :=
  { given := { name := "a\", \"b", alias? := some "*" }
    columns := [{ given := { name := "z", alias? := some "w" }, alias? := some "," }] }

/-- The text of the select from both. -/
def sampleText : String :=
  "SELECT \"x\"\",\"\"y\" AS \" FROM \",\"z\",\"*\".\"z\" AS \",\""
    ++ " FROM \"s\".\"a\"\", \"\"b\", \"a\"\", \"\"b\" AS \"*\""

/-- Quotes, separators and key words inside the names do not mislead the reader. -/
theorem readSelect_assemble_hostile :
    [plainSample, aliasedSample] ≠ [] ∧ ([plainSample, aliasedSample].map exposed).Nodup
      ∧ (Command.select (select .postgres [plainSample, aliasedSample])).assemble
        = .ok ⟨sampleText, []⟩
      ∧ readSelect sampleText
        = some ([⟨.name "x\",\"y", some " FROM ", none, none⟩, ⟨.name "z", none, none, none⟩,
            ⟨.name "z", some ",", some "*", none⟩],
          [⟨some "s", .name "a\", \"b", none⟩, ⟨none, .name "a\", \"b", some "*"⟩]) := by
  have hne : [plainSample, aliasedSample] ≠ [] := List.cons_ne_nil _ _
  have hdistinct : ([plainSample, aliasedSample].map exposed).Nodup := by decide
  have hassemble : (Command.select (select .postgres [plainSample, aliasedSample])).assemble
      = .ok ⟨sampleText, []⟩ := rfl
  obtain ⟨text, htext, hread⟩ := readSelect_assemble .postgres hne hdistinct
  obtain rfl : text = sampleText :=
    congrArg Assembled.sql (Except.ok.inj (htext.symm.trans hassemble))
  exact ⟨hne, hdistinct, hassemble, hread⟩

end NamedTable

end SqlAssembly
