import SqlAssembly.Proofs.RecordColumns
import SqlAssembly.Proofs.Spelling

/-!
# The names that are quoted

The text of SQL depends on the quoting of a dialect only at the names in it (`Sql.names`). Most of
these were checked when an identifier was read. Not checked are the names that a record brings: its
table, its schema and its columns, and its alias where it qualifies a field. If these are
well-formed, so are all names that a field or a column is written with.
-/

namespace SqlAssembly

/-! ### Names in SQL -/

/-- The names that are quoted in a column; the name `*` is not. -/
def ColumnExpr.names : ColumnExpr → List String
  | raw _ => []
  | path qualifiers name => qualifiers ++ if name = "*" then [] else [name]

/-- The names that are quoted in a piece. -/
def Piece.names : Piece → List String
  | name s => [s]
  | column expr _ => expr.names
  | text _ | param _ => []

namespace Sql

/-- The names that are quoted in SQL, from left to right. -/
def names (sql : Sql) : List String := sql.flatMap Piece.names

@[simp] theorem names_nil : names [] = [] := rfl

@[simp] theorem names_cons (p : Piece) (sql : Sql) : names (p :: sql) = p.names ++ names sql := rfl

@[simp] theorem names_append (a b : Sql) : names (a ++ b) = names a ++ names b := by
  simp [names]

@[simp] theorem names_text (s : String) : names (text s) = [] := rfl

@[simp] theorem names_join (separator : String) (parts : List Sql) :
    names (join separator parts) = parts.flatMap names := by
  induction parts with
  | nil => rfl
  | cons p ps ih =>
    cases ps with
    | nil => simp [join]
    | cons q qs =>
      simp only [join, List.intercalate_cons_cons, names_append, names_text, List.flatMap_cons]
        at ih ⊢
      rw [ih]
      simp

@[simp] theorem names_enclosed (marks : String × String) (sql : Sql) :
    names (enclosed marks sql) = names sql := by
  simp [enclosed]

@[simp] theorem names_parenthesized (sql : Sql) : names (parenthesized sql) = names sql := by
  simp [parenthesized]

end Sql

section Congr

variable {d : Dialect} {quote : String → String}

theorem ColumnExpr.spell_congr_names {x : ColumnExpr}
    (h : ∀ name ∈ x.names, quote name = d.quoteIdentifier name) :
    x.spell { d with quoteIdentifier := quote } = x.spell d := by
  cases x with
  | raw sql => rfl
  | path qualifiers name =>
    rw [names, List.forall_mem_append] at h
    obtain ⟨hqualifiers, hname⟩ := h
    have hpath : (qualifiers.map fun q => quote q ++ ".")
        = qualifiers.map fun q => d.quoteIdentifier q ++ "." :=
      List.map_congr_left fun q hq => by rw [hqualifiers q hq]
    by_cases hstar : name = "*"
    · simp [spell, hpath, hstar]
    · simp [spell, hpath, hstar, hname name (by simp [hstar])]

theorem Piece.spell_congr_names {p : Piece}
    (h : ∀ name ∈ p.names, quote name = d.quoteIdentifier name) (k : Nat) :
    p.spell { d with quoteIdentifier := quote } k = p.spell d k := by
  cases p with
  | text s => rfl
  | param v => rfl
  | name s => exact h s List.mem_cons_self
  | column x cast =>
    have hx := ColumnExpr.spell_congr_names (x := x) h
    cases cast with
    | none => exact hx
    | some type => simp [spell, hx]

/-- SQL has the same text whatever becomes of the names that are not in it. -/
theorem Sql.spell_congr_names {sql : Sql}
    (h : ∀ name ∈ sql.names, quote name = d.quoteIdentifier name) (k : Nat) :
    sql.spell { d with quoteIdentifier := quote } k = sql.spell d k := by
  induction sql generalizing k with
  | nil => rfl
  | cons p ps ih =>
    rw [names_cons, List.forall_mem_append] at h
    obtain ⟨hp, hps⟩ := h
    rw [spell_cons, spell_cons, Piece.spell_congr_names hp, ih hps]

end Congr

/-! ### Tables and columns -/

/-- The name that is quoted for a table or a column; raw SQL is not. -/
def SqlName.names : SqlName → List String
  | name s => [s]
  | raw _ => []

/-- The alias in a form. -/
def ColumnForm.names : Option ColumnForm → List String
  | some (.aliased name) => [name]
  | some (.cast arguments) => arguments.tail
  | none => []

theorem ColumnForm.names_of (cast alias? : Option String) :
    names (of cast alias?) = alias?.toList := by
  cases cast <;> cases alias? <;> rfl

theorem ColumnForm.names_map_aliased (alias? : Option String) :
    names (alias?.map aliased) = alias?.toList := by
  cases alias? <;> rfl

/-- The names of a table. -/
def TableRef.names (t : TableRef) : List String :=
  t.schema.toList ++ t.table.names ++ t.alias?.toList

theorem names_aliasSql (alias? : Option String) : (aliasSql alias?).names = alias?.toList := by
  cases alias? <;> rfl

theorem wellFormedNames_tableSql {table : SqlName} {schema : Option String}
    (htable : WellFormedNames table.names) (hschema : WellFormedNames schema.toList) :
    WellFormedNames (tableSql table schema).names := by
  cases table with
  | raw sql => simp [tableSql]
  | name name => cases schema <;> simp_all [tableSql, SqlName.names, Piece.names]

theorem wellFormedNames_ofName {column : SqlName} {table schema : Option String}
    (hcolumn : WellFormedNames column.names) (htable : WellFormedNames table.toList)
    (hschema : WellFormedNames schema.toList) :
    WellFormedNames (ColumnExpr.ofName column table schema).names := by
  cases column with
  | raw sql => exact .nil
  | name name =>
    have hname : WellFormedNames (if name = "*" then [] else [name]) := by
      split
      · exact .nil
      · exact hcolumn
    cases table with
    | none => simpa [ColumnExpr.ofName, ColumnExpr.names] using hname
    | some table =>
      simp_all [ColumnExpr.ofName, ColumnExpr.names]

theorem wellFormedNames_columnSql {column : SqlName} {form : Option ColumnForm}
    {table schema : Option String} {sql : Sql} (h : columnSql column form table schema = .ok sql)
    (hcolumn : WellFormedNames column.names)
    (hform : WellFormedNames (ColumnForm.names form)) (htable : WellFormedNames table.toList)
    (hschema : WellFormedNames schema.toList) : WellFormedNames sql.names := by
  have hexpr := wellFormedNames_ofName hcolumn htable hschema
  unfold columnSql at h
  split at h <;> cases h <;>
    simp_all [Piece.names, names_aliasSql, ColumnForm.names]

/-! ### Identifiers -/

namespace Identifier

/-- What an identifier that is read as a table brings unchecked: the table of a record, and the
schema that it is in. -/
def uncheckedTable (schema : Option String) : Identifier → List String
  | record t => t.type.table :: (t.type.schema.or schema).toList
  | aliased base _ => base.uncheckedTable schema
  | name _ | literal _ => []

/-- What an identifier that is read as a column brings unchecked: the column that the record which
owns it has for the name. -/
def uncheckedColumn (owner : Option RecordType) : Identifier → List String
  | name s => if s = "*" then [] else (owner.bind fun r => r.column? s).toList
  | aliased base _ => base.uncheckedColumn owner
  | record _ | literal _ => []

/-- What an identifier that is read as a qualifier brings unchecked: the alias of a record or, if it
has none, its table and its schema. -/
def uncheckedQualifier : Identifier → List String
  | record t => t.qualifier :: if t.alias?.isNone then t.type.schema.toList else []
  | name _ | aliased _ _ | literal _ => []

theorem wellFormedNames_asTable {schema : Option String} {ident : Identifier} {t : TableRef}
    (h : ident.asTable schema = .ok t) (hu : WellFormedNames (ident.uncheckedTable schema)) :
    WellFormedNames t.names := by
  induction ident generalizing t with
  | name s =>
    obtain ⟨_, hname, h⟩ := Except.bind_eq_ok.1 h
    have hname := checkName_eq_ok.1 hname
    cases schema with
    | none =>
      cases h
      simpa [TableRef.names, SqlName.names] using hname
    | some schema =>
      obtain ⟨_, hschema, h⟩ := Except.bind_eq_ok.1 h
      cases h
      simpa [TableRef.names, SqlName.names] using ⟨checkName_eq_ok.1 hschema, hname⟩
  | aliased base aliasName ih =>
    obtain ⟨_, halias, h⟩ := Except.bind_eq_ok.1 h
    obtain ⟨t, ht, h⟩ := Except.bind_eq_ok.1 h
    cases h
    have ht := ih ht hu
    simp only [TableRef.names, WellFormedNames.append_iff] at ht ⊢
    exact ⟨ht.1, by simpa using checkName_eq_ok.1 halias⟩
  | literal sql =>
    cases h
    simp [TableRef.names, SqlName.names]
  | record table =>
    obtain ⟨type, alias?⟩ := table
    obtain ⟨htable, hschema⟩ :
        WellFormedName type.table ∧ WellFormedNames (type.schema.or schema).toList := by
      simpa [uncheckedTable] using hu
    cases alias? with
    | none =>
      cases h
      simpa [TableRef.names, SqlName.names] using ⟨hschema, htable⟩
    | some aliasName =>
      obtain ⟨_, halias, h⟩ := Except.bind_eq_ok.1 h
      cases h
      simpa [TableRef.names, SqlName.names] using ⟨hschema, htable, checkName_eq_ok.1 halias⟩

theorem asColumn_name {owner : Option RecordType} {s : String} {column : SqlName × Option String}
    (h : (name s).asColumn owner = .ok column)
    (hu : WellFormedNames ((name s).uncheckedColumn owner)) :
    ∃ c, column = (.name c, none) ∧ WellFormedName c := by
  obtain ⟨_, hname, h⟩ := Except.bind_eq_ok.1 h
  have hname := checkName_eq_ok.1 hname
  cases owner with
  | none =>
    cases h
    exact ⟨s, rfl, hname⟩
  | some r =>
    dsimp only at h
    split at h
    · cases h
      exact ⟨s, rfl, hname⟩
    · rename_i hstar
      obtain ⟨c, hc, h⟩ := Except.bind_eq_ok.1 h
      cases h
      refine ⟨c, rfl, ?_⟩
      rw [RecordType.column_eq_ok] at hc
      simpa [uncheckedColumn, hstar, hc] using hu

theorem wellFormedNames_asColumn {owner : Option RecordType} {ident : Identifier}
    {column : SqlName × Option String} (h : ident.asColumn owner = .ok column)
    (hu : WellFormedNames (ident.uncheckedColumn owner)) :
    WellFormedNames column.1.names ∧ WellFormedNames column.2.toList := by
  induction ident generalizing column with
  | name s =>
    obtain ⟨c, rfl, hc⟩ := asColumn_name h hu
    simpa [SqlName.names] using hc
  | aliased base aliasName ih =>
    obtain ⟨_, halias, h⟩ := Except.bind_eq_ok.1 h
    obtain ⟨inner, hinner, h⟩ := Except.bind_eq_ok.1 h
    cases h
    exact ⟨(ih hinner hu).1, by simpa using checkName_eq_ok.1 halias⟩
  | literal sql =>
    cases h
    simp [SqlName.names]
  | record table => cases h

theorem wellFormedNames_asQualifier {ident : Identifier} {q : Qualifier}
    (h : ident.asQualifier = .ok q) (hu : WellFormedNames ident.uncheckedQualifier) :
    WellFormedName q.name ∧ WellFormedNames q.schema.toList ∧ q.record = ident.recordType? := by
  cases ident with
  | name s =>
    obtain ⟨_, hname, h⟩ := Except.bind_eq_ok.1 h
    cases h
    exact ⟨checkName_eq_ok.1 hname, .nil, rfl⟩
  | aliased base aliasName =>
    obtain ⟨_, halias, h⟩ := Except.bind_eq_ok.1 h
    cases h
    exact ⟨checkName_eq_ok.1 halias, .nil, rfl⟩
  | literal sql => cases h
  | record table =>
    obtain ⟨type, alias?⟩ := table
    cases h
    cases alias? <;> simpa [uncheckedQualifier, recordType?] using hu

end Identifier

theorem wellFormedName_columnName {owner : Option RecordType} {name column : String}
    (h : columnName owner name = .ok column)
    (hu : WellFormedNames ((Identifier.name name).uncheckedColumn owner)) :
    WellFormedName column := by
  obtain ⟨_, hresolved, h⟩ := Except.bind_eq_ok.1 h
  obtain ⟨c, rfl, hc⟩ := Identifier.asColumn_name hresolved hu
  cases h
  exact hc

/-! ### Fields and columns -/

/-- What a field brings unchecked in a statement on the given record. -/
def Field.unchecked (owner : Option RecordType) (f : Field) : List String :=
  match f.table with
  | some table => table.uncheckedQualifier ++ f.name.uncheckedColumn table.recordType?
  | none => f.name.uncheckedColumn owner

/-- What the columns of a list bring unchecked. -/
def Columns.unchecked (owner : Option RecordType) (cs : Columns) : List String :=
  cs.listed.flatMap fun c => c.name.uncheckedColumn owner

theorem Field.wellFormedNames_sql {owner : Option RecordType} {f : Field} {sql : Sql}
    (h : f.sql owner = .ok sql) (hu : WellFormedNames (f.unchecked owner)) :
    WellFormedNames sql.names := by
  obtain ⟨r, hr, h⟩ := Except.bind_eq_ok.1 h
  obtain ⟨table, ident⟩ := f
  cases table with
  | none =>
    obtain ⟨column, hcolumn, hr⟩ := Except.bind_eq_ok.1 hr
    cases hr
    obtain ⟨hname, halias⟩ := Identifier.wellFormedNames_asColumn hcolumn hu
    exact wellFormedNames_columnSql h hname (by rwa [ColumnForm.names_map_aliased]) .nil .nil
  | some table =>
    obtain ⟨q, hq, hr⟩ := Except.bind_eq_ok.1 hr
    obtain ⟨column, hcolumn, hr⟩ := Except.bind_eq_ok.1 hr
    cases hr
    obtain ⟨hqualifier, hident⟩ := WellFormedNames.append_iff.1 hu
    obtain ⟨hqname, hschema, hrecord⟩ := Identifier.wellFormedNames_asQualifier hq hqualifier
    obtain ⟨hname, halias⟩ := Identifier.wellFormedNames_asColumn hcolumn (hrecord ▸ hident)
    exact wellFormedNames_columnSql h hname (by rwa [ColumnForm.names_map_aliased])
      (by simpa using hqname) hschema

theorem Column.wellFormedNames_sql {owner : Option RecordType} {table schema : Option String}
    {c : Column} {sql : Sql} (h : c.sql owner table schema = .ok sql)
    (hu : WellFormedNames (c.name.uncheckedColumn owner)) (htable : WellFormedNames table.toList)
    (hschema : WellFormedNames schema.toList) : WellFormedNames sql.names := by
  obtain ⟨⟨name, identAlias⟩, hname, h⟩ := Except.bind_eq_ok.1 h
  have hname := (Identifier.wellFormedNames_asColumn hname hu).1
  dsimp only at h
  split at h
  · rename_i aliasName halias
    obtain ⟨_, hcheck, h⟩ := Except.bind_eq_ok.1 h
    refine wellFormedNames_columnSql h hname ?_ htable hschema
    rw [ColumnForm.names_of, halias]
    simpa using checkName_eq_ok.1 hcheck
  · rename_i halias
    refine wellFormedNames_columnSql h hname ?_ htable hschema
    have hnone : c.alias?.or identAlias = none := by
      cases hor : c.alias?.or identAlias with
      | none => rfl
      | some aliasName => exact absurd hor (halias aliasName)
    rw [ColumnForm.names_of, hnone]
    exact .nil

/-- A column that is not qualified. -/
theorem Column.wellFormedNames_plain {owner : Option RecordType} {c : Column} {sql : Sql}
    (h : c.sql owner none none = .ok sql) (hu : WellFormedNames (c.name.uncheckedColumn owner)) :
    WellFormedNames sql.names :=
  wellFormedNames_sql h hu .nil .nil

theorem Columns.wellFormedNames_returningSql {owner : Option RecordType} {cs : Columns} {sql : Sql}
    (h : cs.returningSql owner = .ok sql) (hu : WellFormedNames (cs.unchecked owner)) :
    WellFormedNames sql.names := by
  unfold Columns.returningSql at h
  rw [unchecked, WellFormedNames.flatMap_iff] at hu
  split at h
  · cases h
    simp
  · obtain ⟨parts, hparts, h⟩ := Except.bind_eq_ok.1 h
    cases h
    rw [Sql.names_join, WellFormedNames.flatMap_iff]
    refine Except.forall_mem_of_mapM (fun c hc sql hsql => ?_) hparts
    exact Column.wellFormedNames_plain hsql (hu c hc)

theorem wellFormedNames_returningClause {owner : Option RecordType} {cs : Option Columns}
    {sql : Sql} (h : returningClause owner cs = .ok sql)
    (hu : WellFormedNames (cs.toList.flatMap (Columns.unchecked owner))) :
    WellFormedNames sql.names := by
  cases cs with
  | none =>
    cases h
    exact .nil
  | some cs =>
    obtain ⟨columns, hcolumns, h⟩ := Except.bind_eq_ok.1 h
    cases h
    simpa using Columns.wellFormedNames_returningSql hcolumns (by simpa using hu)

end SqlAssembly
