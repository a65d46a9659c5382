import SqlAssembly.Proofs.Renaming.Sql

/-!
# Renaming identifiers

What an identifier stands for is renamed with it, as long as it is a plain name or an alias of one:
as a table, as a column and as a qualifier. So the SQL of a field and of a column is renamed too.
-/

namespace SqlAssembly

variable {r : Renaming}

/-! ### Identifiers, fields and columns -/

namespace Identifier

/-- The identifier with its aliases renamed and its name changed by a function of its own. -/
def renameWith (r : Renaming) (change : String → String) : Identifier → Identifier
  | name s => name (change s)
  | aliased base aliasName => aliased (base.renameWith r change) (r aliasName)
  | i => i

/-- The identifier of a table with its names changed. -/
def rename (r : Renaming) : Identifier → Identifier := renameWith r r

/-- The identifier of a column with its names changed. -/
def renameColumn (r : Renaming) : Identifier → Identifier := renameWith r r.column

/-- Whether the identifier is a plain name, under aliases or not. -/
def isPlain : Identifier → Bool
  | name _ => true
  | aliased base _ => base.isPlain
  | literal _ | record _ => false

theorem isPlain_renameWith (change : String → String) (i : Identifier) :
    (i.renameWith r change).isPlain = i.isPlain := by
  induction i <;> simp_all [renameWith, isPlain]

@[simp] theorem isPlain_rename (i : Identifier) : (i.rename r).isPlain = i.isPlain :=
  isPlain_renameWith r i

@[simp] theorem isPlain_renameColumn (i : Identifier) :
    (i.renameColumn r).isPlain = i.isPlain :=
  isPlain_renameWith r.column i

theorem renameWith_injective {change : String → String} (hchange : Function.Injective change) :
    Function.Injective (renameWith r change) := by
  intro i j h
  induction i generalizing j with
  | aliased base aliasName ih =>
    cases j with
    | aliased base' aliasName' =>
      obtain ⟨hbase, halias⟩ := (aliased.injEq ..).mp h
      rw [ih hbase, r.injective halias]
    | _ => cases h
  | name s =>
    cases j with
    | name t => rw [hchange ((name.injEq ..).mp h)]
    | _ => cases h
  | literal _ | record _ => cases j <;> simp_all [renameWith]

theorem recordType?_of_isPlain {i : Identifier} (h : i.isPlain) : i.recordType? = none := by
  induction i <;> simp_all [recordType?, isPlain]

end Identifier

namespace Field

def rename (r : Renaming) (f : Field) : Field := ⟨f.table.map (.rename r), f.name.renameColumn r⟩

theorem rename_injective : Function.Injective (rename r) := by
  intro f g h
  obtain ⟨htable, hname⟩ := (Field.mk.injEq ..).mp h
  exact (Field.mk.injEq ..).mpr
    ⟨Option.map_injective (Identifier.renameWith_injective r.injective) htable,
      Identifier.renameWith_injective r.column_injective hname⟩

/-- Whether the field and its qualifier are plain names. -/
def isPlain (f : Field) : Bool := f.table.all Identifier.isPlain && f.name.isPlain

end Field

namespace Column

def rename (r : Renaming) (c : Column) : Column :=
  ⟨c.name.renameColumn r, c.alias?.map r, c.cast⟩

/-- Whether the column is a plain name, without a cast. -/
def isPlain (c : Column) : Bool := c.name.isPlain && c.cast.isNone

theorem isPlain_rename (c : Column) : (c.rename r).isPlain = c.isPlain := by
  simp [isPlain, rename]

theorem all_isPlain_map_rename (cs : List Column) :
    (cs.map (rename r)).all isPlain = cs.all isPlain := by
  rw [List.all_map]
  congr 1
  exact funext isPlain_rename

end Column

namespace Columns

def rename (r : Renaming) : Columns → Columns
  | all => all
  | list columns => list (columns.map (Column.rename r))

def isPlain (cs : Columns) : Bool := cs.listed.all Column.isPlain

@[simp] theorem listed_rename (cs : Columns) :
    (cs.rename r).listed = cs.listed.map (Column.rename r) := by
  cases cs <;> rfl

@[simp] theorem isPlain_rename (cs : Columns) : (cs.rename r).isPlain = cs.isPlain := by
  rw [isPlain, listed_rename, Column.all_isPlain_map_rename, isPlain]

end Columns

/-! ### Resolution -/

/-- A table whose alias is well formed, and the renamed table. -/
inductive TableRef.Renamed (r : Renaming) : TableRef → TableRef → Prop where
  | mk (schema : Option String) (name : String) (alias? : Option String)
    (wellFormed : ∀ aliasName ∈ alias?, WellFormedName aliasName) :
    Renamed r ⟨schema, .name name, alias?⟩ ⟨schema.map r, .name (r name), alias?.map r⟩

theorem TableRef.Renamed.sql {t t' : TableRef} (h : Renamed r t t') :
    Sql.Renamed r t.sql t'.sql := by
  obtain ⟨schema, name, alias?, -⟩ := h
  exact (Sql.Renamed.tableSql name schema).append (.aliasSql alias?)

/-- A column with its alias, and the renamed column. -/
inductive SqlName.Renamed (r : Renaming) :
    SqlName × Option String → SqlName × Option String → Prop where
  | mk (name : String) (alias? : Option String) :
    Renamed r (.name name, alias?) (.name (r.column name), alias?.map r)

/-- A qualifier that is no record, and the renamed qualifier. -/
inductive Qualifier.Renamed (r : Renaming) : Qualifier → Qualifier → Prop where
  | mk (name : String) : Renamed r ⟨name, none, none⟩ ⟨r name, none, none⟩

namespace Identifier

variable {i : Identifier} (h : i.isPlain)

include h

theorem leVia_asTable (schema : Option String) :
    Except.LeVia (TableRef.Renamed r) (i.asTable schema)
      ((i.rename r).asTable (schema.map r)) := by
  induction i with
  | name s =>
    refine (r.leVia_checkName _ s).bind fun _ _ _ => ?_
    cases schema with
    | none => exact Except.leVia_ok (.mk none s none nofun)
    | some schema =>
      exact (r.leVia_checkName _ schema).bind fun _ _ _ =>
        Except.leVia_ok (.mk (some schema) s none nofun)
  | aliased base aliasName ih =>
    refine (r.leVia_checkName _ aliasName).bind fun _ _ halias => (ih h).bind fun t t' ht => ?_
    obtain ⟨schema, name, _, -⟩ := ht
    exact Except.leVia_ok (.mk schema name (some aliasName) (by simpa using halias))
  | literal sql => cases h
  | record t => cases h

theorem leVia_asColumn :
    Except.LeVia (SqlName.Renamed r) (i.asColumn none) ((i.renameColumn r).asColumn none) := by
  induction i with
  | name s =>
    exact (r.leVia_checkName_column _ s).bind fun _ _ _ =>
      Except.leVia_ok (.mk s none)
  | aliased base aliasName ih =>
    refine (r.leVia_checkName _ aliasName).bind fun _ _ _ => (ih h).bind fun p p' hp => ?_
    obtain ⟨name, _⟩ := hp
    exact Except.leVia_ok (.mk name (some aliasName))
  | literal sql => cases h
  | record t => cases h

theorem leVia_asQualifier :
    Except.LeVia (Qualifier.Renamed r) i.asQualifier (i.rename r).asQualifier := by
  cases i with
  | name s => exact (r.leVia_checkName _ s).bind fun _ _ _ => Except.leVia_ok (.mk s)
  | aliased base aliasName =>
    have hbase : base.isPlain := h
    have hrename : (base.renameWith r r).isPlain := by rwa [isPlain_renameWith]
    refine (r.leVia_checkName _ aliasName).bind fun _ _ _ => ?_
    rw [recordType?_of_isPlain hbase, recordType?_of_isPlain hrename]
    exact Except.leVia_ok (.mk aliasName)
  | literal sql => cases h
  | record t => cases h

end Identifier

/-! ### Columns -/

/-- A column without a cast, behind an optional table and its schema. -/
theorem leVia_columnSql (name : String) (alias? table schema : Option String) :
    Except.LeVia (Sql.Renamed r)
      (columnSql (.name name) (ColumnForm.of none alias?) table schema)
      (columnSql (.name (r.column name)) (ColumnForm.of none (alias?.map r)) (table.map r)
        (schema.map r)) := by
  have hexpr : Sql.Renamed r [.column (.ofName (.name name) table schema) none]
      [.column (.ofName (.name (r.column name)) (table.map r) (schema.map r)) none] := by
    cases table with
    | none => exact .column [] name
    | some table =>
      have hcolumn := Sql.Renamed.column (r := r) (schema.toList ++ [table]) name
      cases schema <;> exact hcolumn
  cases alias? with
  | none => exact Except.leVia_ok hexpr
  | some aliasName =>
    exact Except.leVia_ok (hexpr.append (.aliasSql (some aliasName)))

/-- A field and the renamed field. -/
inductive FieldRef.Renamed (r : Renaming) : FieldRef → FieldRef → Prop where
  | mk (name : String) (alias? table : Option String) :
    Renamed r ⟨.name name, alias?, table, none⟩
      ⟨.name (r.column name), alias?.map r, table.map r, none⟩

theorem FieldRef.Renamed.leVia_sql {f f' : FieldRef} (h : Renamed r f f') :
    Except.LeVia (Sql.Renamed r) f.sql f'.sql := by
  obtain ⟨name, alias?, table⟩ := h
  have hcolumn := leVia_columnSql (r := r) name alias? table none
  cases alias? <;> exact hcolumn

namespace Field

variable {f : Field} (h : f.isPlain)

include h

theorem leVia_resolve :
    Except.LeVia (FieldRef.Renamed r) (f.resolve none) ((f.rename r).resolve none) := by
  obtain ⟨table, name⟩ := f
  obtain ⟨htable, hname⟩ : table.all Identifier.isPlain = true ∧ name.isPlain = true := by
    simpa [isPlain] using h
  cases table with
  | none =>
    refine (Identifier.leVia_asColumn hname).bind fun p p' hp => ?_
    obtain ⟨column, alias?⟩ := hp
    exact Except.leVia_ok (.mk column alias? none)
  | some table =>
    refine (Identifier.leVia_asQualifier htable).bind fun q q' hq => ?_
    obtain ⟨qualifier⟩ := hq
    refine (Identifier.leVia_asColumn hname).bind fun p p' hp => ?_
    obtain ⟨column, alias?⟩ := hp
    exact Except.leVia_ok (.mk column alias? (some qualifier))

theorem leVia_sql : Except.LeVia (Sql.Renamed r) (f.sql none) ((f.rename r).sql none) :=
  (leVia_resolve h).bind fun _ _ hf => hf.leVia_sql

end Field

theorem Column.leVia_sql {c : Column} (h : c.isPlain) (table schema : Option String) :
    Except.LeVia (Sql.Renamed r) (c.sql none table schema)
      ((c.rename r).sql none (table.map r) (schema.map r)) := by
  obtain ⟨name, alias?, cast⟩ := c
  obtain ⟨hname, rfl⟩ : name.isPlain = true ∧ cast = none := by simpa [isPlain] using h
  refine (Identifier.leVia_asColumn hname).bind fun p p' hp => ?_
  obtain ⟨column, identAlias⟩ := hp
  have halias : (alias?.map r).or (identAlias.map r) = (alias?.or identAlias).map r := by
    cases alias? <;> rfl
  simp only [rename, halias]
  cases alias?.or identAlias with
  | none => exact leVia_columnSql column none table schema
  | some aliasName =>
    exact (r.leVia_checkName _ aliasName).bind fun _ _ _ =>
      leVia_columnSql column (some aliasName) table schema

/-- The renamed columns of a list are those of the renamed list. -/
theorem Column.leVia_mapM_sql {cs : List Column} (h : cs.all Column.isPlain)
    (table schema : Option String) :
    Except.LeVia (List.Forall₂ (Sql.Renamed r)) (cs.mapM (Column.sql none table schema))
      ((cs.map (Column.rename r)).mapM (Column.sql none (table.map r) (schema.map r))) :=
  Except.leVia_mapM_map _ fun c hc => leVia_sql (List.all_eq_true.1 h c hc) table schema

theorem leVia_returningClause {columns : Option Columns} (h : columns.all Columns.isPlain) :
    Except.LeVia (Sql.RenamedClause r)
      (returningClause none columns) (returningClause none (columns.map (Columns.rename r))) := by
  cases columns with
  | none => exact Except.leVia_ok .nil
  | some columns =>
    have hcolumns : Except.LeVia (Sql.Renamed r) (columns.returningSql none)
        ((columns.rename r).returningSql none) := by
      unfold Columns.returningSql
      rw [Columns.listed_rename]
      have hlisted : columns.listed.all Column.isPlain := h
      generalize columns.listed = listed at hlisted
      cases listed with
      | nil => exact Except.leVia_ok (.text (by decide))
      | cons c cs =>
        exact (Column.leVia_mapM_sql hlisted none none).bind fun _ _ hparts =>
          Except.leVia_ok (.join _ (by decide) hparts)
    exact hcolumns.bind fun sql sql' hsql => Except.leVia_ok (.text_append (by decide) hsql)

end SqlAssembly
