import SqlAssembly.Proofs.Outcome
import SqlAssembly.Select.Render

/-!
# Spelling SQL part by part

The text of SQL is made of the texts of its parts, each numbered behind the values of the parts
before it (`Sql.spell_append`, `Sql.spell_join`). SQL that binds nothing has one text wherever it
stands, and names, columns and fields bind nothing. Whether the SQL of a condition shows anything
does not depend on where it stands either (`Sql.IsDefinite`).
-/

namespace SqlAssembly

variable {d : Dialect} {k : Nat}

theorem Piece.spell_of_values_eq_nil {p : Piece} (h : p.values = []) :
    p.spell d k = p.spell d 0 := by
  match p with
  | .text _ | .name _ | .column _ none | .column _ (some _) => rfl
  | .param _ => simp [Piece.values] at h

namespace Sql

/-! ### Parts -/

@[simp] theorem spell_nil : Sql.spell d k [] = "" := rfl

@[simp] theorem spell_cons (p : Piece) (ps : Sql) :
    Sql.spell d k (p :: ps) = p.spell d k ++ Sql.spell d (k + p.values.length) ps := rfl

@[simp] theorem spell_text (s : String) : Sql.spell d k (text s) = s := by
  simp [text, Piece.spell]

@[simp] theorem spell_append (a b : Sql) :
    Sql.spell d k (a ++ b) = Sql.spell d k a ++ Sql.spell d (k + (values a).length) b := by
  induction a generalizing k with
  | nil => simp
  | cons p ps ih => simp [ih, String.append_assoc, Nat.add_assoc]

/-- The texts of parts that stand one behind the other. -/
def spellAll (d : Dialect) (k : Nat) : List Sql → List String
  | [] => []
  | p :: ps => p.spell d k :: spellAll d (k + p.values.length) ps

/-- The values that parts bind. -/
def valuesAll (parts : List Sql) : List Value := parts.flatMap values

@[simp] theorem spellAll_nil : spellAll d k [] = [] := rfl

@[simp] theorem spellAll_cons (p : Sql) (ps : List Sql) :
    spellAll d k (p :: ps) = p.spell d k :: spellAll d (k + p.values.length) ps := rfl

@[simp] theorem spellAll_eq_nil (ps : List Sql) : spellAll d k ps = [] ↔ ps = [] := by
  cases ps <;> simp

@[simp] theorem spellAll_append (ps qs : List Sql) :
    spellAll d k (ps ++ qs)
      = spellAll d k ps ++ spellAll d (k + (valuesAll ps).length) qs := by
  induction ps generalizing k with
  | nil => simp [valuesAll]
  | cons p ps ih => simp [ih, valuesAll, Nat.add_assoc]

@[simp] theorem valuesAll_nil : valuesAll [] = [] := rfl

@[simp] theorem valuesAll_cons (p : Sql) (ps : List Sql) :
    valuesAll (p :: ps) = values p ++ valuesAll ps := rfl

@[simp] theorem valuesAll_append (ps qs : List Sql) :
    valuesAll (ps ++ qs) = valuesAll ps ++ valuesAll qs := by
  simp [valuesAll]

@[simp] theorem values_join (separator : String) (parts : List Sql) :
    values (join separator parts) = valuesAll parts := by
  induction parts with
  | nil => rfl
  | cons p ps ih =>
    cases ps with
    | nil => simp [join]
    | cons q qs =>
      simp only [join, List.intercalate_cons_cons, values_append, values_text, valuesAll_cons]
        at ih ⊢
      rw [ih]
      simp

/-- Joined SQL is spelled by joining the texts of its parts. -/
@[simp] theorem spell_join (separator : String) (parts : List Sql) :
    Sql.spell d k (join separator parts) = String.intercalate separator (spellAll d k parts) := by
  induction parts generalizing k with
  | nil => simp [join]
  | cons p ps ih =>
    cases ps with
    | nil => simp [join]
    | cons q qs =>
      have ih := ih (k := k + p.values.length)
      simp only [join, List.intercalate_cons_cons, spell_append, values_append, values_text,
        spell_text, List.append_nil, spellAll_cons, String.intercalate_cons_cons] at ih ⊢
      rw [ih]

/-! ### SQL that binds nothing -/

theorem spell_of_values_eq_nil {sql : Sql} (h : sql.values = []) : sql.spell d k = d.spell sql := by
  rw [Dialect.spell]
  induction sql generalizing k with
  | nil => rfl
  | cons p ps ih =>
    obtain ⟨hp, hps⟩ : p.values = [] ∧ values ps = [] := by simpa using h
    rw [spell_cons, spell_cons, Piece.spell_of_values_eq_nil hp, hp]
    simp [ih hps]

theorem spellAll_of_valuesAll_eq_nil {parts : List Sql} (h : valuesAll parts = []) :
    spellAll d k parts = parts.map d.spell := by
  induction parts generalizing k with
  | nil => rfl
  | cons p ps ih =>
    obtain ⟨hp, hps⟩ : p.values = [] ∧ valuesAll ps = [] := by simpa using h
    simp [spell_of_values_eq_nil hp, ih hps, hp]

/-! ### SQL that shows something wherever it stands -/

/-- Whether the SQL shows anything is the same for every number of values bound before it. -/
def IsDefinite (d : Dialect) (sql : Sql) : Prop :=
  ∀ k, (sql.spell d k).isEmpty = sql.isBlank d

@[simp] theorem isBlank_nil : isBlank d [] = true := rfl

@[simp] theorem isBlank_append (a b : Sql) :
    isBlank d (a ++ b) = (isBlank d a && isBlank d b) := by
  simp [isBlank]

@[simp] theorem isBlank_text (s : String) : isBlank d (text s) = s.isEmpty := by
  simp [isBlank, text, Piece.isBlank, Piece.values, Piece.spell]

theorem isEmpty_append (s t : String) : (s ++ t).isEmpty = (s.isEmpty && t.isEmpty) := by
  rw [Bool.eq_iff_iff]
  simp [String.append_eq_empty_iff]

theorem isDefinite_append {a b : Sql} (ha : a.IsDefinite d) (hb : b.IsDefinite d) :
    IsDefinite d (a ++ b) := by
  intro k
  rw [spell_append, isEmpty_append, ha, hb, isBlank_append]

theorem isDefinite_text (s : String) : IsDefinite d (text s) := by
  intro k
  simp

/-- SQL behind text that is not empty shows something. -/
theorem isDefinite_text_append {s : String} (hs : s ≠ "") (sql : Sql) :
    IsDefinite d (text s ++ sql) := by
  intro k
  have hs : s.isEmpty = false := by simpa using hs
  simp [isEmpty_append, hs]

theorem isDefinite_of_values_eq_nil {sql : Sql} (h : sql.values = []) : sql.IsDefinite d := by
  intro k
  induction sql generalizing k with
  | nil => rfl
  | cons p ps ih =>
    obtain ⟨hp, hps⟩ : p.values = [] ∧ values ps = [] := by simpa using h
    rw [spell_cons, isEmpty_append, ih hps, Piece.spell_of_values_eq_nil hp]
    simp [isBlank, Piece.isBlank, hp]

/-- Blank SQL binds nothing. -/
theorem values_eq_nil_of_isBlank {sql : Sql} (h : sql.isBlank d) : sql.values = [] := by
  induction sql with
  | nil => rfl
  | cons p ps ih =>
    simp only [isBlank, List.all_cons, Bool.and_eq_true] at h
    have hp : p.values = [] := by
      have := h.1
      simp only [Piece.isBlank, Bool.and_eq_true, List.isEmpty_iff] at this
      exact this.1
    simp [hp, ih h.2]

end Sql

/-! ### Names, columns and fields -/

theorem values_aliasSql (alias? : Option String) : Sql.values (aliasSql alias?) = [] := by
  cases alias? <;> rfl

theorem values_tableSql (table : SqlName) (schema : Option String) :
    Sql.values (tableSql table schema) = [] := by
  cases table <;> cases schema <;> rfl

theorem values_columnSql {column : SqlName} {form : Option ColumnForm}
    {table schema : Option String} {sql : Sql}
    (h : columnSql column form table schema = .ok sql) : sql.values = [] := by
  unfold columnSql at h
  split at h <;> simp at h <;> subst h <;> simp [Piece.values, values_aliasSql]

theorem TableRef.values_sql (t : TableRef) : t.sql.values = [] := by
  simp [TableRef.sql, values_tableSql, values_aliasSql]

theorem Field.values_sql {owner : Option RecordType} {f : Field} {sql : Sql}
    (h : f.sql owner = .ok sql) : sql.values = [] := by
  obtain ⟨r, _, h⟩ := Except.bind_eq_ok.1 h
  exact values_columnSql h

theorem Column.values_sql {owner : Option RecordType} {table schema : Option String} {c : Column}
    {sql : Sql} (h : c.sql owner table schema = .ok sql) : sql.values = [] := by
  obtain ⟨⟨name, identAlias⟩, _, h⟩ := Except.bind_eq_ok.1 h
  dsimp only at h
  split at h
  · obtain ⟨_, _, h⟩ := Except.bind_eq_ok.1 h
    exact values_columnSql h
  · exact values_columnSql h

/-- Parts that bind given values, one for each element of a list. -/
theorem Sql.valuesAll_mapM {α : Type} {f : α → Rendered} {g : α → List Value} {as : List α}
    {parts : List Sql} (hf : ∀ a sql, f a = .ok sql → sql.values = g a)
    (h : as.mapM f = .ok parts) : Sql.valuesAll parts = as.flatMap g := by
  rw [Except.mapM_eq_ok] at h
  induction h with
  | nil => rfl
  | cons hab _ ih => rw [valuesAll_cons, hf _ _ hab, ih, List.flatMap_cons]

theorem Sql.valuesAll_of_mapM {α : Type} {f : α → Rendered} {as : List α} {parts : List Sql}
    (hf : ∀ a sql, f a = .ok sql → sql.values = []) (h : as.mapM f = .ok parts) :
    Sql.valuesAll parts = [] := by
  rw [valuesAll_mapM hf h]
  simp

theorem Columns.values_returningSql {owner : Option RecordType} {cs : Columns} {sql : Sql}
    (h : cs.returningSql owner = .ok sql) : sql.values = [] := by
  unfold Columns.returningSql at h
  split at h
  · cases h
    rfl
  · obtain ⟨parts, hparts, h⟩ := Except.bind_eq_ok.1 h
    cases h
    rw [Sql.values_join]
    exact Sql.valuesAll_of_mapM (fun _ _ => Column.values_sql) hparts

theorem values_returningClause {owner : Option RecordType} {cs : Option Columns} {sql : Sql}
    (h : returningClause owner cs = .ok sql) : sql.values = [] := by
  cases cs with
  | none =>
    cases h
    rfl
  | some cs =>
    obtain ⟨columns, hcolumns, h⟩ := Except.bind_eq_ok.1 h
    cases h
    simp [Columns.values_returningSql hcolumns]

/-! ### Clauses of a select that bind nothing -/

variable {σ : Type}

theorem Binding.values_columnSql {b : Binding σ} {column : SqlName} {sql : Sql}
    (h : b.columnSql column = .ok sql) : sql.values = [] :=
  SqlAssembly.values_columnSql h

theorem Binding.values_listSql {b : Binding σ} {qualify : Bool} {columns : Columns}
    {parts : List Sql} (h : b.listSql qualify columns = .ok parts) : Sql.valuesAll parts = [] := by
  unfold Binding.listSql at h
  split at h
  · obtain ⟨sql, hsql, h⟩ := Except.bind_eq_ok.1 h
    cases h
    simp [Binding.values_columnSql hsql]
  · split at h
    · exact Sql.valuesAll_of_mapM (fun _ _ => Column.values_sql) h
    · exact Sql.valuesAll_of_mapM (fun _ _ => Column.values_sql) h

theorem BoundItem.values_listSql {i : BoundItem σ} {parts : List Sql} (h : i.listSql = .ok parts) :
    Sql.valuesAll parts = [] := by
  cases i with
  | source b l columns => exact Binding.values_listSql h
  | expressions columns => exact Sql.valuesAll_of_mapM (fun _ _ => Column.values_sql) h

theorem Sql.valuesAll_flatten_of_mapM {α : Type} {f : α → Except SqlError (List Sql)} {as : List α}
    {parts : List (List Sql)} (hf : ∀ a ps, f a = .ok ps → Sql.valuesAll ps = [])
    (h : as.mapM f = .ok parts) : Sql.valuesAll parts.flatten = [] := by
  refine List.flatMap_eq_nil_iff.2 fun p hp => ?_
  obtain ⟨ps, hps, hp⟩ := List.mem_flatten.1 hp
  exact List.flatMap_eq_nil_iff.1 (Except.forall_mem_of_mapM (fun a _ => hf a) h ps hps) p hp

theorem Scope.values_selectList {s : Scope σ} {columns : List Sql}
    (h : s.selectList = .ok columns) : Sql.valuesAll columns = [] := by
  obtain ⟨items, hitems, h⟩ := Except.bind_eq_ok.1 h
  obtain ⟨joins, hjoins, h⟩ := Except.bind_eq_ok.1 h
  have hi := Sql.valuesAll_flatten_of_mapM (fun _ _ => BoundItem.values_listSql) hitems
  have hj : Sql.valuesAll joins.flatten = [] := by
    refine Sql.valuesAll_flatten_of_mapM (fun j ps hps => ?_) hjoins
    split at hps
    · cases hps
      rfl
    · exact Binding.values_listSql hps
  split at h
  · cases h
  · cases h
    simp [hi, hj]

namespace Select

theorem values_joinConditionSql {prior : List (Binding σ)} {joined : Binding σ}
    {condition : JoinCondition} {sql : Sql}
    (h : joinConditionSql prior joined condition = .ok sql) :
    sql.values = [] := by
  cases condition with
  | raw sql =>
    cases h
    rfl
  | columns field other otherField operator =>
    obtain ⟨q, _, h⟩ := Except.bind_eq_ok.1 h
    dsimp only at h
    split at h
    · cases h
    · obtain ⟨⟨otherColumn, _⟩, _, h⟩ := Except.bind_eq_ok.1 h
      obtain ⟨left, hleft, h⟩ := Except.bind_eq_ok.1 h
      obtain ⟨⟨column, _⟩, _, h⟩ := Except.bind_eq_ok.1 h
      obtain ⟨right, hright, h⟩ := Except.bind_eq_ok.1 h
      cases h
      simp [Binding.values_columnSql hleft, Binding.values_columnSql hright]

theorem values_joinOnSql {prior : List (Binding σ)} {j : BoundJoin σ} {sql : Sql}
    (h : joinOnSql prior j = .ok sql) : sql.values = [] := by
  unfold joinOnSql at h
  split at h
  · cases h
    rfl
  · cases h
  · cases h
  · exact values_joinConditionSql h

theorem values_groupBySql {fields : List Field} {sql : Sql} (h : groupBySql fields = .ok sql) :
    sql.values = [] := by
  unfold groupBySql at h
  split at h
  · cases h
    rfl
  · obtain ⟨parts, hparts, h⟩ := Except.bind_eq_ok.1 h
    cases h
    simp [Sql.valuesAll_of_mapM (fun _ _ => Field.values_sql) hparts]

theorem values_orderBySql {fields : List (Field × Direction)} {sql : Sql}
    (h : orderBySql fields = .ok sql) : sql.values = [] := by
  unfold orderBySql at h
  split at h
  · cases h
    rfl
  · obtain ⟨parts, hparts, h⟩ := Except.bind_eq_ok.1 h
    cases h
    rw [Sql.values_append, Sql.values_text, Sql.values_join]
    refine Sql.valuesAll_of_mapM (fun a sql hsql => ?_) hparts
    obtain ⟨field, hfield, hsql⟩ := Except.bind_eq_ok.1 hsql
    cases hsql
    simp [Field.values_sql hfield]

theorem values_limitSql (limit offset : Option Int64) :
    Sql.values (limitSql limit offset) = [] := by
  cases limit <;> cases offset <;> rfl

theorem values_tailSql {s : Select σ} {clauses : List Sql} (h : s.tailSql = .ok clauses) :
    Sql.valuesAll clauses = [] := by
  obtain ⟨orderBy, horderBy, h⟩ := Except.bind_eq_ok.1 h
  cases h
  cases hu : s.forUpdate <;> simp [values_orderBySql horderBy, values_limitSql]

end Select

end SqlAssembly
