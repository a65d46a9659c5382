import SqlAssembly.Proofs.Bindings
import SqlAssembly.Proofs.Query.Scope
import SqlAssembly.Proofs.Spelling
import SqlAssembly.Query

/-!
# How a select refers to its sources

The text that stands before the columns of a source is its *place* (`Binding.place`): its quoted
alias, or the table itself behind its schema. A source that is written with `AS` is written with the
alias of its place, and another one is its place (`Binding.Named.writtenAs`). Wherever a select
qualifies a column of a source, in the select list or in the condition of a join, it does so by the
place of the source (`Select.refersToSources`).
-/

namespace SqlAssembly

variable {σ : Type} {d : Dialect}

/-! ### Columns behind a place -/

/-- ` AS ` and the quoted alias, if there is one. -/
def Dialect.aliasText (d : Dialect) : Option String → String
  | none => ""
  | some aliasName => " AS " ++ d.quoteIdentifier aliasName

/-- A table behind its schema, as it stands before columns. -/
def Dialect.pathText (d : Dialect) (schema : Option String) (table : String) : String :=
  match schema with
  | none => d.quoteIdentifier table
  | some schema => d.quoteIdentifier schema ++ "." ++ d.quoteIdentifier table

/-- A column behind the place that qualifies it. Raw SQL is not qualified. -/
def SqlName.textBehind (d : Dialect) (place : Option String) : SqlName → String
  | .raw sql => sql
  | .name s =>
    let column := if s = "*" then "*" else d.quoteIdentifier s
    match place with
    | none => column
    | some place => place ++ "." ++ column

/-- A column of the select list behind the place that qualifies it. -/
def Column.textBehind (d : Dialect) (owner : Option RecordType) (place : Option String)
    (c : Column) : Except SqlError String := do
  let (name, identAlias) ← c.name.asColumn owner
  let alias? := c.alias?.or identAlias
  if let some aliasName := alias? then checkName .aliasName aliasName
  let text := name.textBehind d place
  return (match c.cast with
    | none => text
    | some type => d.cast text type) ++ d.aliasText alias?

theorem ColumnExpr.spell_ofName (name : SqlName) (table schema : Option String) :
    (ColumnExpr.ofName name table schema).spell d
      = name.textBehind d (table.map (d.pathText schema)) := by
  cases name with
  | raw sql => rfl
  | name name =>
    cases table with
    | none => simp [ofName, spell, SqlName.textBehind]
    | some table =>
      cases schema <;>
        simp [ofName, spell, SqlName.textBehind, Dialect.pathText, String.append_assoc]

theorem Dialect.spell_aliasSql (alias? : Option String) :
    d.spell (aliasSql alias?) = d.aliasText alias? := by
  cases alias? <;> simp [Dialect.spell, aliasSql, aliasText, Piece.spell, Piece.values]

theorem Dialect.quoteTable_name (table : String) (schema : Option String) :
    d.quoteTable (.name table) none schema = d.pathText schema table := by
  cases schema <;>
    simp [quoteTable, Dialect.spell, tableSql, aliasSql, Piece.spell, Piece.values, pathText,
      String.append_assoc]

theorem Column.map_spell_sql (owner : Option RecordType) (table schema : Option String)
    (c : Column) :
    (c.sql owner table schema).map d.spell
      = c.textBehind d owner (table.map (d.pathText schema)) := by
  rw [Column.sql, textBehind]
  cases c.name.asColumn owner with
  | error e => rfl
  | ok r =>
    obtain ⟨name, identAlias⟩ := r
    have hexpr := ColumnExpr.spell_ofName (d := d) name table schema
    simp only [Except.ok_bind]
    cases halias : c.alias?.or identAlias with
    | none =>
      cases hcast : c.cast <;>
        simp [columnSql, ColumnForm.of, Dialect.spell, Piece.spell, hexpr, Dialect.aliasText]
    | some aliasName =>
      cases hname : checkName .aliasName aliasName with
      | error e => simp [hname]
      | ok _ =>
        cases hcast : c.cast <;>
          simp [hname, columnSql, ColumnForm.of, Dialect.spell, Piece.spell, Piece.values, hexpr,
            Dialect.aliasText, aliasSql]

theorem Column.map_spell_mapM (owner : Option RecordType) (table schema : Option String)
    (cs : List Column) :
    (cs.mapM (Column.sql owner table schema)).map (List.map d.spell)
      = cs.mapM (textBehind d owner (table.map (d.pathText schema))) := by
  rw [Except.map_mapM]
  exact congrArg (List.mapM · cs) (funext (map_spell_sql owner table schema))

/-! ### Places -/

namespace Binding

/-- What stands before the columns of a source: its quoted alias, or else the text of the table
itself. A query always has an alias. -/
def place (d : Dialect) (b : Binding σ) : String :=
  match b.alias?, b.body with
  | some aliasName, _ => d.quoteIdentifier aliasName
  | none, .table table schema => d.quoteTable table none schema
  | none, .query _ => ""

/-- How a source is written in the `FROM` list or behind `JOIN`: its table, or its query in
parentheses, and ` AS ` with the alias that it has. -/
inductive WrittenAs (d : Dialect) (b : Binding Query) : String → Prop
  | table {table : SqlName} {schema : Option String} (hbody : b.body = .table table schema) :
      WrittenAs d b (d.quoteTable table none schema ++ d.aliasText b.alias?)
  | query {q : Query} {bound after : List Value} {text : String} (hbody : b.body = .query q)
      (htext : (q.write d).run bound = .ok (text, after)) :
      WrittenAs d b ("(" ++ text ++ ")" ++ d.aliasText b.alias?)

theorem Named.place_eq {b : Binding σ} (h : b.Named) :
    b.place d = d.pathText b.schema b.qualifier := by
  cases halias : b.alias? with
  | some aliasName =>
    obtain ⟨hqualifier, hschema⟩ := h.aliased aliasName halias
    simp [place, halias, hqualifier, hschema, Dialect.pathText]
  | none =>
    rw [place, halias, h.plain halias]
    exact Dialect.quoteTable_name b.qualifier b.schema

/-- A source written without `AS` is its place. One written with `AS` ends in the alias that is its
place. -/
theorem Named.writtenAs {b : Binding Query} (h : b.Named) {text : String}
    (htext : b.WrittenAs d text) :
    (b.alias? = none → text = b.place d)
      ∧ ∀ aliasName, b.alias? = some aliasName →
        b.place d = d.quoteIdentifier aliasName ∧ ∃ base, text = base ++ " AS " ++ b.place d := by
  constructor
  · intro halias
    have hbody := h.plain halias
    cases htext with
    | table hbody' =>
      rw [hbody] at hbody'
      cases hbody'
      simp [place, halias, hbody, Dialect.aliasText]
    | query hbody' =>
      rw [hbody] at hbody'
      cases hbody'
  · intro aliasName halias
    have hplace : b.place d = d.quoteIdentifier aliasName := by
      simp [place, halias]
    refine ⟨hplace, ?_⟩
    rw [hplace]
    cases htext with
    | table => exact ⟨_, by rw [halias, Dialect.aliasText, String.append_assoc]⟩
    | query => exact ⟨_, by rw [halias, Dialect.aliasText, ← String.append_assoc]⟩

/-- The columns of a source in the select list, qualified by its place or not; `*` behind its place
if none are listed. -/
def listTexts (d : Dialect) (b : Binding σ) (qualify : Bool) (columns : Columns) :
    Except SqlError (List String) :=
  match columns.listed with
  | [] => .ok [b.place d ++ ".*"]
  | listed =>
    listed.mapM (Column.textBehind d b.record (if qualify then some (b.place d) else none))

theorem Named.map_spell_listSql {b : Binding σ} (h : b.Named) (qualify : Bool)
    (columns : Columns) :
    (b.listSql qualify columns).map (List.map d.spell) = b.listTexts d qualify columns := by
  unfold listSql listTexts
  cases hlisted : columns.listed with
  | nil =>
    rw [h.place_eq]
    simp [columnSql, SqlAssembly.columnSql, Dialect.spell, Piece.spell, ColumnExpr.spell_ofName,
      SqlName.textBehind, String.append_assoc]
  | cons c cs =>
    rw [h.place_eq]
    cases qualify with
    | false => exact Column.map_spell_mapM b.record none none (c :: cs)
    | true => exact Column.map_spell_mapM b.record (some b.qualifier) b.schema (c :: cs)

end Binding

/-! ### The select list -/

/-- The columns of an entry of the select list. -/
def BoundItem.listTexts (d : Dialect) : BoundItem σ → Except SqlError (List String)
  | source b _ columns => b.listTexts d b.qualifies columns
  | expressions columns => columns.mapM (Column.textBehind d none none)

/-- The columns that a join adds to the select list, always qualified. -/
def BoundJoin.listTexts (d : Dialect) (j : BoundJoin σ) : Except SqlError (List String) :=
  match j.join.columns with
  | none => .ok []
  | some columns => j.binding.listTexts d true columns

/-- The select list: the columns of the entries, then those of the joins. -/
def Scope.listTexts (d : Dialect) (s : Scope σ) : Except SqlError (List String) := do
  let items ← s.items.mapM (BoundItem.listTexts d)
  let joins ← s.joins.mapM (BoundJoin.listTexts d)
  return (items ++ joins).flatten

theorem Scope.listTexts_eq_ok {s : Scope σ} (hnamed : ∀ b ∈ s.bindings, b.Named)
    {columns : List Sql} (h : s.selectList = .ok columns) :
    s.listTexts d = .ok (columns.map d.spell) := by
  obtain ⟨items, hitems, h⟩ := Except.bind_eq_ok.1 h
  obtain ⟨joins, hjoins, h⟩ := Except.bind_eq_ok.1 h
  have hcolumns : columns = (items ++ joins).flatten := by
    split at h
    · cases h
    · cases h
      rfl
  have hitemTexts : s.items.mapM (BoundItem.listTexts d) = .ok (items.map (List.map d.spell)) := by
    refine Except.mapM_eq_ok_map (fun item hitem => ?_) hitems
    cases item with
    | source b lateral columns =>
      have hb : b ∈ s.bindings :=
        List.mem_append_left _ (List.mem_filterMap.2 ⟨_, hitem, rfl⟩)
      exact (hnamed b hb).map_spell_listSql b.qualifies columns
    | expressions columns => exact Column.map_spell_mapM none none none columns
  have hjoinTexts : s.joins.mapM (BoundJoin.listTexts d) = .ok (joins.map (List.map d.spell)) := by
    refine Except.mapM_eq_ok_map (fun j hj => ?_) hjoins
    have hb : j.binding ∈ s.bindings := List.mem_append_right _ (List.mem_map_of_mem hj)
    rw [BoundJoin.listTexts]
    cases j.join.columns with
    | none => rfl
    | some columns => exact (hnamed _ hb).map_spell_listSql true columns
  rw [listTexts, hitemTexts, hjoinTexts, hcolumns]
  simp [List.map_flatten]

/-! ### Sources -/

theorem Dialect.quoteTable_eq (table : SqlName) (alias? schema : Option String) :
    d.quoteTable table alias? schema = d.quoteTable table none schema ++ d.aliasText alias? := by
  have hvalues := values_tableSql table schema
  have halias := spell_aliasSql (d := d) alias?
  have hnone : aliasSql none = [] := rfl
  rw [Dialect.spell] at halias
  rw [quoteTable, quoteTable, hnone, List.append_nil, Dialect.spell, Dialect.spell,
    Sql.spell_append, hvalues, List.length_nil, halias]

/-- What is written as a source is the source. -/
theorem Binding.writtenAs_of_run {b : Binding Query} {bound after : List Value} {text : String}
    (h : ((b.map (Query.write d)).write d).run bound = .ok (text, after)) : b.WrittenAs d text := by
  cases hbody : b.body with
  | table table schema =>
    simp only [write, map, hbody, SourceBody.map] at h
    cases h
    rw [Dialect.quoteTable_eq]
    exact .table hbody
  | query q =>
    simp only [write, map, hbody, SourceBody.map] at h
    obtain ⟨inner, mid, hinner, h⟩ := Except.run_bind_eq_ok.1 h
    cases h
    rw [Dialect.quoteTable_eq]
    have hparenthesized : d.quoteTable (.raw inner) none none = "(" ++ inner ++ ")" := by
      simp [Dialect.quoteTable, Dialect.spell, tableSql, aliasSql, Sql.parenthesized,
        String.append_assoc]
    rw [hparenthesized]
    exact .query hbody hinner

namespace Select

theorem exists_map_of_forall₂ {α β γ : Type} {R : α → β → Prop} {f : β → γ} {as : List α}
    {cs : List γ} (h : List.Forall₂ (fun a c => ∃ b, c = f b ∧ R a b) as cs) :
    ∃ bs : List β, cs = bs.map f ∧ List.Forall₂ R as bs := by
  induction h with
  | nil => exact ⟨[], rfl, .nil⟩
  | cons hab _ ih =>
    obtain ⟨b, rfl, hb⟩ := hab
    obtain ⟨bs, rfl, hbs⟩ := ih
    exact ⟨b :: bs, rfl, .cons hb hbs⟩

/-- The `FROM` list, the plain sources before the lateral ones. -/
def fromTexts (plain lateral : List String) : List String :=
  match plain ++ lateral.map ("LATERAL " ++ ·) with
  | [] => []
  | tables => ["FROM " ++ String.intercalate ", " tables]

theorem fromTexts_of_run {items : List (BoundItem Query)} {bound after : List Value}
    {texts : List String}
    (h : (writeFrom d (items.map (BoundItem.map (Query.write d)))).run bound = .ok (texts, after)) :
    ∃ plain lateral,
      List.Forall₂ (Binding.WrittenAs d) (BoundItem.sources false items) plain
      ∧ List.Forall₂ (Binding.WrittenAs d) (BoundItem.sources true items) lateral
      ∧ texts = fromTexts plain lateral := by
  obtain ⟨plain, mid, hplain, h⟩ := Except.run_bind_eq_ok.1 h
  obtain ⟨lateral, last, hlateral, h⟩ := Except.run_bind_eq_ok.1 h
  cases h
  rw [BoundItem.sources_map] at hplain hlateral
  have hp := Except.forall₂_of_run_mapM hplain
  have hl := Except.forall₂_of_run_mapM hlateral
  rw [List.forall₂_map_left_iff] at hp hl
  have hplainTexts : List.Forall₂ (Binding.WrittenAs d) (BoundItem.sources false items) plain :=
    hp.imp fun b text ⟨before, after, hrun⟩ => Binding.writtenAs_of_run hrun
  obtain ⟨texts, rfl, hlateralTexts⟩ : ∃ texts, lateral = texts.map ("LATERAL " ++ ·)
      ∧ List.Forall₂ (Binding.WrittenAs d) (BoundItem.sources true items) texts := by
    refine exists_map_of_forall₂ (hl.imp fun b text ⟨before, after, hrun⟩ => ?_)
    obtain ⟨source, mid, hsource, hrun⟩ := Except.run_bind_eq_ok.1 hrun
    cases hrun
    exact ⟨source, rfl, Binding.writtenAs_of_run hsource⟩
  exact ⟨plain, texts, hplainTexts, hlateralTexts, rfl⟩

/-- The joins are written one after the other: each is its keyword, its source and its condition,
which can name what is bound before it. -/
theorem joinTexts_of_run {prior : List (Binding Query)} {joins : List (BoundJoin Query)}
    {bound after : List Value} {texts : List String}
    (h : (writeJoins d (prior.map (Binding.map (Query.write d)))
      (joins.map (BoundJoin.map (Query.write d)))).run bound = .ok (texts, after)) :
    texts.length = joins.length
      ∧ ∀ i j, joins[i]? = some j → ∃ source condition,
        joinOnSql (prior ++ (joins.take i).map BoundJoin.binding) j = .ok condition
        ∧ j.binding.WrittenAs d source
        ∧ texts[i]? = some (j.join.kind.keyword ++ " " ++ source ++ d.spell condition) := by
  induction joins generalizing prior bound texts with
  | nil =>
    cases h
    simp
  | cons j joins ih =>
    obtain ⟨first, mid, hfirst, h⟩ := Except.run_bind_eq_ok.1 h
    obtain ⟨rest, last, hrest, h⟩ := Except.run_bind_eq_ok.1 h
    cases h
    obtain ⟨source, mid', hsource, hfirst⟩ := Except.run_bind_eq_ok.1 hfirst
    obtain ⟨condition, mid'', hcondition, hfirst⟩ := Except.run_bind_eq_ok.1 hfirst
    cases hfirst
    obtain ⟨sql, mid', hsql, hcondition⟩ := Except.run_bind_eq_ok.1 hcondition
    cases hcondition
    obtain ⟨hsql, -⟩ := Except.run_liftM_eq_ok.1 hsql
    rw [joinOnSql_map] at hsql
    have hprior : prior.map (Binding.map (Query.write d)) ++ [(j.map (Query.write d)).binding]
        = (prior ++ [j.binding]).map (Binding.map (Query.write d)) := by
      simp [BoundJoin.map]
    rw [hprior] at hrest
    obtain ⟨hlength, hall⟩ := ih hrest
    refine ⟨by simp [hlength], ?_⟩
    intro i j' hj
    cases i with
    | zero =>
      cases hj
      exact ⟨source, sql, by simpa using hsql, Binding.writtenAs_of_run hsource, rfl⟩
    | succ i =>
      obtain ⟨source', condition', hcondition', hsource', htext⟩ := hall i j' hj
      refine ⟨source', condition', ?_, hsource', htext⟩
      simpa using hcondition'

/-- The clauses of a select with entries of its own, up to its last join, and what its sources,
columns and conditions are. -/
theorem exists_clauses {s : Select Query} {bound after : List Value} {text : String}
    (hitems : s.items ≠ []) (h : ((Query.of s).write d).run bound = .ok (text, after)) :
    ∃ scope columns plain lateral joins rest, Scope.bind s = .ok scope
      ∧ scope.selectList = .ok columns
      ∧ List.Forall₂ (Binding.WrittenAs d) (BoundItem.sources false scope.items) plain
      ∧ List.Forall₂ (Binding.WrittenAs d) (BoundItem.sources true scope.items) lateral
      ∧ joins.length = scope.joins.length
      ∧ (∀ i j, scope.joins[i]? = some j → ∃ source condition,
          joinOnSql (scope.earlier i) j = .ok condition
          ∧ j.binding.WrittenAs d source
          ∧ joins[i]? = some (j.join.kind.keyword ++ " " ++ source ++ d.spell condition))
      ∧ text = String.intercalate " "
          (d.spell (listSql s.distinct columns) :: fromTexts plain lateral ++ joins ++ rest) := by
  rw [Query.write_of] at h
  obtain ⟨-, mid, -, h⟩ := Except.run_bind_eq_ok.1 h
  rw [if_neg (by simpa [map] using hitems)] at h
  obtain ⟨head, mid', hhead, h⟩ := Except.run_bind_eq_ok.1 h
  obtain ⟨filter, mid₁, hfilter, h⟩ := Except.run_bind_eq_ok.1 h
  obtain ⟨tail, mid₂, htail, h⟩ := Except.run_bind_eq_ok.1 h
  obtain ⟨members, mid₃, hmembers, h⟩ := Except.run_bind_eq_ok.1 h
  cases h
  obtain ⟨scope', mid₄, hscope, hhead⟩ := Except.run_bind_eq_ok.1 hhead
  obtain ⟨columns, mid₅, hcolumns, hhead⟩ := Except.run_bind_eq_ok.1 hhead
  obtain ⟨sources, mid₆, hsources, hhead⟩ := Except.run_bind_eq_ok.1 hhead
  obtain ⟨joins, mid₇, hjoins, hhead⟩ := Except.run_bind_eq_ok.1 hhead
  cases hhead
  obtain ⟨hscope, -⟩ := Except.run_liftM_eq_ok.1 hscope
  rw [Scope.bind_map] at hscope
  obtain ⟨scope, hbind, rfl⟩ := Except.map_eq_ok.1 hscope
  obtain ⟨hcolumns, -⟩ := Except.run_liftM_eq_ok.1 hcolumns
  rw [Scope.selectList_map] at hcolumns
  obtain ⟨plain, lateral, hplain, hlateral, rfl⟩ := fromTexts_of_run hsources
  rw [Scope.fromBindings_map] at hjoins
  obtain ⟨hlength, hall⟩ := joinTexts_of_run hjoins
  exact ⟨scope, columns, plain, lateral, joins, filter ++ tail ++ members, hbind, hcolumns, hplain,
    hlateral, hlength, hall, by simp; rfl⟩

end Select

/-! ### Conditions of joins -/

/-- A condition on columns can be rendered exactly if it names a source that is bound before, and
its columns can be read. -/
theorem Select.joinConditionSql_columns_eq_ok {prior : List (Binding σ)} {joined : Binding σ}
    {field other otherField : Identifier} {operator : String} {sql : Sql} :
    joinConditionSql prior joined (.columns field other otherField operator) = .ok sql ↔
      ∃ q b left right, other.asQualifier = .ok q
        ∧ (prior.find? fun b => b.qualifier == q.name) = some b
        ∧ (otherField.asColumn (q.record.or b.record)).map Prod.fst = .ok left
        ∧ (field.asColumn joined.record).map Prod.fst = .ok right
        ∧ sql = Sql.text " ON " ++ [.column (.ofName left (some b.qualifier) b.schema) none]
            ++ Sql.text (Text.trim operator)
            ++ [.column (.ofName right (some joined.qualifier) joined.schema) none] := by
  rw [joinConditionSql]
  cases other.asQualifier with
  | error e => simp
  | ok q =>
    cases hfind : prior.find? fun b => b.qualifier == q.name with
    | none => simp [hfind]
    | some b =>
      simp only [Except.ok_bind, hfind]
      cases hleft : otherField.asColumn (q.record.or b.record) with
      | error e => simp [hfind, hleft]
      | ok left =>
        cases hright : field.asColumn joined.record with
        | error e => simp [Binding.columnSql, columnSql]
        | ok right => simp [hfind, hleft, Binding.columnSql, columnSql, eq_comm]

/-- How what follows the source of a join is written: nothing, a raw condition, or two columns, the
left one behind the place of a source that can be named and the right one behind the place of the
joined source. -/
inductive BoundJoin.ConditionText (d : Dialect) (earlier : List (Binding σ)) (j : BoundJoin σ) :
    String → Prop
  | none (hcondition : j.join.condition = .none) : ConditionText d earlier j ""
  | raw {sql : String} (hcondition : j.join.condition = some (.raw sql)) :
      ConditionText d earlier j (" ON (" ++ sql ++ ")")
  | columns {field other otherField : Identifier} {operator : String} {q : Qualifier}
      {b : Binding σ} {left right : SqlName}
      (hcondition : j.join.condition = some (.columns field other otherField operator))
      (hother : other.asQualifier = .ok q) (hb : b ∈ earlier) (hname : b.qualifier = q.name)
      (hleft : (otherField.asColumn (q.record.or b.record)).map Prod.fst = .ok left)
      (hright : (field.asColumn j.binding.record).map Prod.fst = .ok right) :
      ConditionText d earlier j
        (" ON " ++ left.textBehind d (some (b.place d)) ++ Text.trim operator
          ++ right.textBehind d (some (j.binding.place d)))

theorem BoundJoin.conditionText_of_joinOnSql {earlier : List (Binding σ)} {j : BoundJoin σ}
    {sql : Sql} (hearlier : ∀ b ∈ earlier, b.Named) (hj : j.binding.Named)
    (h : Select.joinOnSql earlier j = .ok sql) : j.ConditionText d earlier (d.spell sql) := by
  unfold Select.joinOnSql at h
  split at h
  · rename_i hcondition _
    cases h
    exact .none hcondition
  · cases h
  · cases h
  · rename_i condition hcondition _
    cases condition with
    | raw raw =>
      cases h
      have htext : d.spell (Sql.text (" ON (" ++ raw ++ ")")) = " ON (" ++ raw ++ ")" :=
        Sql.spell_text _
      rw [htext]
      exact .raw hcondition
    | columns field other otherField operator =>
      obtain ⟨q, b, left, right, hother, hfind, hleft, hright, rfl⟩ :=
        Select.joinConditionSql_columns_eq_ok.1 h
      have hb : b ∈ earlier := List.mem_of_find?_eq_some hfind
      have hname : b.qualifier = q.name := by simpa using List.find?_some hfind
      have htext := ConditionText.columns (d := d) hcondition hother hb hname hleft hright
      rw [(hearlier b hb).place_eq, hj.place_eq] at htext
      simpa [Dialect.spell, Piece.spell, Piece.values, ColumnExpr.spell_ofName,
        String.append_assoc] using htext

/-! ### Selects -/

/-- In a select that is written the names of the sources are pairwise distinct, every source is
written without `AS` as its place or with `AS` and the alias that is its place, and its columns are
qualified by its place in the select list and on both sides of the condition of a join. The left
side of such a condition belongs to a source of the `FROM` list or of an earlier join. -/
theorem Select.refersToSources {s : Select Query} {bound after : List Value} {text : String}
    (hitems : s.items ≠ []) (h : ((Query.of s).write d).run bound = .ok (text, after)) :
    ∃ scope, Scope.bind s = .ok scope
      ∧ (scope.bindings.map Binding.qualifier).Nodup
      ∧ (∀ b ∈ scope.bindings, ∀ source, b.WrittenAs d source →
          (b.alias? = none → source = b.place d)
          ∧ ∀ a, b.alias? = some a →
            b.place d = d.quoteIdentifier a ∧ ∃ base, source = base ++ " AS " ++ b.place d)
      ∧ (∀ i, scope.earlier i ⊆ scope.bindings)
      ∧ (∀ i k j, i ≤ k → scope.joins[k]? = some j →
          ∀ b ∈ scope.earlier i, b.qualifier ≠ j.binding.qualifier)
      ∧ ∃ columns plain lateral joins rest,
        scope.listTexts d = .ok columns
        ∧ List.Forall₂ (Binding.WrittenAs d) (BoundItem.sources false scope.items) plain
        ∧ List.Forall₂ (Binding.WrittenAs d) (BoundItem.sources true scope.items) lateral
        ∧ joins.length = scope.joins.length
        ∧ (∀ i (j : BoundJoin Query), scope.joins[i]? = some j → ∃ source condition,
            j.binding.WrittenAs d source ∧ j.ConditionText d (scope.earlier i) condition
            ∧ joins[i]? = some (j.join.kind.keyword ++ " " ++ source ++ condition))
        ∧ text = String.intercalate " "
            (((if s.distinct then "SELECT DISTINCT " else "SELECT ")
                ++ String.intercalate "," columns)
              :: fromTexts plain lateral ++ joins ++ rest) := by
  obtain ⟨scope, columns, plain, lateral, joins, rest, hbind, hcolumns, hplain, hlateral, hlength,
    hjoins, rfl⟩ := exists_clauses hitems h
  have hnamed : ∀ b ∈ scope.bindings, b.Named := fun b hb => Scope.named_of_mem hbind hb
  have hlist : d.spell (listSql s.distinct columns)
      = (if s.distinct then "SELECT DISTINCT " else "SELECT ")
        ++ String.intercalate "," (columns.map d.spell) := by
    rw [Dialect.spell, listSql, Sql.spell_append, Sql.spell_text, Sql.spell_join,
      Sql.spellAll_of_valuesAll_eq_nil (Scope.values_selectList hcolumns)]
  refine ⟨scope, hbind, Scope.nodup_qualifiers hbind,
    fun b hb source hsource => (hnamed b hb).writtenAs hsource, scope.earlier_subset,
    fun i k j hik hj b hb => Scope.ne_of_mem_earlier hbind hik hj hb,
    columns.map d.spell, plain, lateral, joins, rest, Scope.listTexts_eq_ok hnamed hcolumns,
    hplain, hlateral, hlength, ?_, by rw [hlist]⟩
  intro i j hj
  obtain ⟨source, condition, hcondition, hsource, htext⟩ := hjoins i j hj
  have hbinding : j.binding.Named :=
    hnamed _ (List.mem_append_right _ (List.mem_map_of_mem (List.mem_of_getElem? hj)))
  have hearlier : ∀ b ∈ scope.earlier i, b.Named := fun b hb => hnamed b (scope.earlier_subset i hb)
  exact ⟨source, d.spell condition, hsource,
    BoundJoin.conditionText_of_joinOnSql hearlier hbinding hcondition, htext⟩

/-- A table in a schema, a lateral query under an alias, and the same table once more as a joined
source, without its schema. -/
def Select.repeatedTable : Select Query :=
  .build .generic
    [.source (.table (.name "book") (some "archive")) (.list [{ name := .name "title" }]),
      .lateral (.subquery (.of (.build .generic [.source (.table (.name "loan") none) .all])) none)
        "latest" .all,
      .join { kind := .inner, source := .table (.name "book") none, columns := some .all
              condition := some (.columns (.name "id") (.name "latest") (.name "book_id") "=") }]

set_option maxRecDepth 10000 in
/-- The table in the schema has its own name for its place, the query and the joined source have
their aliases. -/
theorem Select.refersToSources_repeatedTable :
    Select.repeatedTable.items ≠ []
    ∧ ((Query.of repeatedTable).write .generic).run [] = .ok
        ("SELECT \"title\",\"latest\".*,\"book_2\".* FROM \"archive\".\"book\", "
          ++ "LATERAL (SELECT \"loan\".* FROM \"loan\") AS \"latest\" "
          ++ "INNER JOIN \"book\" AS \"book_2\" "
          ++ "ON \"latest\".\"book_id\"=\"book_2\".\"id\"", [])
    ∧ ∃ scope, Scope.bind repeatedTable = .ok scope
      ∧ (scope.bindings.map Binding.qualifier).Nodup
      ∧ scope.bindings.map Binding.qualifier = ["book", "latest", "book_2"]
      ∧ scope.bindings.map (Binding.place .generic)
          = ["\"archive\".\"book\"", "\"latest\"", "\"book_2\""]
      ∧ scope.listTexts .generic
          = .ok ["\"title\"", "\"latest\".*", "\"book_2\".*"] := by
  have hitems : repeatedTable.items ≠ [] := List.cons_ne_nil _ _
  have hrun : ((Query.of repeatedTable).write .generic).run [] = .ok (_, []) := rfl
  obtain ⟨scope, hbind, hnodup, -⟩ := refersToSources hitems hrun
  refine ⟨hitems, hrun, scope, hbind, hnodup, ?_⟩
  cases hbind
  exact ⟨rfl, rfl, rfl⟩

end SqlAssembly
