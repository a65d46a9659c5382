import SqlAssembly.Proofs.InsertRows
import SqlAssembly.Proofs.LatestEntries
import SqlAssembly.Proofs.RecordColumns
import SqlAssembly.Proofs.Rendering
import SqlAssembly.Proofs.Writing.Statement

/-!
# Statements with the row of a record

A row of a record gives columns, and a statement on the record reads them as names again. So a
record instance is written to its own columns exactly if no attribute that is named like one of
these columns has another column (`RecordInstance.isOfRow_iff`).
-/

namespace SqlAssembly

/-! ### The row of a record -/

variable {σ : Type}

namespace RecordRow

/-- The columns that are set. -/
def columns (r : RecordRow) : List String := r.columnValues.map Prod.fst

/-- The values that are set. -/
def values (r : RecordRow) : List Value := r.columnValues.map Prod.snd

/-- The row as assignments to names. -/
def assignments (r : RecordRow) : List (Assignment σ) :=
  r.columnValues.map fun p => ⟨p.1, .value p.2⟩

/-- The row as operands under columns. -/
def entries (r : RecordRow) : List (String × Operand σ) :=
  r.columnValues.map fun p => (p.1, .value p.2)

@[simp] theorem keys_entries (r : RecordRow) :
    Entries.keys (r.entries : List (String × Operand σ)) = r.columns := by
  simp [Entries.keys, entries, columns]

theorem columns_sublist (r : RecordRow) : r.columns.Sublist r.type.columns := by
  rw [columns, columnValues, List.map_filterMap]
  show List.Sublist _ (r.type.pairs.map Prod.snd)
  induction r.type.pairs with
  | nil => exact .slnil
  | cons p ps ih =>
    rw [List.filterMap_cons]
    cases r.value? p.1 with
    | none => exact ih.cons p.2
    | some v => exact ih.cons_cons p.2

/-- Whether each column of the row, read as a name in a statement on the record, stands for
itself. -/
def KeepsColumns (r : RecordRow) : Prop :=
  ∀ c ∈ r.columns, columnName (some r.type) c = .ok c

/-- A column that is written stands for itself unless another attribute's name is taken for it. -/
theorem keepsColumns_iff {r : RecordRow}
    (hnames : ∀ c ∈ r.type.columns, c ≠ "" ∧ '\x00' ∉ c.toList) :
    r.KeepsColumns
      ↔ ∀ c ∈ r.columns, c = "*" ∨ ∀ q ∈ r.type.pairs, q.1 = c → q.2 = c := by
  refine forall₂_congr fun c hc => ?_
  have hmem := r.columns_sublist.subset hc
  rw [RecordType.columnName_eq_self (hnames c hmem), RecordType.column?_eq_self hmem]

theorem resolveAll_assignments {r : RecordRow} :
    Assignment.resolveAll (some r.type) r.assignments
      = .ok (r.entries : List (String × Operand σ)) ↔ r.KeepsColumns := by
  rw [Assignment.resolveAll, Except.mapM_eq_ok, assignments, entries, List.forall₂_map_left_iff,
    List.forall₂_map_right_iff, List.forall₂_same, KeepsColumns, columns, List.forall_mem_map]
  refine forall₂_congr fun p hp => ?_
  simp [Except.bind_eq_ok]

end RecordRow

/-! ### Placeholders for the values -/

namespace Sql

variable {d : Dialect}

/-- Parts with one placeholder each are spelled with consecutive placeholders. -/
theorem spellAll_map_placeholder {α : Type} {f : α → Sql} {g : α → String → String}
    (hspell : ∀ a k, (f a).spell d k = g a (d.placeholder (k + 1)))
    (hvalues : ∀ a, (f a).values.length = 1) (k : Nat) (as : List α) :
    spellAll d k (as.map f) = as.mapIdx fun i a => g a (d.placeholder (k + i + 1)) := by
  induction as generalizing k with
  | nil => rfl
  | cons a as ih =>
    simp [ih, List.mapIdx_cons, hspell, hvalues, Nat.add_assoc, Nat.add_comm 1]

theorem spellAll_params (k : Nat) (vs : List Value) :
    spellAll d k (vs.map fun v => [.param v])
      = vs.mapIdx fun i _ => d.placeholder (k + i + 1) := by
  rw [spellAll_map_placeholder (g := fun _ placeholder => placeholder)]
  · exact fun v k => by simp [Piece.spell]
  · exact fun v => rfl

theorem spellAll_assignments (row : List (String × Value)) :
    spellAll d 0 (row.map fun p => [.name p.1, .text "=", .param p.2])
      = row.mapIdx fun i p => d.quoteIdentifier p.1 ++ "=" ++ d.placeholder (i + 1) := by
  rw [spellAll_map_placeholder
    (g := fun p placeholder => d.quoteIdentifier p.1 ++ "=" ++ placeholder)]
  · simp
  · exact fun p k => by simp [Piece.spell, Piece.values, String.append_assoc]
  · exact fun p => rfl

theorem valuesAll_params (vs : List Value) : valuesAll (vs.map fun v => [.param v]) = vs := by
  simp [valuesAll, List.flatMap_map, Piece.values]

theorem valuesAll_assignments (row : List (String × Value)) :
    valuesAll (row.map fun p => [.name p.1, .text "=", .param p.2]) = row.map Prod.snd := by
  rw [valuesAll, List.flatMap_map, List.map_eq_flatMap]
  simp [Piece.values]

end Sql

/-! ### Inserts -/

namespace Insert

variable {r : RecordRow} (d : Dialect)

theorem columns_record (hnodup : r.type.columns.Nodup) (hset : r.columnValues ≠ []) :
    (build d [.record r] : Insert σ).columns (some r.type) = .ok r.columns ↔ r.KeepsColumns := by
  have hgiven : (build d [.record r] : Insert σ).givenColumns (some r.type)
      = r.columnValues.mapM fun p => columnName (some r.type) p.1 := by
    simp [build, apply, addRecord, givenColumns, Row.named?, List.mapM_map, Function.comp_def]
  have hne : r.columns ≠ [] := by simpa [RecordRow.columns] using hset
  rw [columns_eq_ok, hgiven, and_iff_left ⟨hne, hnodup.sublist r.columns_sublist⟩,
    Except.mapM_eq_ok, RecordRow.KeepsColumns, RecordRow.columns, List.forall₂_map_right_iff,
    List.forall₂_same, List.forall_mem_map]

theorem orderRow_record (hnodup : r.type.columns.Nodup) (hkeep : r.KeepsColumns) (number : Nat) :
    orderRow (some r.type) r.columns number (.named r.assignments : Row σ)
      = .ok (r.values.map .value) := by
  have hkeys : (Entries.keys (r.entries : List (String × Operand σ))).Nodup := by
    rw [RecordRow.keys_entries]
    exact hnodup.sublist r.columns_sublist
  have horder := mapM_operandFor hkeys number
  have hvalues : (r.entries : List (String × Operand σ)).map Prod.snd = r.values.map .value := by
    simp [RecordRow.entries, RecordRow.values]
  rw [RecordRow.keys_entries, hvalues] at horder
  have hlength : (r.entries : List (String × Operand σ)).length = r.columns.length := by
    simp [RecordRow.entries, RecordRow.columns]
  rw [orderRow, RecordRow.resolveAll_assignments.2 hkeep]
  simp [hlength, horder]

theorem valuesSql_values (owner : Option RecordType) (number : Nat) {columns : List String}
    {vs : List Value} (hlength : vs.length = columns.length) :
    valuesSql owner number columns (vs.map .value) = .ok (vs.map fun v => [.param v]) := by
  induction columns generalizing vs with
  | nil =>
    obtain rfl : vs = [] := List.length_eq_zero_iff.1 hlength
    rfl
  | cons column columns ih =>
    cases vs with
    | nil => simp at hlength
    | cons v vs =>
      have hrest := ih (by simpa using hlength)
      simp [valuesSql, Operand.render, hrest]

theorem map_record {τ : Type} (f : σ → τ) :
    (build d [.record r] : Insert σ).map f = build d [.record r] := by
  simp [build, apply, addRecord, map, Row.map, Source.map, Assignment.map, Operand.map]

theorem render_record (herror : r.error = none) (hnodup : r.type.columns.Nodup)
    (hset : r.columnValues ≠ []) (hkeep : r.KeepsColumns) :
    (build d [.record r] : Insert Rendered).render = .ok (Sql.text "INSERT INTO "
      ++ (TableRef.mk (r.type.schema.or none) (.name r.type.table) none).sql ++ Sql.text " ("
      ++ Sql.join ", " (r.columns.map fun c => [Piece.name c]) ++ Sql.text ") VALUES "
      ++ Sql.join ", " [Sql.parenthesized (Sql.join ", " (r.values.map fun v => [Piece.param v]))]
      ++ []) := by
  have hlength : r.values.length = r.columns.length := by
    simp [RecordRow.values, RecordRow.columns]
  have hordered : orderRows (some r.type) r.columns 1 [.named r.assignments]
      = .ok [r.values.map (Operand.value : Value → Operand Rendered)] := by
    simp [orderRows, orderRow_record hnodup hkeep]
  have hrows : rowsSql (some r.type) r.columns 1 [r.values.map Operand.value]
      = .ok [Sql.parenthesized (Sql.join ", " (r.values.map fun v => [Piece.param v]))] := by
    simp [rowsSql, valuesSql_values _ _ hlength]
  exact render_eq_ok.2 ⟨herror, .table (.record { type := r.type }) none, _, r.columns, _, _, [],
    rfl, rfl, List.cons_ne_nil _ _, (columns_record d hnodup hset).2 hkeep, hordered, hrows, rfl,
    rfl⟩

/-- The insert of a record writes the values of the row to the columns of the row, if these stand
for themselves. -/
theorem assemble_record (herror : r.error = none) (hnodup : r.type.columns.Nodup)
    (hset : r.columnValues ≠ []) (hkeep : r.KeepsColumns) :
    (Command.insert (build d [.record r])).assemble = .ok
      ⟨"INSERT INTO " ++ d.quoteTable (.name r.type.table) none r.type.schema ++ " ("
          ++ String.intercalate ", " (r.columns.map d.quoteIdentifier) ++ ") VALUES ("
          ++ String.intercalate ", " (r.values.mapIdx fun i _ => d.placeholder (i + 1)) ++ ")",
        r.values⟩ := by
  have hrender : (Command.insert (build d [.record r])).render d = _ :=
    (congrArg Insert.render (map_record d _)).trans (render_record d herror hnodup hset hkeep)
  have hdialect : (Command.insert (build d [.record r])).dialect = d := rfl
  have htable : d.spell (TableRef.mk r.type.schema (.name r.type.table) none).sql
      = d.quoteTable (.name r.type.table) none r.type.schema := rfl
  have hopen (s : String) : ") VALUES (" ++ s = ") VALUES " ++ ("(" ++ s) := by
    rw [← String.append_assoc]
    rfl
  rw [Command.assemble_eq, hdialect, hrender, Except.map_ok, Dialect.spell]
  simp [Sql.parenthesized, Sql.spellAll_params, Sql.valuesAll_params, htable, hopen,
    String.append_assoc]

end Insert

/-! ### Updates -/

namespace Update

variable {r : RecordRow} (d : Dialect)

theorem merged_record_eq_ok {m : OrderedMap (Operand σ)} :
    (build d [.record r] : Update σ).merged (some r.type) = .ok m
      ↔ ∃ es, Assignment.resolveAll (some r.type) r.assignments = .ok es ∧ es ≠ []
        ∧ OrderedMap.ofEntries es = m := by
  rw [merged_eq_ok]
  constructor
  · rintro ⟨positional, es, hpositional, hes⟩
    cases hpositional
    exact ⟨es, hes⟩
  · rintro ⟨es, hes⟩
    exact ⟨[], es, rfl, hes⟩

/-- What the update of a record assigns is the row of the record, exactly if the columns of the row
stand for themselves. -/
theorem entries_merged_record (hnodup : r.type.columns.Nodup) (hset : r.columnValues ≠ []) :
    ((build d [.record r] : Update σ).merged (some r.type)).map OrderedMap.entries = .ok r.entries
      ↔ r.KeepsColumns := by
  rw [Except.map_eq_ok, ← RecordRow.resolveAll_assignments (σ := σ)]
  constructor
  · rintro ⟨m, hm, hentries⟩
    obtain ⟨es, hes, _, rfl⟩ := (merged_record_eq_ok d).1 hm
    -- No entry was lost, so the assignments were to distinct columns.
    have hsize : (OrderedMap.ofEntries es).size = es.length := by
      rw [OrderedMap.size, hentries, ← (Except.mapM_eq_ok.1 hes).length_eq]
      simp [RecordRow.entries, RecordRow.assignments]
    rw [OrderedMap.entries_ofEntries_of_nodup (OrderedMap.nodup_of_size_ofEntries hsize)]
      at hentries
    rw [hes, hentries]
  · intro hes
    have hcolumns : (Entries.keys (r.entries : List (String × Operand σ))).Nodup := by
      rw [RecordRow.keys_entries]
      exact hnodup.sublist r.columns_sublist
    have hne : (r.entries : List (String × Operand σ)) ≠ [] := by
      simpa [RecordRow.entries] using hset
    exact ⟨_, (merged_record_eq_ok d).2 ⟨_, hes, hne, rfl⟩,
      OrderedMap.entries_ofEntries_of_nodup hcolumns⟩

theorem map_record {τ : Type} (f : σ → τ) :
    (build d [.record r] : Update σ).map f = build d [.record r] := by
  simp [build, apply, addRecord, map, Source.map, Assignment.map, Operand.map, Condition.map,
    Node.mapAll]

theorem render_record (herror : r.error = none) (hnodup : r.type.columns.Nodup)
    (hset : r.columnValues ≠ []) (hkeep : r.KeepsColumns) :
    (build d [.record r] : Update Rendered).render d = .ok (Sql.text "UPDATE "
      ++ (TableRef.mk (r.type.schema.or none) (.name r.type.table) none).sql ++ Sql.text " SET "
      ++ Sql.join ", " (r.columnValues.map fun p => [.name p.1, .text "=", .param p.2])
      ++ [] ++ []) := by
  obtain ⟨m, hm, hentries⟩ := Except.map_eq_ok.1 ((entries_merged_record d hnodup hset).2 hkeep)
  have hassignments : m.entries.mapM (fun e => assignmentSql (some r.type) e.1 e.2)
      = .ok (r.columnValues.map fun p => [.name p.1, .text "=", .param p.2]) := by
    rw [hentries, Except.mapM_eq_ok, RecordRow.entries, List.forall₂_map_left_iff,
      List.forall₂_map_right_iff, List.forall₂_same]
    intro p _
    rfl
  exact render_eq_ok.2 ⟨herror, rfl, .table (.record { type := r.type }) none, _, m, _, [], [],
    rfl, rfl, hm, hassignments, rfl, rfl, rfl⟩

/-- The update of a record sets the columns of the row to the values of the row, if they stand for
themselves. -/
theorem assemble_record (herror : r.error = none) (hnodup : r.type.columns.Nodup)
    (hset : r.columnValues ≠ []) (hkeep : r.KeepsColumns) :
    (Command.update (build d [.record r])).assemble = .ok
      ⟨"UPDATE " ++ d.quoteTable (.name r.type.table) none r.type.schema ++ " SET "
          ++ String.intercalate ", " (r.columnValues.mapIdx fun i p =>
            d.quoteIdentifier p.1 ++ "=" ++ d.placeholder (i + 1)),
        r.values⟩ := by
  have hrender : (Command.update (build d [.record r])).render d = _ :=
    (congrArg (Update.render d) (map_record d _)).trans (render_record d herror hnodup hset hkeep)
  have hdialect : (Command.update (build d [.record r])).dialect = d := rfl
  have htable : d.spell (TableRef.mk r.type.schema (.name r.type.table) none).sql
      = d.quoteTable (.name r.type.table) none r.type.schema := rfl
  rw [Command.assemble_eq, hdialect, hrender, Except.map_ok, Dialect.spell]
  simp [Sql.spellAll_assignments, Sql.valuesAll_assignments, RecordRow.values, htable,
    String.append_assoc]

end Update

/-! ### Record instances -/

/-- What inserting a row of a record should be: the columns of the insert are those of the row, and
it assembles to the insert of the row's values into them. -/
def Insert.IsOfRow (d : Dialect) (r : RecordRow) : Prop :=
  let s : Insert Query := .build d [.record r]
  s.columns (some r.type) = .ok r.columns
    ∧ (Command.insert s).assemble = .ok
      ⟨"INSERT INTO " ++ d.quoteTable (.name r.type.table) none r.type.schema ++ " ("
          ++ String.intercalate ", " (r.columns.map d.quoteIdentifier) ++ ") VALUES ("
          ++ String.intercalate ", " (r.values.mapIdx fun i _ => d.placeholder (i + 1)) ++ ")",
        r.values⟩

/-- What an update to a row of a record should be: the update assigns the values of the row to its
columns, and it assembles to this assignment. -/
def Update.IsOfRow (d : Dialect) (r : RecordRow) : Prop :=
  let s : Update Query := .build d [.record r]
  (s.merged (some r.type)).map OrderedMap.entries
      = .ok (r.columnValues.map fun p => (p.1, .value p.2))
    ∧ (Command.update s).assemble = .ok
      ⟨"UPDATE " ++ d.quoteTable (.name r.type.table) none r.type.schema ++ " SET "
          ++ String.intercalate ", " (r.columnValues.mapIdx fun i p =>
            d.quoteIdentifier p.1 ++ "=" ++ d.placeholder (i + 1)),
        r.values⟩

/-- A record instance is written to its own columns, by an insert as by an update, exactly if no
attribute that is named like one of them has another column. -/
theorem RecordInstance.isOfRow_iff (d : Dialect) (r : RecordInstance)
    (hnames : ∀ c ∈ r.type.columns, c ≠ "" ∧ '\x00' ∉ c.toList) (hnodup : r.type.columns.Nodup)
    (herror : r.error = none) (hset : r.row.columnValues ≠ []) :
    (Insert.IsOfRow d r.row
        ↔ ∀ c ∈ r.row.columns, c = "*" ∨ ∀ q ∈ r.type.pairs, q.1 = c → q.2 = c)
    ∧ (Update.IsOfRow d r.row
        ↔ ∀ c ∈ r.row.columns, c = "*" ∨ ∀ q ∈ r.type.pairs, q.1 = c → q.2 = c) := by
  have hkeep : r.row.KeepsColumns
      ↔ ∀ c ∈ r.row.columns, c = "*" ∨ ∀ q ∈ r.type.pairs, q.1 = c → q.2 = c :=
    RecordRow.keepsColumns_iff hnames
  rw [← hkeep]
  constructor
  · constructor
    · rintro ⟨hcolumns, _⟩
      exact (Insert.columns_record d hnodup hset).1 hcolumns
    · intro h
      exact ⟨(Insert.columns_record d hnodup hset).2 h,
        Insert.assemble_record d herror hnodup hset h⟩
  · constructor
    · rintro ⟨hentries, _⟩
      exact (Update.entries_merged_record d hnodup hset).1 hentries
    · intro h
      exact ⟨(Update.entries_merged_record d hnodup hset).2 h,
        Update.assemble_record d herror hnodup hset h⟩

/-- An instance of a record whose attributes are named apart from the columns. -/
def RecordInstance.apart : RecordInstance :=
  { type := ({ table := "t" : RecordType }.declare "a" "x").declare "b" "y" : RecordInstance }.set
    "a" (.int 1)

theorem RecordInstance.isOfRow_apart :
    Insert.IsOfRow .generic apart.row ∧ Update.IsOfRow .generic apart.row := by
  have hnames : ∀ c ∈ apart.type.columns, c ≠ "" ∧ '\x00' ∉ c.toList := by decide
  have hnodup : apart.type.columns.Nodup := by decide
  have hset : apart.row.columnValues ≠ [] := List.cons_ne_nil _ _
  obtain ⟨hinsert, hupdate⟩ := isOfRow_iff .generic apart hnames hnodup rfl hset
  have happart : ∀ c ∈ apart.row.columns, c = "*" ∨ ∀ q ∈ apart.type.pairs, q.1 = c → q.2 = c := by
    decide
  exact ⟨hinsert.2 happart, hupdate.2 happart⟩

/-- An instance of a record with an attribute that is named like the column of another. -/
def RecordInstance.crossed : RecordInstance :=
  { type := ({ table := "t" : RecordType }.declare "a" "b").declare "b" "c" : RecordInstance }.set
    "a" (.int 1)

/-- The value of a column is inserted into another column. -/
theorem RecordInstance.not_isOfRow_crossed :
    (∀ c ∈ crossed.type.columns, c ≠ "" ∧ '\x00' ∉ c.toList) ∧ crossed.type.columns.Nodup
    ∧ crossed.error = none ∧ crossed.row.columnValues = [("b", .int 1)]
    ∧ (Command.insert (.build .generic [.record crossed.row])).assemble
      = .ok ⟨"INSERT INTO \"t\" (\"c\") VALUES (?)", [.int 1]⟩
    ∧ ¬ Insert.IsOfRow .generic crossed.row := by
  refine ⟨by decide, by decide, rfl, rfl, rfl, ?_⟩
  rintro ⟨hcolumns, _⟩
  have hactual : (Insert.build .generic [.record crossed.row] : Insert Query).columns
      (some crossed.row.type) = .ok ["c"] := rfl
  have heq : ["c"] = crossed.row.columns := Except.ok.inj (hactual.symm.trans hcolumns)
  exact absurd heq (by decide)

end SqlAssembly
