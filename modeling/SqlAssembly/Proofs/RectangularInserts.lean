import Mathlib.Data.List.Nodup
import SqlAssembly.Proofs.Building
import SqlAssembly.Proofs.RecordRows

/-!
# Inserts of rectangular data

An insert of bound values into a plain table can be assembled exactly if its rows fill its columns:
a row by position has as many values as there are columns, and the names of a row by name are the
columns in some order. Each value then stands under its column (`Insert.assemble_values`).
-/

namespace SqlAssembly

variable {σ τ : Type}

/-! ### The rows that are added -/

/-- The row that a call adds. -/
def InsertCall.row? : InsertCall σ → Option (Row σ)
  | .row r => some r
  | .record r => some (.named r.assignments)
  | .target _ | .fields _ | .returning _ => none

namespace Insert

theorem rows_apply (s : Insert σ) (call : InsertCall σ) :
    (s.apply call).rows = s.rows ++ call.row?.toList := by
  cases call <;> simp [apply, addRecord, InsertCall.row?, RecordRow.assignments]

/-- The rows are those of the calls, in call order. -/
theorem rows_build (d : Dialect) (calls : List (InsertCall σ)) :
    (build d calls).rows = calls.filterMap InsertCall.row? := by
  rw [List.filterMap_eq_flatMap_toList]
  exact (foldl_append rows rows_apply { dialect := d } calls).trans (List.nil_append _)

end Insert

/-! ### Rows of values -/

/-- A row of bound values, by position or by name. -/
inductive ValueRow where
  | positional (values : List Value)
  | named (entries : List (String × Value))

namespace ValueRow

/-- The row as it is given to an insert. -/
def toRow : ValueRow → Row σ
  | positional values => .positional (values.map .value)
  | named entries => .named (entries.map fun e => ⟨e.1, .value e.2⟩)

/-- The entries of a row by name. -/
def named? : ValueRow → Option (List (String × Value))
  | positional _ => none
  | named entries => some entries

/-- The names in a row. -/
def names : ValueRow → List String
  | positional _ => []
  | named entries => Entries.keys entries

/-- The columns that a field list and rows give: the field list or, if it is empty, the names of the
first row by name. -/
def columns (fields : List String) (rows : List ValueRow) : List String :=
  if fields = [] then Entries.keys ((rows.findSome? named?).getD []) else fields

/-- Whether a row gives each column one value, and nothing else. -/
def Fits (columns : List String) : ValueRow → Prop
  | positional values => values.length = columns.length
  | named entries => (Entries.keys entries).Perm columns

/-- Whether these are the values of a row in the order of the columns: those of a row by position as
they stand, and those of a row by name each under its column. -/
def IsTuple (columns : List String) : ValueRow → List Value → Prop
  | positional values, tuple => tuple.length = columns.length ∧ tuple = values
  | named entries, tuple => tuple.length = columns.length ∧ entries.Perm (columns.zip tuple)

/-- Whether rows fill columns: there are rows and distinct columns, and each row fits. -/
structure Fill (rows : List ValueRow) (columns : List String) : Prop where
  rows_ne_nil : rows ≠ []
  columns_ne_nil : columns ≠ []
  nodup : columns.Nodup
  fits : ∀ r ∈ rows, r.Fits columns

theorem IsTuple.length_eq {columns : List String} {r : ValueRow} {tuple : List Value}
    (h : r.IsTuple columns tuple) : tuple.length = columns.length := by
  cases r <;> exact h.1

theorem IsTuple.forall_length_eq {columns : List String} {rows : List ValueRow}
    {tuples : List (List Value)} (h : List.Forall₂ (IsTuple columns) rows tuples) :
    ∀ tuple ∈ tuples, tuple.length = columns.length := by
  induction h with
  | nil => simp
  | cons hr _ ih => exact List.forall_mem_cons.2 ⟨hr.length_eq, ih⟩

/-- A row fits exactly if its values can be put under the columns. -/
theorem fits_iff {columns : List String} {r : ValueRow} :
    r.Fits columns ↔ ∃ tuple, r.IsTuple columns tuple := by
  cases r with
  | positional values =>
    constructor
    · exact fun h => ⟨values, h, rfl⟩
    · rintro ⟨_, h, rfl⟩
      exact h
  | named entries =>
    constructor
    · intro h
      have hkeys : List.Forall₂ (fun c e => c = e.1) (Entries.keys entries) entries := by
        rw [Entries.keys, List.forall₂_map_left_iff, List.forall₂_same]
        exact fun _ _ => rfl
      obtain ⟨sorted, hsorted, hperm⟩ := List.perm_comp_forall₂ h.symm hkeys
      have hcolumns : columns = sorted.map Prod.fst := by
        rw [← List.forall₂_eq_eq_eq, List.forall₂_map_right_iff]
        exact hsorted
      refine ⟨sorted.map Prod.snd, by simp [hcolumns], ?_⟩
      rw [hcolumns, ← List.zip_of_prod rfl rfl]
      exact hperm.symm
    · rintro ⟨tuple, hlength, hperm⟩
      have hkeys := hperm.map Prod.fst
      rwa [List.map_fst_zip (Nat.le_of_eq hlength.symm)] at hkeys

/-- All rows fit exactly if the values of each can be put under the columns. -/
theorem forall_fits_iff {columns : List String} {rows : List ValueRow} :
    (∀ r ∈ rows, r.Fits columns) ↔ ∃ tuples, List.Forall₂ (IsTuple columns) rows tuples := by
  induction rows with
  | nil => simp
  | cons r rows ih =>
    rw [List.forall_mem_cons, fits_iff, ih]
    constructor
    · rintro ⟨⟨tuple, htuple⟩, tuples, htuples⟩
      exact ⟨tuple :: tuples, .cons htuple htuples⟩
    · rintro ⟨_, _ | ⟨htuple, htuples⟩⟩
      exact ⟨⟨_, htuple⟩, _, htuples⟩

/-- The first row by name is given as the first that is one. -/
theorem getD_findSome?_toRow (rows : List ValueRow) :
    ((rows.map toRow : List (Row σ)).findSome? Row.named?).getD []
      = ((rows.findSome? named?).getD []).map fun e => ⟨e.1, .value e.2⟩ := by
  induction rows with
  | nil => rfl
  | cons r rows ih =>
    cases r with
    | positional values => exact ih
    | named entries => rfl

theorem toRow_map (f : σ → τ) (r : ValueRow) : (r.toRow : Row σ).map f = r.toRow := by
  cases r <;> simp [toRow, Row.map, Assignment.map, Operand.map]

end ValueRow

/-! ### Putting values under columns -/

/-- Being related to the image of something, one by one, is being the image of something related. -/
theorem forall₂_exists_image {α β γ : Type} {R : α → β → Prop} {f : β → γ} {as : List α}
    {cs : List γ} :
    List.Forall₂ (fun a c => ∃ b, R a b ∧ c = f b) as cs
      ↔ ∃ bs, List.Forall₂ R as bs ∧ cs = bs.map f := by
  constructor
  · intro h
    induction h with
    | nil => exact ⟨[], .nil, rfl⟩
    | cons hac _ ih =>
      obtain ⟨b, hab, rfl⟩ := hac
      obtain ⟨bs, hbs, rfl⟩ := ih
      exact ⟨b :: bs, .cons hab hbs, rfl⟩
  · rintro ⟨bs, hbs, rfl⟩
    rw [List.forall₂_map_right_iff]
    exact hbs.imp fun a b hab => ⟨b, hab, rfl⟩

/-- Entries that are as many as the columns, with a value found for each column, are the columns
with these values. -/
theorem Entries.forall₂_find?_iff {α : Type} {columns : List String} {es : List (String × α)}
    {values : List α} (hnodup : columns.Nodup) (hlength : es.length = columns.length) :
    List.Forall₂ (fun c v => es.find? (fun e => e.1 == c) = some (c, v)) columns values
      ↔ values.length = columns.length ∧ es.Perm (columns.zip values) := by
  constructor
  · intro h
    have hzip : (columns.zip values).map Prod.fst = columns :=
      List.map_fst_zip (Nat.le_of_eq h.length_eq)
    have hsubset : columns.zip values ⊆ es := by
      rintro ⟨c, v⟩ hcv
      exact List.mem_of_find?_eq_some ((List.forall₂_iff_zip.1 h).2 hcv)
    have hnodup : (columns.zip values).Nodup := List.Nodup.of_map Prod.fst (hzip.symm ▸ hnodup)
    have hle : es.length ≤ (columns.zip values).length := by
      simp [hlength, h.length_eq]
    exact ⟨h.length_eq.symm, ((hnodup.subperm hsubset).perm_of_length_le hle).symm⟩
  · rintro ⟨hvalues, hperm⟩
    have hzip : (columns.zip values).map Prod.fst = columns :=
      List.map_fst_zip (Nat.le_of_eq hvalues.symm)
    have hkeys : (keys es).Nodup := ((hperm.map Prod.fst).trans (.of_eq hzip)).nodup_iff.2 hnodup
    refine List.forall₂_iff_zip.2 ⟨hvalues.symm, fun {c v} hcv => ?_⟩
    rw [← List.head?_filter, filter_key_eq hkeys (hperm.mem_iff.2 hcv)]
    rfl

namespace Insert

open ValueRow

theorem resolveAll_named {entries : List (String × Value)}
    (hnames : ∀ name ∈ Entries.keys entries, WellFormedName name) :
    Assignment.resolveAll none (entries.map fun e => ⟨e.1, .value e.2⟩)
      = .ok (Entries.map Operand.value entries : List (String × Operand σ)) := by
  rw [Assignment.resolveAll, Except.mapM_eq_ok, Entries.map, List.forall₂_map_left_iff,
    List.forall₂_map_right_iff, List.forall₂_same]
  intro e he
  simp [columnName_none (hnames e.1 (List.mem_map_of_mem he))]

theorem operandFor_value {number : Nat} {entries : List (String × Value)} {column : String}
    {operand : Operand σ} :
    operandFor number (Entries.map Operand.value entries) column = .ok operand
      ↔ ∃ v, entries.find? (fun e => e.1 == column) = some (column, v) ∧ operand = .value v := by
  have hfind : (Entries.map Operand.value entries : List (String × Operand σ)).find?
      (fun e => e.1 == column)
        = (entries.find? fun e => e.1 == column).map fun e => (e.1, .value e.2) := by
    rw [Entries.map, List.find?_map]
    rfl
  rw [operandFor, hfind]
  cases h : entries.find? fun e => e.1 == column with
  | none => simp
  | some e =>
    have he : e.1 = column := by simpa using List.find?_some h
    simp only [Option.map_some, Except.ok.injEq, Option.some.injEq]
    constructor
    · rintro rfl
      exact ⟨e.2, Prod.ext he rfl, rfl⟩
    · rintro ⟨v, rfl, rfl⟩
      rfl

/-- A row of values can be ordered exactly if its values can be put under the columns. -/
theorem orderRow_toRow {columns : List String} (hnodup : columns.Nodup) {number : Nat}
    {r : ValueRow} (hnames : ∀ name ∈ r.names, WellFormedName name)
    {operands : List (Operand σ)} :
    orderRow none columns number r.toRow = .ok operands
      ↔ ∃ tuple, r.IsTuple columns tuple ∧ operands = tuple.map .value := by
  cases r with
  | positional values =>
    by_cases hlength : values.length = columns.length
    · simp [orderRow, toRow, IsTuple, hlength, eq_comm]
    · simp [orderRow, toRow, IsTuple, hlength]
  | named entries =>
    have hresolved := resolveAll_named (σ := σ) hnames
    by_cases hlength : entries.length = columns.length
    · have hfound : columns.mapM (operandFor number (Entries.map Operand.value entries))
          = .ok operands
          ↔ ∃ tuple, List.Forall₂ (fun c v => entries.find? (fun e => e.1 == c) = some (c, v))
              columns tuple ∧ operands = tuple.map .value := by
        simp only [Except.mapM_eq_ok, operandFor_value]
        exact forall₂_exists_image
      simp [orderRow, toRow, hresolved, Entries.map, hlength, IsTuple] at hfound ⊢
      rw [hfound]
      simp only [Entries.forall₂_find?_iff hnodup hlength]
    · have hne (tuple : List Value) : ¬ IsTuple columns (.named entries) tuple := by
        rintro ⟨htuple, hperm⟩
        exact hlength (by simp [hperm.length_eq, htuple])
      simp [orderRow, toRow, hresolved, Entries.map, hlength, hne]

/-- Rows of values can be ordered exactly if the values of each can be put under the columns. -/
theorem orderRows_toRow {columns : List String} (hnodup : columns.Nodup) {number : Nat}
    {rows : List ValueRow} (hnames : ∀ r ∈ rows, ∀ name ∈ r.names, WellFormedName name)
    {ordered : List (List (Operand σ))} :
    orderRows none columns number (rows.map toRow) = .ok ordered
      ↔ ∃ tuples, List.Forall₂ (IsTuple columns) rows tuples
          ∧ ordered = tuples.map (List.map .value) := by
  induction rows generalizing number ordered with
  | nil => simp [orderRows, eq_comm]
  | cons r rows ih =>
    obtain ⟨hr, hrows⟩ := List.forall_mem_cons.1 hnames
    simp only [List.map_cons, orderRows, Except.bind_eq_ok, orderRow_toRow hnodup hr, ih hrows,
      Except.pure_eq, Except.ok.injEq]
    constructor
    · rintro ⟨_, ⟨tuple, htuple, rfl⟩, _, ⟨tuples, htuples, rfl⟩, rfl⟩
      exact ⟨tuple :: tuples, .cons htuple htuples, rfl⟩
    · rintro ⟨_, _ | ⟨htuple, htuples⟩, rfl⟩
      exact ⟨_, ⟨_, htuple, rfl⟩, _, ⟨_, htuples, rfl⟩, rfl⟩

/-- The columns of an insert of rows of values, read without a record. -/
theorem givenColumns_toRow {s : Insert σ} {rows : List ValueRow}
    (hrows : s.rows = rows.map toRow)
    (hnames : WellFormedNames (ValueRow.columns s.fields rows)) :
    s.givenColumns none = .ok (ValueRow.columns s.fields rows) := by
  have hgiven := mapM_columnName_none hnames
  rw [ValueRow.columns] at hgiven ⊢
  by_cases hfields : s.fields = []
  · rw [if_pos hfields, Entries.keys, List.mapM_map] at hgiven
    simp only [givenColumns, hfields, List.isEmpty_nil, if_true]
    rw [hrows, getD_findSome?_toRow, List.mapM_map]
    exact hgiven
  · rw [if_neg hfields] at hgiven
    simpa [givenColumns, hfields] using hgiven

/-! ### Rendering -/

/-- The values of a row between parentheses. -/
def tupleSql (tuple : List Value) : Sql :=
  Sql.parenthesized (Sql.join ", " (tuple.map fun v => [.param v]))

theorem rowsSql_tuples (owner : Option RecordType) (columns : List String) (number : Nat)
    {tuples : List (List Value)} (hlength : ∀ tuple ∈ tuples, tuple.length = columns.length) :
    rowsSql owner columns number (tuples.map (List.map .value)) = .ok (tuples.map tupleSql) := by
  induction tuples generalizing number with
  | nil => rfl
  | cons tuple tuples ih =>
    obtain ⟨htuple, htuples⟩ := List.forall_mem_cons.1 hlength
    simp [rowsSql, valuesSql_values owner number htuple, ih (number + 1) htuples, tupleSql]

theorem valuesAll_tuples (tuples : List (List Value)) :
    Sql.valuesAll (tuples.map tupleSql) = tuples.flatten := by
  induction tuples with
  | nil => rfl
  | cons tuple tuples ih =>
    simp [ih, tupleSql, Sql.parenthesized, Sql.valuesAll_params]

/-- Rows of the same length are spelled with consecutive placeholders. -/
theorem spellAll_tuples {d : Dialect} {n : Nat} {tuples : List (List Value)}
    (hlength : ∀ tuple ∈ tuples, tuple.length = n) (k : Nat) :
    Sql.spellAll d k (tuples.map tupleSql)
      = tuples.mapIdx fun i tuple => "(" ++ String.intercalate ", "
          (tuple.mapIdx fun j _ => d.placeholder (k + i * n + j + 1)) ++ ")" := by
  induction tuples generalizing k with
  | nil => rfl
  | cons tuple tuples ih =>
    obtain ⟨htuple, htuples⟩ := List.forall_mem_cons.1 hlength
    have hplace (i j : Nat) : k + n + i * n + j + 1 = k + (i + 1) * n + j + 1 := by
      rw [Nat.succ_mul]
      omega
    simp [ih htuples, tupleSql, Sql.parenthesized, Sql.spellAll_params, Sql.valuesAll_params,
      List.mapIdx_cons, htuple, hplace, String.append_assoc]

/-- The columns are among the field list and the names in the rows. -/
theorem wellFormedName_columns {fields : List String} {rows : List ValueRow}
    (hnames : ∀ name ∈ fields ++ rows.flatMap ValueRow.names, WellFormedName name) :
    ∀ name ∈ ValueRow.columns fields rows, WellFormedName name := by
  intro name hname
  refine hnames name (List.mem_append.2 ?_)
  rw [ValueRow.columns] at hname
  split at hname
  · refine .inr (List.mem_flatMap.2 ?_)
    cases hfirst : rows.findSome? named? with
    | none => simp [hfirst] at hname
    | some entries =>
      obtain ⟨r, hr, hentries⟩ := List.exists_of_findSome?_eq_some hfirst
      refine ⟨r, hr, ?_⟩
      cases r with
      | positional values => simp [named?] at hentries
      | named es =>
        cases hentries
        simpa [hfirst, names] using hname
  · exact .inl hname

theorem asTarget_name {table : String} (h : WellFormedName table) (kind : StatementKind) :
    (Source.table (.name table) none : Source σ).asTarget kind
      = .ok { schema := none, table := .name table, alias? := none } := by
  simp [Source.asTarget, Identifier.asTable, checkName_eq_ok.2 h]

theorem render_values {s : Insert Rendered} {table : String} {rows : List ValueRow} {sql : Sql}
    (htarget : s.target = some (.table (.name table) none)) (hdeferred : s.deferred = none)
    (hreturning : s.returning = none) (hrows : s.rows = rows.map toRow)
    (hnames : ∀ name ∈ table :: s.fields ++ rows.flatMap ValueRow.names, WellFormedName name) :
    s.render = .ok sql ↔ Fill rows (ValueRow.columns s.fields rows)
      ∧ ∃ tuples, List.Forall₂ (IsTuple (ValueRow.columns s.fields rows)) rows tuples
        ∧ sql = Sql.text "INSERT INTO " ++ [.name table] ++ Sql.text " ("
            ++ Sql.join ", " ((ValueRow.columns s.fields rows).map fun c => [Piece.name c])
            ++ Sql.text ") VALUES " ++ Sql.join ", " (tuples.map tupleSql) := by
  obtain ⟨htable, hfields⟩ := List.forall_mem_cons.1 hnames
  have hgiven := givenColumns_toRow hrows (wellFormedName_columns hfields)
  have hrownames : ∀ r ∈ rows, ∀ name ∈ r.names, WellFormedName name := fun r hr name hname =>
    hfields name (List.mem_append_right _ (List.mem_flatMap.2 ⟨r, hr, hname⟩))
  rw [render_eq_ok]
  generalize ValueRow.columns s.fields rows = columns at hgiven ⊢
  constructor
  · rintro ⟨_, source, target, columns', ordered, parts, returning, hsource, htargetSql, hne,
      hcolumns, hordered, hparts, hreturningSql, rfl⟩
    obtain rfl : _ = source := Option.some.inj (htarget.symm.trans hsource)
    rw [asTarget_name htable] at htargetSql
    cases htargetSql
    obtain ⟨hcolumns, hcolumnsNe, hnodup⟩ := columns_eq_ok.1 hcolumns
    obtain rfl : columns = columns' := Except.ok.inj (hgiven.symm.trans hcolumns)
    rw [hrows] at hordered hne
    obtain ⟨tuples, htuples, rfl⟩ := (orderRows_toRow hnodup hrownames).1 hordered
    rw [rowsSql_tuples _ _ _ (IsTuple.forall_length_eq htuples)] at hparts
    cases hparts
    rw [hreturning] at hreturningSql
    cases hreturningSql
    refine ⟨⟨by simpa using hne, hcolumnsNe, hnodup, forall_fits_iff.2 ⟨tuples, htuples⟩⟩,
      tuples, htuples, ?_⟩
    simp [TableRef.sql, tableSql, aliasSql]
  · rintro ⟨hfill, tuples, htuples, rfl⟩
    refine ⟨hdeferred, _, _, columns, _, _, [], htarget, asTarget_name htable _, ?_,
      columns_eq_ok.2 ⟨hgiven, hfill.columns_ne_nil, hfill.nodup⟩, ?_,
      rowsSql_tuples _ _ _ (IsTuple.forall_length_eq htuples), ?_, ?_⟩
    · simpa [hrows] using hfill.rows_ne_nil
    · rw [hrows]
      exact (orderRows_toRow hfill.nodup hrownames).2 ⟨tuples, htuples, rfl⟩
    · rw [hreturning]
      rfl
    · simp [TableRef.sql, tableSql, aliasSql]

/-- An insert of bound values into a plain table can be assembled exactly if its rows fill its
columns. Its rows are then written in call order, each with its values in the order of the columns,
and nothing else is bound. The rows of records count as rows by name; only these can bring an
error. -/
theorem assemble_values (d : Dialect) (calls : List (InsertCall Query)) {table : String}
    {rows : List ValueRow} (htarget : (build d calls).target = some (.table (.name table) none))
    (hdeferred : (build d calls).deferred = none) (hreturning : (build d calls).returning = none)
    (hrows : calls.filterMap InsertCall.row? = rows.map toRow)
    (hnames : ∀ name ∈ table :: (build d calls).fields ++ rows.flatMap ValueRow.names,
      WellFormedName name) :
    let columns := ValueRow.columns (build d calls).fields rows
    ((∃ a, (Command.insert (build d calls)).assemble = .ok a) ↔ Fill rows columns)
    ∧ ∀ a, (Command.insert (build d calls)).assemble = .ok a →
      ∃ tuples, List.Forall₂ (IsTuple columns) rows tuples
        ∧ a.values = tuples.flatten
        ∧ a.sql = "INSERT INTO " ++ d.quoteIdentifier table ++ " ("
            ++ String.intercalate ", " (columns.map d.quoteIdentifier) ++ ") VALUES "
            ++ String.intercalate ", " (tuples.mapIdx fun i tuple => "(" ++ String.intercalate ", "
                (tuple.mapIdx fun j _ => d.placeholder (i * columns.length + j + 1)) ++ ")") := by
  dsimp only
  have hmapped : ((build d calls).map (Query.render d)).rows = rows.map toRow := by
    simp [map, rows_build, hrows, toRow_map, Function.comp_def]
  have hfields : ((build d calls).map (Query.render d)).fields = (build d calls).fields := rfl
  have hmappedTarget : ((build d calls).map (Query.render d)).target
      = some (.table (.name table) none) := by
    simp [map, htarget, Source.map]
  have hrender {sql : Sql} := @render_values ((build d calls).map (Query.render d)) table rows sql
    hmappedTarget hdeferred hreturning hmapped hnames
  have hassemble {a : Assembled} := Command.assemble_eq_ok (a := a)
    (c := .insert (build d calls)) (dialect_build d calls)
  constructor
  · constructor
    · rintro ⟨a, ha⟩
      obtain ⟨sql, hsql, _⟩ := hassemble.1 ha
      exact (hrender.1 hsql).1
    · intro hfill
      obtain ⟨tuples, htuples⟩ := forall_fits_iff.1 hfill.fits
      exact ⟨_, hassemble.2 ⟨_, hrender.2 ⟨hfill, tuples, htuples, rfl⟩, rfl⟩⟩
  · intro a ha
    obtain ⟨sql, hsql, rfl⟩ := hassemble.1 ha
    obtain ⟨_, tuples, htuples, rfl⟩ := hrender.1 hsql
    have hlength := IsTuple.forall_length_eq htuples
    refine ⟨tuples, htuples, ?_, ?_⟩
    · simp [valuesAll_tuples, Sql.values_cons, Piece.values]
    · simp [Dialect.spell, spellAll_tuples hlength, Piece.spell, Piece.values, hfields,
        String.append_assoc]

/-- Calls that add rows to the columns of the first row by name, which is not the first row. -/
def reordered : List (InsertCall Query) :=
  [.target (.table (.name "t") none), .row (.positional [.value (.int 1), .value (.int 2)]),
    .row (.named [⟨"b", .value (.int 3)⟩, ⟨"a", .value (.int 4)⟩]),
    .row (.named [⟨"a", .value (.int 5)⟩, ⟨"b", .value (.int 6)⟩])]

theorem assemble_values_reordered :
    let rows : List ValueRow := [.positional [.int 1, .int 2],
      .named [("b", .int 3), ("a", .int 4)], .named [("a", .int 5), ("b", .int 6)]]
    let values : List Value := [.int 1, .int 2, .int 3, .int 4, .int 6, .int 5]
    (Command.insert (build .generic reordered)).assemble
      = .ok ⟨"INSERT INTO \"t\" (\"b\", \"a\") VALUES (?, ?), (?, ?), (?, ?)", values⟩
    ∧ Fill rows ["b", "a"]
    ∧ ∃ tuples, List.Forall₂ (IsTuple ["b", "a"]) rows tuples ∧ values = tuples.flatten := by
  intro rows values
  have hnames : ∀ name ∈ "t" :: ((build .generic reordered : Insert Query).fields)
      ++ rows.flatMap ValueRow.names, WellFormedName name := by decide
  obtain ⟨hfill, htuples⟩ := @assemble_values .generic reordered "t" rows rfl rfl rfl rfl hnames
  have hassemble : (Command.insert (build .generic reordered)).assemble
      = .ok ⟨"INSERT INTO \"t\" (\"b\", \"a\") VALUES (?, ?), (?, ?), (?, ?)", values⟩ := rfl
  obtain ⟨tuples, htuple, hvalues, _⟩ := htuples _ hassemble
  exact ⟨hassemble, hfill.1 ⟨_, hassemble⟩, tuples, htuple, hvalues⟩

end Insert

end SqlAssembly
