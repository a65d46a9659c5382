import SqlAssembly.Proofs.SetLists
import SqlAssembly.Proofs.Shown

/-!
# Statements on a record

An insert, an update or a delete on the table of a record takes the plain names in it for attributes
or columns of the record. A name that is neither makes the statement fail, and every other one is
written as the column that it stands for (`Command.assemble_on_record`). Two things are not looked
up: the name `*`, and whatever stands in the value of an assignment that is overridden.
-/

namespace SqlAssembly

variable {σ τ : Type} {d : Dialect} {owner : Option RecordType}

/-! ### Uses of plain names -/

/-- The name of a field, if it is a plain one that is not qualified. -/
def Field.plainName? (f : Field) : Option String :=
  match f.table, f.name with
  | none, .name n => some n
  | _, _ => none

/-- The use of a plain name in a statement on a record. -/
inductive NameUse where
  /-- A column of an insert: a field, or the name of a value in a row. -/
  | listed (name : String)
  /-- The column of an assignment. -/
  | assigned (name : String)
  /-- The field of a predicate. -/
  | filtered (name operator : String)
  /-- A field as a value. -/
  | operand (name : String)

namespace NameUse

def name : NameUse → String
  | listed n | assigned n | filtered n _ | operand n => n

/-- How the column is written that the name stands for. -/
def phrase (column : String) : NameUse → Sql
  | listed _ => [.name column]
  | assigned _ => [.name column, .text "="]
  | filtered _ operator => .column (.path [] column) none ::
      (if (Text.trim operator).isEmpty then [] else Predicate.spaced (Sql.text (Text.trim operator)))
  | operand _ => [.column (.path [] column) none]

theorem values_phrase (column : String) (u : NameUse) : (u.phrase column).values = [] := by
  cases u with
  | filtered n operator =>
    rw [phrase]
    split <;> rfl
  | _ => rfl

/-- Whether SQL shows the column that a name stands for, as it is written in this use. -/
def Stands (d : Dialect) (owner : Option RecordType) (sql : Sql) (u : NameUse) : Prop :=
  ∃ column, columnName owner u.name = .ok column ∧ sql.Shows d (u.phrase column)

theorem Stands.of_shows {u : NameUse} {whole sql : Sql} (h : whole.Shows d sql)
    (hu : u.Stands d owner sql) : u.Stands d owner whole := by
  obtain ⟨column, hcolumn, hshows⟩ := hu
  exact ⟨column, hcolumn, h.trans hshows⟩

end NameUse

def Operand.nameUses (o : Operand σ) : List NameUse :=
  (o.fields.filterMap Field.plainName?).map .operand

def Predicate.nameUses (p : Predicate σ) : List NameUse :=
  p.field.plainName?.toList.map (.filtered · p.operator) ++ p.operand.nameUses

def Condition.nameUses (c : Condition σ) : List NameUse := c.pending.flatMap Predicate.nameUses

def Insert.nameUses (s : Insert σ) : List NameUse :=
  (s.fields ++ s.rows.flatMap Row.names).map .listed
    ++ (s.rows.flatMap Row.operands).flatMap Operand.nameUses

/-- The uses of names in an update. Of the values given to a column the last one counts. -/
def Update.nameUses (s : Update σ) : List NameUse :=
  s.allAssignments.map (fun a => .assigned a.name) ++ s.winning.flatMap Operand.nameUses
    ++ s.filter.nameUses

def Delete.nameUses (s : Delete σ) : List NameUse := s.filter.nameUses

/-- The uses of plain names in a statement that has a target. -/
def Statement.nameUses : Statement → List NameUse
  | insert s => s.nameUses
  | update s => s.nameUses
  | delete s => s.nameUses
  | select _ | literal _ => []

/-- The record whose table is the target of a statement. -/
def Statement.targetRecord? : Statement → Option RecordType
  | insert s => s.target.bind Source.recordType?
  | update s => s.target.bind Source.recordType?
  | delete s => s.target.bind Source.recordType?
  | select _ | literal _ => none

/-! ### Fields and operands -/

theorem Identifier.asColumn_plain {n : String} {column : SqlName × Option String}
    (h : (name n).asColumn owner = .ok column) :
    ∃ c, column = (.name c, none) ∧ columnName owner n = .ok c := by
  suffices hname : ∃ c, column = (.name c, none) by
    obtain ⟨c, rfl⟩ := hname
    exact ⟨c, rfl, by rw [columnName, h]; rfl⟩
  obtain ⟨_, -, h⟩ := Except.bind_eq_ok.1 h
  cases owner with
  | none =>
    cases h
    exact ⟨n, rfl⟩
  | some r =>
    dsimp only at h
    split at h
    · cases h
      exact ⟨n, rfl⟩
    · obtain ⟨c, -, h⟩ := Except.bind_eq_ok.1 h
      cases h
      exact ⟨c, rfl⟩

theorem Field.sql_of_plainName? {f : Field} {n : String} (hn : f.plainName? = some n) {sql : Sql}
    (h : f.sql owner = .ok sql) :
    ∃ column, columnName owner n = .ok column ∧ sql = [.column (.path [] column) none] := by
  obtain ⟨table, name⟩ := f
  cases table with
  | some table => cases hn
  | none =>
    cases name with
    | name m =>
      obtain rfl : m = n := Option.some.inj hn
      obtain ⟨ref, href, h⟩ := Except.bind_eq_ok.1 h
      obtain ⟨column, hcolumn, href⟩ := Except.bind_eq_ok.1 href
      obtain ⟨c, rfl, hc⟩ := Identifier.asColumn_plain hcolumn
      cases href
      cases h
      exact ⟨c, hc, rfl⟩
    | _ => cases hn

theorem Operand.stands {o : Operand Rendered} {sql : Sql} (h : o.render owner = .ok (some sql)) :
    ∀ u ∈ o.nameUses, u.Stands d owner sql := by
  cases o with
  | field f =>
    obtain ⟨inner, hinner, h⟩ := Except.bind_eq_ok.1 h
    cases h
    cases hname : f.plainName? with
    | none => simp [nameUses, fields, hname]
    | some n =>
      obtain ⟨column, hcolumn, rfl⟩ := Field.sql_of_plainName? hname hinner
      simpa [nameUses, fields, hname] using ⟨column, hcolumn, Sql.Shows.refl _⟩
  | _ => simp [nameUses, fields]

/-! ### Conditions -/

theorem Predicate.stands {p : Predicate Rendered} {sql : Sql} (h : p.render d owner = .ok sql) :
    ∀ u ∈ p.nameUses, u.Stands d owner sql := by
  obtain ⟨_, -, h⟩ := Except.bind_eq_ok.1 h
  obtain ⟨field, hfield, h⟩ := Except.bind_eq_ok.1 h
  obtain ⟨operand, hoperand, h⟩ := Except.bind_eq_ok.1 h
  cases h
  refine List.forall_mem_append.2 ⟨List.forall_mem_map.2 fun n hn => ?_, fun u hu => ?_⟩
  · obtain ⟨column, hcolumn, rfl⟩ := Field.sql_of_plainName? (Option.mem_toList.1 hn) hfield
    refine ⟨column, hcolumn, ?_⟩
    rw [List.singleton_append, NameUse.phrase]
    exact Sql.shows_append_left _ _
  · cases operand with
    | none =>
      have hfields : p.operand.fields = [] := by
        have habsent := Operand.isNone_render hoperand
        cases hp : p.operand <;> simp_all [Operand.isAbsent, Operand.fields]
      simp [Operand.nameUses, hfields] at hu
    | some inner =>
      refine (Operand.stands hoperand u hu).of_shows ?_
      exact (Sql.shows_append_right _ _).trans (Sql.shows_append_right _ _)

/-- What is used in a condition stands where its predicates stand. -/
theorem Condition.stands {c : Condition Rendered} {sql : Sql}
    (h : c.ShownIn d owner sql) : ∀ u ∈ c.nameUses, u.Stands d owner sql := by
  refine List.forall_mem_flatMap.2 fun p hp u hu => ?_
  obtain ⟨part, hpart, hshows⟩ := h p hp
  exact (Predicate.stands hpart u hu).of_shows (hshows.trans (Sql.shows_enclosed _ _))

/-! ### Inserts -/

/-- Resolving assignments keeps their operands, each under the column that its name stands for. -/
theorem Assignment.forall₂_of_resolveAll {assignments : List (Assignment σ)}
    {es : List (String × Operand σ)} (h : resolveAll owner assignments = .ok es) :
    List.Forall₂ (fun a e => columnName owner a.name = .ok e.1 ∧ a.operand = e.2)
      assignments es := by
  refine (Except.mapM_eq_ok.1 h).imp fun a e he => ?_
  obtain ⟨column, hcolumn, he⟩ := Except.bind_eq_ok.1 he
  cases he
  exact ⟨hcolumn, rfl⟩

namespace Insert

/-- The names of a row that is ordered stand for columns of the insert. -/
theorem exists_column_of_orderRow {columns : List String} (hnodup : columns.Nodup) {number : Nat}
    {r : Row σ} {operands : List (Operand σ)}
    (h : orderRow owner columns number r = .ok operands) :
    ∀ n ∈ r.names, ∃ column ∈ columns, columnName owner n = .ok column := by
  cases r with
  | positional values => simp [Row.names]
  | named assignments =>
    obtain ⟨row, hrow, h⟩ := Except.bind_eq_ok.1 h
    split at h
    · cases h
    · rename_i hlength
      refine List.forall_mem_map.2 fun a ha => ?_
      obtain ⟨e, he, hcolumn, -⟩ :=
        exists_of_forall₂ (Assignment.forall₂_of_resolveAll hrow) a ha
      have hperm := perm_columns hnodup (not_not.1 hlength) h
      exact ⟨e.1, hperm.mem_iff.2 (List.mem_map_of_mem he), hcolumn⟩

/-- The names of all rows stand for columns of the insert. -/
theorem exists_column_of_rows {columns : List String} (hnodup : columns.Nodup) {number : Nat}
    {rows : List (Row σ)} {ordered : List (List (Operand σ))}
    (h : orderRows owner columns number rows = .ok ordered) :
    ∀ n ∈ rows.flatMap Row.names, ∃ column ∈ columns, columnName owner n = .ok column := by
  induction rows generalizing number ordered with
  | nil => simp
  | cons r rs ih =>
    obtain ⟨operands, hoperands, h⟩ := Except.bind_eq_ok.1 h
    obtain ⟨rest, hrest, h⟩ := Except.bind_eq_ok.1 h
    exact List.forall_mem_append.2 ⟨exists_column_of_orderRow hnodup hoperands, ih hrest⟩

theorem exists_column_of_fields {s : Insert σ} {columns : List String}
    (h : s.columns owner = .ok columns) :
    ∀ n ∈ s.fields, ∃ column ∈ columns, columnName owner n = .ok column := by
  have hgiven := (columns_eq_ok.1 h).1
  rw [givenColumns_eq, Except.mapM_eq_ok] at hgiven
  intro n hn
  have hnames : n ∈ s.givenNames := by
    unfold givenNames
    rwa [if_neg (by simpa using List.ne_nil_of_mem hn)]
  exact exists_of_forall₂ hgiven n hnames

/-- What is used in an insert stands in its SQL. -/
theorem stands {s : Insert Rendered} {sql : Sql} (h : s.render = .ok sql) :
    ∀ u ∈ s.nameUses, u.Stands d (s.target.bind Source.recordType?) sql := by
  refine List.forall_mem_append.2 ⟨List.forall_mem_map.2 fun n hn => ?_,
    List.forall_mem_flatMap.2 fun o ho u hu => ?_⟩
  · obtain ⟨-, source, target, columns, ordered, rows, returning, hsource, -, -, hcolumns, hordered,
      -, -, rfl⟩ := render_eq_ok.1 h
    have hlisted := List.forall_mem_append.2
      ⟨exists_column_of_fields hcolumns, exists_column_of_rows (nodup_columns hcolumns) hordered⟩
    obtain ⟨column, hmem, hcolumn⟩ := hlisted n hn
    rw [hsource, Option.bind_some]
    refine ⟨column, hcolumn, ?_⟩
    have hjoin : (Sql.join ", " (columns.map fun c => [Piece.name c])).Shows d [.name column] :=
      Sql.shows_join (List.mem_map_of_mem hmem)
    simp only [List.append_assoc]
    exact (Sql.shows_append_right _ _).trans <| (Sql.shows_append_right _ _).trans <|
      (Sql.shows_append_right _ _).trans <| (Sql.shows_append_left _ _).trans hjoin
  · obtain ⟨value, hvalue, hshows⟩ := shows_operands h o ho
    exact (Operand.stands hvalue u hu).of_shows hshows

end Insert

/-! ### Updates and deletes -/

/-- What is used in an update stands in its SQL. -/
theorem Update.stands {s : Update Rendered} {sql : Sql} (h : s.render d = .ok sql) :
    ∀ u ∈ s.nameUses, u.Stands d (s.target.bind Source.recordType?) sql := by
  have hfilter := Condition.stands (shows_filter h)
  obtain ⟨source, m, hsource, hm, hentries⟩ := shows_entries h
  have hwinning := winning_eq hsource hm
  rw [hsource, Option.bind_some] at hfilter ⊢
  refine List.forall_mem_append.2 ⟨List.forall_mem_append.2 ⟨List.forall_mem_map.2 fun a ha => ?_,
    List.forall_mem_flatMap.2 fun o ho u hu => ?_⟩, hfilter⟩
  · obtain ⟨positional, es, hpositional, hes, -, rfl⟩ := merged_eq_ok.1 hm
    rw [allAssignments, positionalAssignments_eq hpositional] at ha
    obtain ⟨e, he, hcolumn, -⟩ := exists_of_forall₂ (Assignment.forall₂_of_resolveAll hes) a ha
    have hkey := ((OrderedMap.isLatest_ofEntries es).mem_keys e.1).2 (List.mem_map_of_mem he)
    obtain ⟨latest, hlatest, hkey⟩ := List.mem_map.1 hkey
    obtain ⟨value, -, hshows⟩ := hentries latest hlatest
    rw [← hkey] at hcolumn
    exact ⟨latest.1, hcolumn, hshows.trans (Sql.shows_append_left _ _)⟩
  · rw [hwinning] at ho
    obtain ⟨e, he, rfl⟩ := List.mem_map.1 ho
    obtain ⟨value, hvalue, hshows⟩ := hentries e he
    exact (Operand.stands hvalue u hu).of_shows (hshows.trans (Sql.shows_append_right _ _))

/-- What is used in a delete stands in its SQL. -/
theorem Delete.stands {s : Delete Rendered} {sql : Sql} (h : s.render d = .ok sql) :
    ∀ u ∈ s.nameUses, u.Stands d (s.target.bind Source.recordType?) sql :=
  Condition.stands (shows_filter h)

/-! ### Changing the queries -/

section Map

variable (f : σ → τ)

@[simp] theorem Operand.nameUses_map (o : Operand σ) : (o.map f).nameUses = o.nameUses := by
  simp [nameUses]

@[simp] theorem Predicate.nameUses_map (p : Predicate σ) : (p.map f).nameUses = p.nameUses := by
  simp [nameUses, map]

@[simp] theorem Condition.nameUses_map (c : Condition σ) : (c.map f).nameUses = c.nameUses := by
  simp [nameUses, pending_map, List.flatMap_map]

theorem Insert.nameUses_map (s : Insert σ) : (s.map f).nameUses = s.nameUses := by
  have hoperands : (s.rows.flatMap fun r => r.operands.map (Operand.map f))
      = (s.rows.flatMap Row.operands).map (Operand.map f) :=
    List.map_flatMap.symm
  simp [nameUses, map, List.flatMap_map, Row.operands_map, hoperands]

theorem Update.nameUses_map (s : Update σ) : (s.map f).nameUses = s.nameUses := by
  unfold nameUses
  rw [winning_map, allAssignments_map]
  simp [map, List.flatMap_map, Assignment.map]

theorem Delete.nameUses_map (s : Delete σ) : (s.map f).nameUses = s.nameUses := by
  simp [nameUses, map]

end Map

/-! ### Statements -/

theorem Statement.stands {s : Statement} {sql : Sql} (h : s.render d = .ok sql) :
    ∀ u ∈ s.nameUses, u.Stands d s.targetRecord? sql := by
  cases s with
  | insert s =>
    have hstands := Insert.stands (d := d) h
    rw [Insert.nameUses_map] at hstands
    simp only [Insert.map, Source.recordType?_bind_map] at hstands
    exact hstands
  | update s =>
    have hstands := Update.stands h
    rw [Update.nameUses_map] at hstands
    simp only [Update.map, Source.recordType?_bind_map] at hstands
    exact hstands
  | delete s =>
    have hstands := Delete.stands h
    rw [Delete.nameUses_map] at hstands
    simp only [Delete.map, Source.recordType?_bind_map] at hstands
    exact hstands
  | select s | literal sql => simp [nameUses]

/-! ### Commands -/

namespace Command

open Update (renamedType)

/-- The SQL of a command shows that of each statement that it consists of. -/
theorem shows_parts {c : Command} {sql : Sql} (h : c.render d = .ok sql) :
    ∀ s ∈ c.parts, ∃ body, s.render d = .ok body ∧ sql.Shows d body := by
  cases c with
  | select s | insert s | update s | delete s =>
    exact List.forall_mem_singleton.2 ⟨sql, h, Sql.Shows.refl sql⟩
  | commonTables s =>
    obtain ⟨-, last, tables, body, hlast, htables, hbody, rfl⟩ := With.render_eq_ok.1 h
    refine List.forall_mem_append.2 ⟨List.forall_mem_map.2 fun t ht => ?_, ?_⟩
    · obtain ⟨part, hpart, htable⟩ := exists_of_forall₂ (Except.mapM_eq_ok.1 htables) t ht
      obtain ⟨_, -, htable⟩ := Except.bind_eq_ok.1 htable
      obtain ⟨_, -, htable⟩ := Except.bind_eq_ok.1 htable
      obtain ⟨inner, hinner, htable⟩ := Except.bind_eq_ok.1 htable
      cases htable
      refine ⟨inner, hinner, ?_⟩
      exact (Sql.shows_append_left _ _).trans <| (Sql.shows_append_left _ _).trans <|
        (Sql.shows_append_right _ _).trans <| (Sql.shows_join hpart).trans <|
        (Sql.shows_append_right _ _).trans (Sql.shows_parenthesized inner)
    · rw [hlast, Option.toList_some, List.forall_mem_singleton]
      exact ⟨body, hbody, Sql.shows_append_right _ _⟩

/-- In a statement on a record a name that is neither an attribute nor a column makes the command
fail; and if the command is assembled, then each name is written as the column that it stands
for. -/
theorem assemble_on_record {c : Command} {s : Statement} (hs : s ∈ c.parts) {r : RecordType}
    (hr : s.targetRecord? = some r) {u : NameUse} (hu : u ∈ s.nameUses) (hstar : u.name ≠ "*") :
    ((∀ p ∈ r.pairs, p.1 ≠ u.name ∧ p.2 ≠ u.name) → ∃ e, c.assemble = .error e)
    ∧ ∀ a, c.assemble = .ok a → ∃ column, r.column? u.name = some column
        ∧ ∃ before behind, a.sql = before ++ c.dialect.spell (u.phrase column) ++ behind := by
  have hassembled : ∀ a, c.assemble = .ok a → ∃ column, r.column? u.name = some column
      ∧ ∃ before behind, a.sql = before ++ c.dialect.spell (u.phrase column) ++ behind := by
    intro a ha
    obtain ⟨sql, hsql, rfl⟩ := (assemble_eq_ok rfl).1 ha
    obtain ⟨body, hbody, hshows⟩ := shows_parts hsql s hs
    obtain ⟨column, hcolumn, hphrase⟩ := Statement.stands hbody u hu
    rw [hr] at hcolumn
    refine ⟨column, RecordType.column?_of_columnName hstar hcolumn, ?_⟩
    exact (hshows.trans hphrase).exists_spell (u.values_phrase column) 0
  refine ⟨fun hunknown => ?_, hassembled⟩
  cases ha : c.assemble with
  | error e => exact ⟨e, rfl⟩
  | ok a =>
    obtain ⟨column, hcolumn, -⟩ := hassembled a ha
    simp [RecordType.column?_eq_none.2 hunknown] at hcolumn

/-- An update on a record under an alias, with a field as the value of an attribute. -/
def copying (f : String) : Update Query :=
  .build .postgres [.target (.table (.record { type := renamedType, alias? := some "x" }) none),
    .fields ["name"], .values [.field { name := .name f }],
    .filter (.add .and { name := .name "years" } "= 3" .absent)]

theorem assemble_copying :
    ((update (copying "age")).assemble
        = .ok ⟨"UPDATE \"t\" AS \"x\" SET \"full_name\"=\"years\" WHERE \"years\" = 3", []⟩
      ∧ ∃ column, renamedType.column? "name" = some column ∧ ∃ before behind,
        "UPDATE \"t\" AS \"x\" SET \"full_name\"=\"years\" WHERE \"years\" = 3"
          = before ++ Dialect.postgres.spell [.name column, .text "="] ++ behind)
    ∧ (∀ p ∈ renamedType.pairs, p.1 ≠ "height" ∧ p.2 ≠ "height")
      ∧ ∃ e, (update (copying "height")).assemble = .error e := by
  have hassemble : (update (copying "age")).assemble
      = .ok ⟨"UPDATE \"t\" AS \"x\" SET \"full_name\"=\"years\" WHERE \"years\" = 3", []⟩ := rfl
  have hunknown : ∀ p ∈ renamedType.pairs, p.1 ≠ "height" ∧ p.2 ≠ "height" := by decide
  have hpart (f : String) : Statement.update (copying f) ∈ (update (copying f)).parts :=
    List.mem_singleton_self _
  refine ⟨⟨hassemble, ?_⟩, hunknown, ?_⟩
  · exact (assemble_on_record (hpart "age") rfl (u := .assigned "name") (.head _) (by decide)).2
      _ hassemble
  · exact (assemble_on_record (hpart "height") rfl (u := .operand "height") (.tail _ (.head _))
      (by decide)).1 hunknown

/-- Rows for a column that is called `*`. -/
def starred : Insert Query :=
  .build .generic [.target (.table (.record { type := renamedType }) none), .fields ["*"],
    .row (.positional [.value (.int 1)])]

/-- An attribute that is given an unknown field first, and then a value. -/
def overridden : Update Query :=
  .build .generic [.target (.table (.record { type := renamedType }) none),
    .assign [⟨"name", .field { name := .name "height" }⟩, ⟨"name", .value (.int 3)⟩]]

/-- An unknown field that no value is for. -/
def unmatched : Update Query :=
  .build .generic [.target (.table (.record { type := renamedType }) none), .fields ["height"],
    .assign [⟨"name", .value (.int 3)⟩]]

/-- Names that are neither attributes nor columns pass where they are not looked up. -/
theorem assemble_unknown_names :
    (∀ p ∈ renamedType.pairs, (p.1 ≠ "*" ∧ p.2 ≠ "*") ∧ (p.1 ≠ "height" ∧ p.2 ≠ "height"))
    ∧ (starred.fields = ["*"]
      ∧ (insert starred).assemble = .ok ⟨"INSERT INTO \"t\" (\"*\") VALUES (?)", [.int 1]⟩)
    ∧ (⟨"name", .field { name := .name "height" }⟩ ∈ overridden.assignments
      ∧ (update overridden).assemble = .ok ⟨"UPDATE \"t\" SET \"full_name\"=?", [.int 3]⟩)
    ∧ unmatched.fields = ["height"]
      ∧ (update unmatched).assemble = .ok ⟨"UPDATE \"t\" SET \"full_name\"=?", [.int 3]⟩ :=
  ⟨by decide, ⟨rfl, rfl⟩, ⟨.head _, rfl⟩, rfl, rfl⟩

end Command

end SqlAssembly
