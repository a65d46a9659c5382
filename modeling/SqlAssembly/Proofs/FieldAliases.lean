import SqlAssembly.Proofs.Shown
import SqlAssembly.Proofs.Writing.Statement

/-!
# Fields under an alias

Where a statement shows a field it shows the reference to its column: in a predicate, as a value, in
the `GROUP BY` and the `ORDER BY` clause. If the name of the field is wrapped in an alias then
` AS ` and this alias follow the reference, also where no alias can be declared
(`Statement.shows_fields`). The sides of a join condition are references alone
(`BoundJoin.ConditionText`).
-/

namespace SqlAssembly

variable {σ τ : Type} {d : Dialect} {owner : Option RecordType}

/-! ### How a field is written -/

/-- The alias that an identifier is wrapped in, the outermost of several. -/
def Identifier.alias? : Identifier → Option String
  | aliased _ aliasName => some aliasName
  | name _ | literal _ | record _ => none

/-- The reference to the column of a field in a statement on the given record. -/
def Field.reference (d : Dialect) (owner : Option RecordType) (f : Field) :
    Except SqlError String := do
  let ref ← f.resolve owner
  d.quoteColumn ref.name none ref.table ref.schema

/-- How a field is written: as its reference, with the alias behind it that its name is wrapped
in. -/
inductive Field.WrittenAs (d : Dialect) (owner : Option RecordType) (f : Field) : String → Prop
  | plain {reference : String} (hreference : f.reference d owner = .ok reference)
      (halias : f.name.alias? = none) : WrittenAs d owner f reference
  | aliased {reference aliasName : String} (hreference : f.reference d owner = .ok reference)
      (halias : f.name.alias? = some aliasName) :
      WrittenAs d owner f (reference ++ " AS " ++ d.quoteIdentifier aliasName)

theorem Identifier.alias?_of_asColumn {i : Identifier} {column : SqlName × Option String}
    (h : i.asColumn owner = .ok column) : column.2 = i.alias? := by
  cases i with
  | record t => cases h
  | literal sql =>
    cases h
    rfl
  | aliased base aliasName =>
    obtain ⟨_, -, h⟩ := Except.bind_eq_ok.1 h
    obtain ⟨_, -, h⟩ := Except.bind_eq_ok.1 h
    cases h
    rfl
  | name n =>
    obtain ⟨c, rfl⟩ : ∃ c, column = (.name c, none) := by
      obtain ⟨_, -, h⟩ := Except.bind_eq_ok.1 h
      cases owner with
      | none =>
        cases h
        exact ⟨n, rfl⟩
      | some r =>
        dsimp only at h
        split at h
        · cases h
          exact ⟨n, rfl⟩
        · obtain ⟨c, -, h⟩ := Except.bind_eq_ok.1 h
          cases h
          exact ⟨c, rfl⟩
    rfl

theorem Field.alias?_of_resolve {f : Field} {ref : FieldRef} (h : f.resolve owner = .ok ref) :
    ref.alias? = f.name.alias? := by
  unfold resolve at h
  split at h
  · obtain ⟨_, -, h⟩ := Except.bind_eq_ok.1 h
    obtain ⟨column, hcolumn, h⟩ := Except.bind_eq_ok.1 h
    cases h
    exact Identifier.alias?_of_asColumn hcolumn
  · obtain ⟨column, hcolumn, h⟩ := Except.bind_eq_ok.1 h
    cases h
    exact Identifier.alias?_of_asColumn hcolumn

namespace Field

theorem writtenAs_of_sql {f : Field} {sql : Sql} (h : f.sql owner = .ok sql) :
    f.WrittenAs d owner (d.spell sql) := by
  obtain ⟨ref, href, h⟩ := Except.bind_eq_ok.1 h
  have halias := alias?_of_resolve href
  have hreference : f.reference d owner
      = .ok ((ColumnExpr.ofName ref.name ref.table ref.schema).spell d) := by
    rw [reference, href]
    simp [Dialect.quoteColumn, columnSql, Dialect.spell, Piece.spell]
  cases hname : ref.alias? with
  | none =>
    rw [hname] at halias
    simp only [FieldRef.sql, hname, Option.map_none, columnSql, Except.ok.injEq] at h
    subst h
    simpa [Dialect.spell, Piece.spell] using WrittenAs.plain hreference halias.symm
  | some aliasName =>
    rw [hname] at halias
    simp only [FieldRef.sql, hname, Option.map_some, columnSql, Except.ok.injEq] at h
    subst h
    simpa [Dialect.spell, Piece.spell, Piece.values, aliasSql, String.append_assoc]
      using WrittenAs.aliased hreference halias.symm

/-- A field is written as its reference exactly if its name is not wrapped in an alias. -/
theorem WrittenAs.eq_reference_iff {f : Field} {text : String} (h : f.WrittenAs d owner text) :
    f.reference d owner = .ok text ↔ f.name.alias? = none := by
  cases h with
  | plain hreference halias => exact iff_of_true hreference halias
  | @aliased reference aliasName hreference halias =>
    refine iff_of_false (fun h => ?_) (by simp [halias])
    -- a text is shorter than itself with an alias behind it
    have hlength := congrArg String.length (Except.ok.inj (hreference.symm.trans h))
    have hmark : " AS ".length = 4 := rfl
    simp only [String.length_append] at hlength
    omega

end Field

/-! ### Where a statement shows fields -/

/-- A place where a statement shows fields: what stands before them, and each with the text right
behind it. Unqualified fields belong to the owner. -/
structure FieldUse where
  owner : Option RecordType
  before : String := ""
  fields : List (Field × String)
  separator : String := ""

namespace FieldUse

/-- The text of the place, if its fields are written in the given way. -/
def text (u : FieldUse) (shown : List String) : String :=
  u.before ++ u.separator.intercalate (List.zipWith (fun f t => t ++ f.2) u.fields shown)

/-- Whether SQL has the text of a place, with each field as it is written. -/
def Stands (d : Dialect) (sql : Sql) (u : FieldUse) : Prop :=
  ∃ shown part, List.Forall₂ (fun f t => f.1.WrittenAs d u.owner t) u.fields shown
    ∧ Sql.values part = [] ∧ d.spell part = u.text shown ∧ sql.Shows d part

theorem Stands.of_shows {u : FieldUse} {whole sql : Sql} (h : whole.Shows d sql)
    (hu : u.Stands d sql) : u.Stands d whole := by
  obtain ⟨shown, part, hshown, hvalues, htext, hshows⟩ := hu
  exact ⟨shown, part, hshown, hvalues, htext, h.trans hshows⟩

/-- A field as it is rendered, with the text right behind it. -/
def IsPart (d : Dialect) (owner : Option RecordType) (f : Field × String) (part : Sql) : Prop :=
  ∃ sql, f.1.sql owner = .ok sql ∧ part.values = [] ∧ d.spell part = d.spell sql ++ f.2

theorem exists_shown {fields : List (Field × String)} {parts : List Sql}
    (h : List.Forall₂ (IsPart d owner) fields parts) :
    ∃ shown, List.Forall₂ (fun f t => f.1.WrittenAs d owner t) fields shown
      ∧ parts.map d.spell = List.zipWith (fun f t => t ++ f.2) fields shown
      ∧ Sql.valuesAll parts = [] := by
  induction h with
  | nil => exact ⟨[], .nil, rfl, rfl⟩
  | cons hpart _ ih =>
    obtain ⟨sql, hsql, hvalues, hspell⟩ := hpart
    obtain ⟨shown, hshown, hparts, hrest⟩ := ih
    exact ⟨d.spell sql :: shown, .cons (Field.writtenAs_of_sql hsql) hshown,
      by simp [hspell, hparts], by simp [hvalues, hrest]⟩

theorem stands_of_parts {u : FieldUse} {parts : List Sql} {before : Sql}
    (hbefore : before.values = []) (htext : d.spell before = u.before)
    (h : List.Forall₂ (IsPart d u.owner) u.fields parts) :
    u.Stands d (before ++ Sql.join u.separator parts) := by
  obtain ⟨shown, hshown, hparts, hvalues⟩ := exists_shown h
  refine ⟨shown, _, hshown, by simp [hbefore, hvalues], ?_, Sql.Shows.refl _⟩
  rw [text, ← hparts, ← htext, Dialect.spell, Sql.spell_append, Sql.spell_join,
    Sql.spellAll_of_valuesAll_eq_nil hvalues, Dialect.spell]

/-- The place of a single field. -/
def single (owner : Option RecordType) (before : String) (f : Field) (behind : String) : FieldUse :=
  { owner, before, fields := [(f, behind)] }

theorem stands_single {f : Field} (before behind : Sql) {sql : Sql}
    (hbefore : before.values = []) (hbehind : behind.values = []) (h : f.sql owner = .ok sql) :
    (single owner (d.spell before) f (d.spell behind)).Stands d (before ++ sql ++ behind) := by
  have hvalues := Field.values_sql h
  have hpart : IsPart d owner (f, d.spell behind) (sql ++ behind) := by
    refine ⟨sql, h, by simp [hvalues, hbehind], ?_⟩
    simp [Dialect.spell, hvalues]
  have hstands := stands_of_parts (u := single owner (d.spell before) f (d.spell behind)) hbefore
    rfl (.cons hpart .nil)
  simpa [Sql.join, single] using hstands

end FieldUse

/-- The places of fields in an operand, between two texts. -/
def Operand.fieldUses (owner : Option RecordType) (before behind : String) (o : Operand σ) :
    List FieldUse :=
  o.fields.map (.single owner before · behind)

/-- The operator of a predicate behind a blank; a blank operator is not shown. -/
def Predicate.operatorSql (p : Predicate σ) : Sql :=
  if (Text.trim p.operator).isEmpty then [] else spaced (Sql.text (Text.trim p.operator))

def Predicate.operatorText (p : Predicate σ) : String :=
  if (Text.trim p.operator).isEmpty then "" else " " ++ Text.trim p.operator

/-- The places of fields in a predicate between its marks: its field with the operator, and a field
as its operand. -/
def Predicate.fieldUses (owner : Option RecordType) (marks : String × String) (p : Predicate σ) :
    List FieldUse :=
  .single owner marks.1 p.field p.operatorText :: p.operand.fieldUses owner " " marks.2

def Condition.fieldUses (owner : Option RecordType) (c : Condition σ) : List FieldUse :=
  c.pending.flatMap (Predicate.fieldUses owner c.style.predicateMarks)

/-- The place of the fields that a select groups by. -/
def Select.groupUses : List Field → List FieldUse
  | [] => []
  | fields => [{ owner := none, before := "GROUP BY ", fields := fields.map (·, "")
                 separator := ", " }]

/-- The place of the fields that a select orders by. -/
def Select.orderUses : List (Field × Direction) → List FieldUse
  | [] => []
  | fields => [{ owner := none, before := "ORDER BY "
                 fields := fields.map fun (f, direction) => (f, " " ++ direction.keyword)
                 separator := "," }]

def Select.fieldUses (s : Select σ) : List FieldUse :=
  s.filter.fieldUses s.target ++ groupUses s.groupBy ++ s.having.fieldUses none
    ++ orderUses s.orderBy

def Insert.fieldUses (s : Insert σ) : List FieldUse :=
  (s.rows.flatMap Row.operands).flatMap
    (Operand.fieldUses (s.target.bind Source.recordType?) "" "")

/-- The places of fields in an update. Of the values given to a column the last one is shown. -/
def Update.fieldUses (s : Update σ) : List FieldUse :=
  let owner := s.target.bind Source.recordType?
  s.winning.flatMap (Operand.fieldUses owner "=" "") ++ s.filter.fieldUses owner

def Delete.fieldUses (s : Delete σ) : List FieldUse :=
  s.filter.fieldUses (s.target.bind Source.recordType?)

/-- The places where a statement shows fields, but for those in the queries inside it. -/
def Statement.fieldUses : Statement → List FieldUse
  | select s => s.fieldUses
  | insert s => s.fieldUses
  | update s => s.fieldUses
  | delete s => s.fieldUses
  | literal _ => []

/-! ### Predicates and operands -/

theorem Operand.fieldUses_stand (before behind : Sql) (hbefore : before.values = [])
    (hbehind : behind.values = []) {o : Operand Rendered} {sql : Sql}
    (h : o.render owner = .ok (some sql)) :
    ∀ u ∈ o.fieldUses owner (d.spell before) (d.spell behind),
      u.Stands d (before ++ sql ++ behind) := by
  cases o with
  | field f =>
    obtain ⟨inner, hinner, h⟩ := Except.bind_eq_ok.1 h
    cases h
    exact List.forall_mem_singleton.2 (FieldUse.stands_single before behind hbefore hbehind hinner)
  | _ => simp [fieldUses, fields]

namespace Predicate

theorem values_operatorSql (p : Predicate σ) : p.operatorSql.values = [] := by
  unfold operatorSql
  split <;> rfl

theorem spell_operatorSql (p : Predicate σ) : d.spell p.operatorSql = p.operatorText := by
  unfold operatorSql operatorText
  split
  · rfl
  · simp [Dialect.spell, spaced]

theorem fieldUses_stand {p : Predicate Rendered} {sql : Sql} (h : p.render d owner = .ok sql)
    (marks : String × String) :
    ∀ u ∈ p.fieldUses owner marks, u.Stands d (Sql.enclosed marks sql) := by
  obtain ⟨_, -, h⟩ := Except.bind_eq_ok.1 h
  obtain ⟨field, hfield, h⟩ := Except.bind_eq_ok.1 h
  obtain ⟨operand, hoperand, h⟩ := Except.bind_eq_ok.1 h
  cases h
  refine List.forall_mem_cons.2 ⟨?_, fun u hu => ?_⟩
  · have hstands := FieldUse.stands_single (d := d) (Sql.text marks.1) p.operatorSql
      rfl p.values_operatorSql hfield
    rw [spell_operatorSql, Dialect.spell, Sql.spell_text] at hstands
    refine hstands.of_shows ?_
    simp only [Sql.enclosed, ← List.append_assoc]
    exact (Sql.shows_append_left _ _).trans (Sql.shows_append_left _ _)
  · cases operand with
    | none =>
      have hfields : p.operand.fields = [] := by
        have habsent := Operand.isNone_render hoperand
        cases hp : p.operand <;> simp_all [Operand.isAbsent, Operand.fields]
      simp [Operand.fieldUses, hfields] at hu
    | some value =>
      have hstands := Operand.fieldUses_stand (d := d) (Sql.text " ") (Sql.text marks.2) rfl
        rfl hoperand u (by simpa [Dialect.spell] using hu)
      refine hstands.of_shows ?_
      simp only [Sql.enclosed, spaced, List.append_assoc]
      exact (Sql.shows_append_right _ _).trans <| (Sql.shows_append_right _ _).trans
        (Sql.shows_append_right _ _)

end Predicate

theorem Condition.fieldUses_stand {c : Condition Rendered} {sql : Sql}
    (h : c.ShownIn d owner sql) : ∀ u ∈ c.fieldUses owner, u.Stands d sql := by
  refine List.forall_mem_flatMap.2 fun p hp u hu => ?_
  obtain ⟨part, hpart, hshows⟩ := h p hp
  exact (Predicate.fieldUses_stand hpart _ u hu).of_shows hshows

/-! ### Statements -/

namespace Select

theorem groupUses_stand {fields : List Field} {sql : Sql} (h : groupBySql fields = .ok sql) :
    ∀ u ∈ groupUses fields, u.Stands d sql := by
  cases fields with
  | nil => simp [groupUses]
  | cons f fs =>
    obtain ⟨parts, hparts, h⟩ := Except.bind_eq_ok.1 h
    cases h
    refine List.forall_mem_singleton.2 (FieldUse.stands_of_parts rfl (Sql.spell_text _) ?_)
    rw [List.forall₂_map_left_iff]
    refine (Except.mapM_eq_ok.1 hparts).imp fun f part hpart => ?_
    exact ⟨part, hpart, Field.values_sql hpart, (String.append_empty).symm⟩

theorem orderUses_stand {fields : List (Field × Direction)} {sql : Sql}
    (h : orderBySql fields = .ok sql) : ∀ u ∈ orderUses fields, u.Stands d sql := by
  cases fields with
  | nil => simp [orderUses]
  | cons f fs =>
    obtain ⟨parts, hparts, h⟩ := Except.bind_eq_ok.1 h
    cases h
    refine List.forall_mem_singleton.2 (FieldUse.stands_of_parts rfl (Sql.spell_text _) ?_)
    rw [List.forall₂_map_left_iff]
    refine (Except.mapM_eq_ok.1 hparts).imp fun f part hpart => ?_
    obtain ⟨inner, hinner, hpart⟩ := Except.bind_eq_ok.1 hpart
    cases hpart
    have hvalues := Field.values_sql hinner
    exact ⟨inner, hinner, by simp [hvalues], by simp [Dialect.spell, hvalues]⟩

theorem fieldUses_stand {s : Select Rendered} {sql : Sql} (h : s.render d = .ok sql) :
    ∀ u ∈ s.fieldUses, u.Stands d sql := by
  obtain ⟨hfilter, hhaving, groupBy, hgroupBy, hshowsGroupBy⟩ := shows_clauses h
  obtain ⟨orderBy, horderBy, hshowsOrderBy⟩ := shows_orderBy h
  have hgroups := fun u hu => (groupUses_stand hgroupBy u hu).of_shows hshowsGroupBy
  have horders := fun u hu => (orderUses_stand horderBy u hu).of_shows hshowsOrderBy
  exact List.forall_mem_append.2 ⟨List.forall_mem_append.2 ⟨List.forall_mem_append.2
    ⟨Condition.fieldUses_stand hfilter, hgroups⟩, Condition.fieldUses_stand hhaving⟩, horders⟩

end Select

theorem Insert.fieldUses_stand {s : Insert Rendered} {sql : Sql} (h : s.render = .ok sql) :
    ∀ u ∈ s.fieldUses, u.Stands d sql := by
  refine List.forall_mem_flatMap.2 fun o ho u hu => ?_
  obtain ⟨value, hvalue, hshows⟩ := shows_operands (d := d) h o ho
  have hstands := Operand.fieldUses_stand (d := d) [] [] rfl rfl hvalue u hu
  simpa using hstands.of_shows (by simpa using hshows)

theorem Update.fieldUses_stand {s : Update Rendered} {sql : Sql} (h : s.render d = .ok sql) :
    ∀ u ∈ s.fieldUses, u.Stands d sql := by
  have hfilter := Condition.fieldUses_stand (shows_filter h)
  obtain ⟨source, m, hsource, hm, hentries⟩ := shows_entries h
  refine List.forall_mem_append.2 ⟨List.forall_mem_flatMap.2 fun o ho u hu => ?_, hfilter⟩
  rw [winning_eq hsource hm] at ho
  rw [hsource, Option.bind_some] at hu
  obtain ⟨e, he, rfl⟩ := List.mem_map.1 ho
  obtain ⟨value, hvalue, hshows⟩ := hentries e he
  have hstands := Operand.fieldUses_stand (d := d) (Sql.text "=") [] rfl rfl hvalue u
    (by simpa [Dialect.spell] using hu)
  refine hstands.of_shows (hshows.trans ?_)
  simpa [Sql.text] using Sql.shows_append_right [Piece.name e.1] (Piece.text "=" :: value)

theorem Delete.fieldUses_stand {s : Delete Rendered} {sql : Sql} (h : s.render d = .ok sql) :
    ∀ u ∈ s.fieldUses, u.Stands d sql :=
  Condition.fieldUses_stand (shows_filter h)

/-! ### Changing the queries -/

section Map

variable (f : σ → τ)

@[simp] theorem Operand.fieldUses_map (before behind : String) (o : Operand σ) :
    (o.map f).fieldUses owner before behind = o.fieldUses owner before behind := by
  simp [fieldUses]

@[simp] theorem Predicate.fieldUses_map (marks : String × String) (p : Predicate σ) :
    (p.map f).fieldUses owner marks = p.fieldUses owner marks := by
  simp [fieldUses, map, operatorText]

@[simp] theorem Condition.fieldUses_map (c : Condition σ) :
    (c.map f).fieldUses owner = c.fieldUses owner := by
  rw [fieldUses, pending_map, List.flatMap_map]
  simp [map, fieldUses]

theorem Select.fieldUses_map (s : Select σ) : (s.map f).fieldUses = s.fieldUses := by
  unfold fieldUses
  rw [target_map]
  simp [map]

theorem Insert.fieldUses_map (s : Insert σ) : (s.map f).fieldUses = s.fieldUses := by
  have hoperands : (s.rows.flatMap fun r => r.operands.map (Operand.map f))
      = (s.rows.flatMap Row.operands).map (Operand.map f) :=
    List.map_flatMap.symm
  simp [fieldUses, map, List.flatMap_map, Row.operands_map, hoperands,
    Source.recordType?_bind_map]

theorem Update.fieldUses_map (s : Update σ) : (s.map f).fieldUses = s.fieldUses := by
  unfold fieldUses
  rw [winning_map]
  simp [map, List.flatMap_map, Source.recordType?_bind_map]

theorem Delete.fieldUses_map (s : Delete σ) : (s.map f).fieldUses = s.fieldUses := by
  simp [fieldUses, map, Source.recordType?_bind_map]

end Map

namespace Statement

theorem fieldUses_stand {s : Statement} {sql : Sql} (h : s.render d = .ok sql) :
    ∀ u ∈ s.fieldUses, u.Stands d sql := by
  cases s with
  | select s =>
    have hstands := Select.fieldUses_stand ((Query.render_of d s).symm.trans h)
    rwa [Select.fieldUses_map] at hstands
  | insert s =>
    have hstands := Insert.fieldUses_stand (d := d) h
    rwa [Insert.fieldUses_map] at hstands
  | update s =>
    have hstands := Update.fieldUses_stand h
    rwa [Update.fieldUses_map] at hstands
  | delete s =>
    have hstands := Delete.fieldUses_stand h
    rwa [Delete.fieldUses_map] at hstands
  | literal sql => simp [fieldUses]

/-- In a statement that is written, wherever it stands, each field is shown in its place as the
reference to its column, followed by ` AS ` and the alias that its name is wrapped in. It is the
reference itself exactly if there is no such alias. -/
theorem shows_fields {s : Statement} {bound after : List Value} {text : String}
    (h : (s.write d).run bound = .ok (text, after)) :
    ∀ u ∈ s.fieldUses, ∃ shown, List.Forall₂ (fun f t => f.1.WrittenAs d u.owner t
        ∧ (f.1.reference d u.owner = .ok t ↔ f.1.name.alias? = none)) u.fields shown
      ∧ ∃ before behind, text = before ++ u.text shown ++ behind := by
  rw [write_eq, Writer.run_ofRendered] at h
  obtain ⟨sql, hsql, h⟩ := Except.bind_eq_ok.1 h
  cases h
  intro u hu
  obtain ⟨shown, part, hshown, hvalues, htext, hshows⟩ := fieldUses_stand hsql u hu
  refine ⟨shown, hshown.imp fun f t ht => ⟨ht, ht.eq_reference_iff⟩, ?_⟩
  rw [← htext]
  exact hshows.exists_spell hvalues bound.length

/-- Fields under aliases in every clause that shows fields. -/
def underAliases : Statement :=
  .select (.build .generic [.source (.table (.name "t") none) .all,
    .filter (.add .and { name := .aliased (.aliased (.name "id") "first") "x" } "="
      (.field { table := some (.name "t"), name := .aliased (.name "parent") "y" })),
    .groupBy [{ name := .aliased (.name "id") "x" }, { name := .name "kind" }],
    .orderBy { name := .aliased (.name "id") "x" } .ascending])

theorem shows_fields_underAliases :
    (underAliases.write .generic).run [] = .ok
        ("SELECT \"t\".* FROM \"t\" WHERE (\"id\" AS \"x\" = \"t\".\"parent\" AS \"y\") "
          ++ "GROUP BY \"id\" AS \"x\", \"kind\" ORDER BY \"id\" AS \"x\" ASC", [])
      ∧ underAliases.fieldUses.map FieldUse.before = ["(", " ", "GROUP BY ", "ORDER BY "]
      ∧ ∀ u ∈ underAliases.fieldUses, ∃ shown,
        List.Forall₂ (fun f t => f.1.WrittenAs .generic u.owner t
          ∧ (f.1.reference .generic u.owner = .ok t ↔ f.1.name.alias? = none)) u.fields shown
        ∧ ∃ before behind,
          "SELECT \"t\".* FROM \"t\" WHERE (\"id\" AS \"x\" = \"t\".\"parent\" AS \"y\") "
            ++ "GROUP BY \"id\" AS \"x\", \"kind\" ORDER BY \"id\" AS \"x\" ASC"
            = before ++ u.text shown ++ behind := by
  have hrun : (underAliases.write .generic).run [] = .ok (_, []) := rfl
  exact ⟨hrun, rfl, shows_fields hrun⟩

/-- Whether each field is shown in its place as the reference to its column, without an alias. -/
def ShowsReferences (d : Dialect) (s : Statement) (text : String) : Prop :=
  ∀ u ∈ s.fieldUses, ∃ references,
    List.Forall₂ (fun f r => f.1.reference d u.owner = .ok r) u.fields references
      ∧ ∃ before behind, text = before ++ u.text references ++ behind

/-- A field under an alias, compared with a value. -/
def filteredUnderAlias : Statement :=
  .select (.build .generic [.source (.table (.name "t") none) .all,
    .filter (.add .and { name := .aliased (.name "id") "x" } "=" (.value (.int 1)))])

theorem not_showsReferences_filteredUnderAlias :
    (filteredUnderAlias.write .generic).run [] = .ok
        ("SELECT \"t\".* FROM \"t\" WHERE (\"id\" AS \"x\" = ?)", [.int 1])
      ∧ Field.reference .generic none { name := .aliased (.name "id") "x" } = .ok "\"id\""
      ∧ ¬ filteredUnderAlias.ShowsReferences .generic
        "SELECT \"t\".* FROM \"t\" WHERE (\"id\" AS \"x\" = ?)" := by
  have hreference : Field.reference .generic none { name := .aliased (.name "id") "x" }
      = .ok "\"id\"" := rfl
  refine ⟨rfl, hreference, fun h => ?_⟩
  obtain ⟨references, hreferences, before, behind, htext⟩ := h _ (.head _)
  obtain ⟨r, hr, rfl⟩ : ∃ r, (.ok "\"id\"" : Except SqlError String) = .ok r
      ∧ references = [r] := by
    cases hreferences with
    | cons hr hrest =>
      cases hrest
      exact ⟨_, hreference.symm.trans hr, rfl⟩
  cases hr
  have hinfix : "(\"id\" =".toList
      <:+: "SELECT \"t\".* FROM \"t\" WHERE (\"id\" AS \"x\" = ?)".toList := by
    refine ⟨before.toList, behind.toList, ?_⟩
    rw [← String.toList_append, ← String.toList_append]
    exact congrArg String.toList htext.symm
  revert hinfix
  decide +kernel

end Statement

end SqlAssembly
