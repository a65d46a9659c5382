import SqlAssembly.Proofs.NameChecks

/-!
# Tables and the qualifiers of their fields

An identifier names a table in the `FROM` list, and it qualifies the fields of that table. Both
readings of it use the same name: wherever an identifier can be read as a table that has a name, it
can be read as a qualifier with that name, and the other way round raw SQL without an alias, which
has none, qualifies nothing (`Identifier.asQualifier_of_asTable`).
-/

namespace SqlAssembly.Identifier

variable {i : Identifier} {schema : Option String} {t : TableRef}

/-- What an identifier can be that is read as a table, and which table it is. -/
theorem asTable_cases (h : i.asTable schema = .ok t) :
    (∃ s, i = name s ∧ WellFormedName s ∧ t = ⟨schema, .name s, none⟩)
    ∨ (∃ base aliasName t', i = aliased base aliasName ∧ WellFormedName aliasName
      ∧ base.asTable schema = .ok t' ∧ t = { t' with alias? := some aliasName })
    ∨ (∃ sql, i = literal sql ∧ t = ⟨none, .raw sql, none⟩)
    ∨ ∃ r, i = record r ∧ t = ⟨r.type.schema.or schema, .name r.type.table, r.alias?⟩ := by
  cases i with
  | name s =>
    obtain ⟨_, hname, h⟩ := Except.bind_eq_ok.1 h
    have htable : t = ⟨schema, .name s, none⟩ := by
      cases schema with
      | none =>
        cases h
        rfl
      | some schema =>
        obtain ⟨_, -, h⟩ := Except.bind_eq_ok.1 h
        cases h
        rfl
    exact .inl ⟨s, rfl, checkName_eq_ok.1 hname, htable⟩
  | aliased base aliasName =>
    obtain ⟨_, halias, h⟩ := Except.bind_eq_ok.1 h
    obtain ⟨t', hbase, h⟩ := Except.bind_eq_ok.1 h
    cases h
    exact .inr (.inl ⟨base, aliasName, t', rfl, checkName_eq_ok.1 halias, hbase, rfl⟩)
  | literal sql =>
    cases h
    exact .inr (.inr (.inl ⟨sql, rfl, rfl⟩))
  | record r =>
    have htable : t = ⟨r.type.schema.or schema, .name r.type.table, r.alias?⟩ := by
      rw [asTable] at h
      cases halias : r.alias? with
      | none =>
        rw [halias] at h
        cases h
        rfl
      | some aliasName =>
        rw [halias] at h
        obtain ⟨_, -, h⟩ := Except.bind_eq_ok.1 h
        cases h
        rfl
    exact .inr (.inr (.inr ⟨r, rfl, htable⟩))

/-- The schema that an identifier brings as a qualifier: that of a record without an alias. -/
def ownSchema? : Identifier → Option String
  | record ⟨type, none⟩ => type.schema
  | record ⟨_, some _⟩ | name _ | aliased _ _ | literal _ => none

/-- An identifier that brings a schema as a qualifier is a table without an alias in that schema. -/
theorem schema_of_ownSchema? (h : i.asTable schema = .ok t) {s : String}
    (hs : i.ownSchema? = some s) : t.alias? = none ∧ t.schema = some s := by
  rcases asTable_cases h with ⟨s, rfl, -, rfl⟩ | ⟨base, aliasName, t', rfl, -, -, rfl⟩
    | ⟨sql, rfl, rfl⟩ | ⟨⟨type, alias?⟩, rfl, rfl⟩
  · cases hs
  · cases hs
  · cases hs
  · cases alias? with
    | none =>
      have hs : type.schema = some s := hs
      exact ⟨rfl, by simp [hs]⟩
    | some aliasName => cases hs

/-- An identifier of a table that has a name is read as a qualifier with that name. -/
theorem asQualifier_of_qualifier? (h : i.asTable schema = .ok t) {name : String}
    (hname : t.qualifier? = some name) :
    i.asQualifier = .ok ⟨name, i.ownSchema?, i.recordType?⟩ := by
  rcases asTable_cases h with ⟨s, rfl, hs, rfl⟩ | ⟨base, aliasName, t', rfl, halias, -, rfl⟩
    | ⟨sql, rfl, rfl⟩ | ⟨⟨type, alias?⟩, rfl, rfl⟩
  · cases hname
    rw [asQualifier, checkName_eq_ok.2 hs]
    rfl
  · cases hname
    rw [asQualifier, checkName_eq_ok.2 halias]
    rfl
  · cases hname
  · cases alias? <;>
    · cases hname
      rfl

/-- Only raw SQL without an alias is a table that has no name. -/
theorem eq_literal_of_qualifier? (h : i.asTable schema = .ok t) (hname : t.qualifier? = none) :
    ∃ sql, i = literal sql := by
  rcases asTable_cases h with ⟨s, rfl, hs, rfl⟩ | ⟨base, aliasName, t', rfl, halias, -, rfl⟩
    | ⟨sql, rfl, -⟩ | ⟨⟨type, alias?⟩, rfl, rfl⟩
  · cases hname
  · cases hname
  · exact ⟨sql, rfl⟩
  · cases alias? <;> cases hname

/-- If an identifier can be read as a table, in whatever schema, and columns of the table are
qualified with a name, then the identifier is read as a qualifier with that name, and with the
record behind the identifier. It brings a schema only if the table has no alias and is in this
schema. If there is no such name, the identifier is raw SQL without an alias, and reading it as a
qualifier fails. -/
theorem asQualifier_of_asTable (h : i.asTable schema = .ok t) :
    (∀ name, t.qualifier? = some name → ∃ q, i.asQualifier = .ok q ∧ q.name = name
      ∧ q.record = i.recordType? ∧ ∀ s, q.schema = some s → t.alias? = none ∧ t.schema = some s)
    ∧ (t.qualifier? = none → ∃ sql e, i = literal sql ∧ i.asQualifier = .error e
      ∧ e.kind = .identifier) := by
  constructor
  · intro name hname
    exact ⟨_, asQualifier_of_qualifier? h hname, rfl, rfl, fun s hs => schema_of_ownSchema? h hs⟩
  · intro hname
    obtain ⟨sql, rfl⟩ := eq_literal_of_qualifier? h hname
    exact ⟨sql, .literalQualifier sql, rfl, rfl, rfl⟩

/-- The books of an archive. -/
def archiveBook : RecordType :=
  { table := "book", schema := some "archive", fields := .ofEntries [("author", "fk_author")] }

/-- A record in its own schema, the same record under an alias and one more, and raw SQL under an
alias and without one. -/
theorem asQualifier_of_asTable_archive :
    ((record ⟨archiveBook, none⟩).asTable (some "main")
        = .ok ⟨some "archive", .name "book", none⟩
      ∧ ∃ q, (record ⟨archiveBook, none⟩).asQualifier = .ok q ∧ q.name = "book"
        ∧ q.schema = some "archive" ∧ q.record = some archiveBook)
    ∧ ((aliased (aliased (record ⟨archiveBook, none⟩) "b") "c").asTable (some "main")
        = .ok ⟨some "archive", .name "book", some "c"⟩
      ∧ ∃ q, (aliased (aliased (record ⟨archiveBook, none⟩) "b") "c").asQualifier = .ok q
        ∧ q.name = "c" ∧ q.schema = none ∧ q.record = some archiveBook)
    ∧ ((aliased (literal "SELECT 1") "one").asTable none
        = .ok ⟨none, .raw "SELECT 1", some "one"⟩
      ∧ ∃ q, (aliased (literal "SELECT 1") "one").asQualifier = .ok q ∧ q.name = "one")
    ∧ (literal "SELECT 1").asTable (some "main") = .ok ⟨none, .raw "SELECT 1", none⟩
      ∧ ∃ e, (literal "SELECT 1").asQualifier = .error e ∧ e.kind = .identifier := by
  have htable : (record ⟨archiveBook, none⟩).asTable (some "main")
      = .ok ⟨some "archive", .name "book", none⟩ := rfl
  have haliased : (aliased (aliased (record ⟨archiveBook, none⟩) "b") "c").asTable (some "main")
      = .ok ⟨some "archive", .name "book", some "c"⟩ := rfl
  have hraw : (aliased (literal "SELECT 1") "one").asTable none
      = .ok ⟨none, .raw "SELECT 1", some "one"⟩ := rfl
  have hliteral : (literal "SELECT 1").asTable (some "main")
      = .ok ⟨none, .raw "SELECT 1", none⟩ := rfl
  refine ⟨⟨htable, ?_⟩, ⟨haliased, ?_⟩, ⟨hraw, ?_⟩, hliteral, ?_⟩
  · obtain ⟨q, hq, hname, hrecord, -⟩ := (asQualifier_of_asTable htable).1 _ rfl
    refine ⟨q, hq, hname, ?_, hrecord⟩
    cases hq
    rfl
  · obtain ⟨q, hq, hname, hrecord, hschema⟩ := (asQualifier_of_asTable haliased).1 _ rfl
    refine ⟨q, hq, hname, ?_, hrecord⟩
    -- an alias leaves no schema that the qualifier could bring
    refine Option.eq_none_iff_forall_not_mem.2 fun s hs => ?_
    exact nomatch (hschema s hs).1
  · obtain ⟨q, hq, hname, -⟩ := (asQualifier_of_asTable hraw).1 _ rfl
    exact ⟨q, hq, hname⟩
  · obtain ⟨sql, e, -, he, hkind⟩ := (asQualifier_of_asTable hliteral).2 rfl
    exact ⟨e, he, hkind⟩

end SqlAssembly.Identifier
