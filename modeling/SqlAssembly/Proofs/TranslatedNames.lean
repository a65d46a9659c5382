import SqlAssembly.Proofs.LatestEntries
import SqlAssembly.Proofs.RecordColumns

/-!
# Names that are translated again

A record type is declared field by field, and an attribute that is declared again is mapped to its
new column from then on. What a name stands for is a column, and a statement on the record may read
this column as a name once more. It stands for itself then, unless there is an attribute of that
name that was last mapped to another column (`RecordType.column?_self_iff`).
-/

namespace SqlAssembly.RecordType

variable {table : String} {schema primaryKey : Option String} {fields : List (String × String)}
  {attr c : String}

/-! ### Declarations -/

/-- A new record type after its fields are declared, one after the other. -/
def ofFields (table : String) (schema primaryKey : Option String)
    (fields : List (String × String)) : RecordType :=
  fields.foldl (fun t f => t.declare f.1 f.2) { table, schema, primaryKey }

/-- Whether the last declaration of an attribute maps it to a column. -/
def Declares (fields : List (String × String)) (attr column : String) : Prop :=
  ∃ before after, fields = before ++ (attr, column) :: after ∧ attr ∉ Entries.keys after

theorem fields_ofFields :
    (ofFields table schema primaryKey fields).fields = .ofEntries fields :=
  (List.foldl_hom RecordType.fields fun _ _ => rfl).symm

/-- The fields of a record type are the last declarations of its attributes. -/
theorem mem_pairs_ofFields :
    (attr, c) ∈ (ofFields table schema primaryKey fields).pairs ↔ Declares fields attr c := by
  rw [pairs, fields_ofFields, OrderedMap.entries_ofEntries, Entries.mem_latest, Declares]

theorem mem_columns_ofFields :
    c ∈ (ofFields table schema primaryKey fields).columns ↔ ∃ attr, Declares fields attr c := by
  constructor
  · intro hc
    obtain ⟨⟨attr, _⟩, hp, rfl⟩ := List.mem_map.1 hc
    exact ⟨attr, mem_pairs_ofFields.1 hp⟩
  · rintro ⟨attr, hattr⟩
    exact List.mem_map_of_mem (f := Prod.snd) (mem_pairs_ofFields.2 hattr)

/-- An attribute stands for the column that it was last mapped to. -/
theorem column?_of_declares (h : Declares fields attr c) :
    (ofFields table schema primaryKey fields).column? attr = some c :=
  column?_of_mem (mem_pairs_ofFields.2 h)

/-! ### Translation -/

/-- A column stands for itself, unless the attribute of its name was last mapped to another. -/
theorem column?_eq_self_iff_declares (hc : ∃ attr, Declares fields attr c) :
    (ofFields table schema primaryKey fields).column? c = some c
      ↔ ∀ d, Declares fields c d → d = c := by
  rw [column?_eq_self (mem_columns_ofFields.2 hc)]
  constructor
  · intro h d hd
    exact h (c, d) (mem_pairs_ofFields.2 hd) rfl
  · rintro h ⟨_, d⟩ hq rfl
    exact h d (mem_pairs_ofFields.1 hq)

/-- A column that a name stands for, read as a name again, stands for itself or for the column that
the attribute of its name was last mapped to. It stands for itself exactly if no attribute of its
name was last mapped to another column, and then, or if it is `*`, a statement on the record reads
it as itself. So translating twice is the same as translating once for all names exactly if no
attribute is named like the column of an attribute and mapped to another. -/
theorem column?_self_iff (table : String) (schema primaryKey : Option String)
    (fields : List (String × String)) :
    let t := ofFields table schema primaryKey fields
    (∀ n c, t.column? n = some c →
      (∃ d, t.column? c = some d ∧ (d = c ∨ Declares fields c d))
      ∧ (t.column? c = some c ↔ ∀ d, Declares fields c d → d = c)
      ∧ (WellFormedName c →
        (columnName (some t) c = .ok c ↔ c = "*" ∨ ∀ d, Declares fields c d → d = c)))
    ∧ ((∀ n c, t.column? n = some c → t.column? c = some c)
      ↔ ∀ attr c d, Declares fields attr c → Declares fields c d → d = c) := by
  intro t
  constructor
  · intro n c hn
    have hself : t.column? c = some c ↔ ∀ d, Declares fields c d → d = c :=
      column?_eq_self_iff_declares (mem_columns_ofFields.1 (mem_columns_of_column? hn))
    refine ⟨?_, hself, fun hname => ?_⟩
    · by_cases hdeclares : ∀ d, Declares fields c d → d = c
      · exact ⟨c, hself.2 hdeclares, .inl rfl⟩
      · push Not at hdeclares
        obtain ⟨d, hd, -⟩ := hdeclares
        exact ⟨d, column?_of_declares hd, .inr hd⟩
    · rw [columnName_eq_self hname, hself]
  · constructor
    · intro htwice attr c d hattr
      have hself := htwice attr c (column?_of_declares hattr)
      exact (column?_eq_self_iff_declares ⟨attr, hattr⟩).1 hself d
    · intro hdeclares n c hn
      obtain ⟨attr, hattr⟩ := mem_columns_ofFields.1 (mem_columns_of_column? hn)
      exact (column?_eq_self_iff_declares ⟨attr, hattr⟩).2 fun d => hdeclares attr c d hattr

/-- The fields of a book, with an attribute that is declared again and then named like its column. -/
def bookFields : List (String × String) :=
  [("id", "id_book"), ("title", "name"), ("author", "fk_author"), ("title", "title")]

/-- An attribute may be named like a column if it is mapped to this column. -/
theorem column?_self_iff_book :
    let book := ofFields "book" (some "library") (some "id_book") bookFields
    book.column? "id" = some "id_book" ∧ book.column? "id_book" = some "id_book"
      ∧ WellFormedName "id_book" ∧ columnName (some book) "id_book" = .ok "id_book"
      ∧ ∀ n c, book.column? n = some c → book.column? c = some c := by
  intro book
  have hpairs : ∀ p ∈ book.pairs, ∀ q ∈ book.pairs, q.1 = p.2 → q.2 = p.2 := by decide
  have hdeclares (attr c d : String) (hattr : Declares bookFields attr c)
      (hc : Declares bookFields c d) : d = c :=
    hpairs (attr, c) (mem_pairs_ofFields.2 hattr) (c, d) (mem_pairs_ofFields.2 hc) rfl
  obtain ⟨hcolumn, htwice⟩ := column?_self_iff "book" (some "library") (some "id_book") bookFields
  have hid : book.column? "id" = some "id_book" := rfl
  have hname : WellFormedName "id_book" := by decide
  have hidBook : Declares bookFields "id" "id_book" := ⟨[], bookFields.tail, rfl, by decide⟩
  obtain ⟨-, hself, hread⟩ := hcolumn "id" "id_book" hid
  exact ⟨hid, hself.2 fun d => hdeclares "id" "id_book" d hidBook, hname,
    (hread hname).2 (.inr fun d => hdeclares "id" "id_book" d hidBook), htwice.2 hdeclares⟩

/-- The column of one attribute, read as a name, is the column of another attribute. -/
theorem not_column?_self_crossed :
    let t := ofFields "t" none none [("a", "b"), ("b", "c")]
    t.column? "a" = some "b" ∧ t.column? "b" = some "c"
      ∧ ¬ ∀ n c, t.column? n = some c → t.column? c = some c := by
  intro t
  have hb : t.column? "b" = some "c" := rfl
  refine ⟨rfl, hb, fun htwice => ?_⟩
  have hself := htwice "a" "b" rfl
  rw [hb] at hself
  exact absurd (Option.some.inj hself) (by decide)

end SqlAssembly.RecordType
