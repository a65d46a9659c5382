import SqlAssembly.Proofs.InsertRows
import SqlAssembly.Proofs.NameChecks

/-!
# The column that a name stands for

In a statement on a record a name stands for the column of the attribute of this name, and if there
is no such attribute, for the column of this name. So a column, read as a name, stands for itself
unless there is an attribute of its name with another column (`RecordType.column?_eq_self`).
-/

namespace SqlAssembly

namespace RecordType

variable {t : RecordType} {n c : String} {p : String × String}

/-- A name stands for the column of the attribute of this name, if there is one. -/
theorem column?_of_mem (hp : p ∈ t.pairs) : t.column? p.1 = some p.2 := by
  rw [column?, pairs, ← List.head?_filter, Entries.filter_key_eq t.fields.nodup hp]
  rfl

/-- A name that is no attribute stands for itself. -/
theorem column?_of_forall_ne (hn : ∀ q ∈ t.pairs, q.1 ≠ n) (hc : t.column? n = some c) :
    c = n := by
  have hnone : t.pairs.find? (fun q => q.1 == n) = none :=
    List.find?_eq_none.2 fun q hq => by simpa using hn q hq
  rw [column?, hnone, Option.none_or, Option.map_eq_some_iff] at hc
  obtain ⟨q, hq, rfl⟩ := hc
  simpa using List.find?_some hq

/-- A name stands for a column exactly if it is an attribute or a column. -/
theorem column?_eq_none : t.column? n = none ↔ ∀ p ∈ t.pairs, p.1 ≠ n ∧ p.2 ≠ n := by
  simp only [column?, Option.map_eq_none_iff, Option.or_eq_none_iff, List.find?_eq_none,
    beq_iff_eq, forall₂_and]

/-- What a name stands for is a column. -/
theorem mem_columns_of_column? (h : t.column? n = some c) : c ∈ t.columns := by
  obtain ⟨p, hp, rfl⟩ := Option.map_eq_some_iff.1 h
  refine List.mem_map_of_mem (f := Prod.snd) ?_
  rcases Option.or_eq_some_iff.1 hp with hp | ⟨-, hp⟩
  · exact List.mem_of_find?_eq_some hp
  · exact List.mem_of_find?_eq_some hp

/-- A column that an attribute of the record has stands for itself, unless there is an attribute of
that name with another column. -/
theorem column?_eq_self (hc : c ∈ t.columns) :
    t.column? c = some c ↔ ∀ q ∈ t.pairs, q.1 = c → q.2 = c := by
  constructor
  · rintro h q hq rfl
    exact Option.some.inj ((column?_of_mem hq).symm.trans h)
  · intro h
    by_cases hn : ∀ q ∈ t.pairs, q.1 ≠ c
    · obtain ⟨p, hp, hpc⟩ := List.mem_map.1 hc
      have hsome : t.column? c ≠ none := fun hnone => (column?_eq_none.1 hnone p hp).2 hpc
      obtain ⟨d, hd⟩ := Option.ne_none_iff_exists'.1 hsome
      rw [hd, column?_of_forall_ne hn hd]
    · obtain ⟨q, hq, rfl⟩ : ∃ q ∈ t.pairs, q.1 = c := by simpa using hn
      rw [column?_of_mem hq, h q hq rfl]

theorem column_eq_ok : t.column n = .ok c ↔ t.column? n = some c := by
  rw [column]
  cases t.column? n <;> simp

/-- The column that a statement on the record writes for a name: it translates all but `*`. -/
theorem columnName_eq_ok :
    columnName (some t) n = .ok c
      ↔ WellFormedName n ∧ if n = "*" then c = n else t.column? n = some c := by
  rw [← @checkName_eq_ok .column n]
  cases hname : checkName .column n with
  | error e => simp [columnName, Identifier.asColumn, hname]
  | ok _ =>
    by_cases hstar : n = "*"
    · subst hstar
      simp [columnName, Identifier.asColumn, hname, eq_comm]
    · rw [if_neg hstar, ← column_eq_ok]
      cases hcolumn : t.column n <;>
        simp [columnName, Identifier.asColumn, hname, hstar, hcolumn]

theorem column?_of_columnName (hstar : n ≠ "*") (h : columnName (some t) n = .ok c) :
    t.column? n = some c := by
  simpa [hstar] using (columnName_eq_ok.1 h).2

theorem columnName_eq_self (hname : WellFormedName c) :
    columnName (some t) c = .ok c ↔ c = "*" ∨ t.column? c = some c := by
  rw [columnName_eq_ok, and_iff_right hname]
  by_cases hstar : c = "*" <;> simp [hstar]

end RecordType

end SqlAssembly
