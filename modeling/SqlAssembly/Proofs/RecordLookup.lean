import SqlAssembly.Proofs.RecordRows

/-!
# Setting attributes and translating names

A name selects an attribute in two ways. Translated to a column it stands for the attribute of that
name, and only if there is none for a column. When an attribute is set the name selects the first
field that has it as attribute or as column. The two agree on which names there are, and on the
column unless an attribute is declared behind a field with a column of its name
(`RecordInstance.mem_columnValues_set`).
-/

namespace SqlAssembly

namespace RecordType

variable {t : RecordType} {n c : String} {p : String × String}

/-- Whether the attribute of a name is hidden when it is set: a field before it has a column of this
name, and its own column is another. -/
def IsHidden (t : RecordType) (n : String) : Prop :=
  ∃ before q after, t.pairs = before ++ q :: after ∧ q.1 = n ∧ q.2 ≠ n ∧ ∃ p ∈ before, p.2 = n

theorem eq_of_fst_eq {q : String × String} (hp : p ∈ t.pairs) (hq : q ∈ t.pairs) (h : p.1 = q.1) :
    p = q := by
  have hfilter := Entries.filter_key_eq t.fields.nodup hq
  have hmem : p ∈ t.pairs.filter fun r => r.1 == q.1 := List.mem_filter.2 ⟨hp, by simp [h]⟩
  rw [pairs, hfilter, List.mem_singleton] at hmem
  exact hmem

/-- A name stands for a column exactly if it selects an attribute. -/
theorem isSome_column? : (t.column? n).isSome = (t.attribute? n).isSome := by
  rw [column?, attribute?, Option.isSome_map, Option.isSome_map, Option.isSome_or, Bool.eq_iff_iff]
  simp only [Bool.or_eq_true, List.find?_isSome, ← exists_or, ← and_or_left]

/-- The field that is selected has the column that the name stands for, unless the attribute of that
name is hidden. -/
theorem snd_eq_iff_not_isHidden (hp : t.pairs.find? (fun q => q.1 == n || q.2 == n) = some p)
    (hc : t.column? n = some c) : p.2 = c ↔ ¬ t.IsHidden n := by
  obtain ⟨hmatch, first, rest, hpairs, hfirst⟩ := List.find?_eq_some_iff_append.1 hp
  simp only [Bool.or_eq_true, beq_iff_eq] at hmatch
  have hpmem : p ∈ t.pairs := List.mem_of_find?_eq_some hp
  constructor
  · rintro rfl ⟨before, q, after, hq, rfl, hne, p', hp', hcolumn⟩
    have hqmem : q ∈ t.pairs := by simp [hq]
    have hcolumns : q.2 = p.2 := Option.some.inj ((column?_of_mem hqmem).symm.trans hc)
    obtain rfl : p = q :=
      eq_of_fst_eq hpmem hqmem (hmatch.resolve_right fun h => hne (hcolumns.trans h))
    -- The field before it is found first, but the attribute is declared only once.
    obtain ⟨r, hr⟩ := Option.isSome_iff_exists.1
      (List.find?_isSome.2 ⟨p', hp', by simp [hcolumn]⟩ :
        (before.find? fun r => r.1 == p.1 || r.2 == p.1).isSome)
    rw [hq, List.find?_append, hr, Option.some_or] at hp
    cases hp
    have hnodup : (Entries.keys (before ++ p :: after)).Nodup := hq ▸ t.fields.nodup
    rw [Entries.keys, List.map_append, List.map_cons] at hnodup
    exact (List.nodup_append.1 hnodup).2.2 p.1
      (List.mem_map_of_mem (List.mem_of_find?_eq_some hr)) p.1 List.mem_cons_self rfl
  · intro hhidden
    by_cases hattr : p.1 = n
    · subst hattr
      exact Option.some.inj ((column?_of_mem hpmem).symm.trans hc)
    have hcolumn : p.2 = n := hmatch.resolve_left hattr
    by_cases hn : ∀ q ∈ t.pairs, q.1 ≠ n
    · rw [hcolumn, column?_of_forall_ne hn hc]
    obtain ⟨q, hq, rfl⟩ : ∃ q ∈ t.pairs, q.1 = n := by simpa using hn
    obtain rfl : q.2 = c := Option.some.inj ((column?_of_mem hq).symm.trans hc)
    by_contra hne
    -- The attribute of the name does not match before the field that is found, so it comes behind.
    have hrest : q ∈ rest := by
      rw [hpairs, List.mem_append, List.mem_cons] at hq
      rcases hq with hq | rfl | hq
      · have := hfirst q hq
        simp at this
      · exact absurd rfl hattr
      · exact hq
    obtain ⟨between, after, rfl⟩ := List.append_of_mem hrest
    exact hhidden ⟨first ++ p :: between, q, after, by simp [hpairs], rfl,
      fun h => hne (hcolumn.trans h.symm), p, by simp, hcolumn⟩

/-- If the attribute of a name is hidden, the field that is selected has the column of that name. -/
theorem snd_eq_of_isHidden (hp : t.pairs.find? (fun q => q.1 == n || q.2 == n) = some p)
    (hc : t.column? n = some c) (hhidden : t.IsHidden n) : p.2 = n := by
  have hmatch := List.find?_some hp
  simp only [Bool.or_eq_true, beq_iff_eq] at hmatch
  refine hmatch.resolve_left fun hattr => ?_
  subst hattr
  have hcolumn := column?_of_mem (List.mem_of_find?_eq_some hp)
  exact (snd_eq_iff_not_isHidden hp hc).1 (Option.some.inj (hcolumn.symm.trans hc)) hhidden

end RecordType

/-! ### Instances -/

theorem RecordRow.mem_columnValues {r : RecordRow} {c : String} {v : Value} :
    (c, v) ∈ r.columnValues ↔ ∃ p ∈ r.type.pairs, p.2 = c ∧ r.value? p.1 = some v := by
  simp only [columnValues, List.mem_filterMap, Option.map_eq_some_iff, Prod.mk.injEq]
  constructor
  · rintro ⟨p, hp, _, hv, rfl, rfl⟩
    exact ⟨p, hp, rfl, hv⟩
  · rintro ⟨p, hp, rfl, hv⟩
    exact ⟨p, hp, v, hv, rfl, rfl⟩

namespace RecordInstance

/-- An attribute can be set exactly if the name selects a field; its value is then kept under the
attribute of the field. -/
theorem set?_eq_ok {r r' : RecordInstance} {n : String} {v : Value} :
    r.set? n v = .ok r' ↔ ∃ p, r.type.pairs.find? (fun q => q.1 == n || q.2 == n) = some p
      ∧ r' = { r with values := r.values.put p.1 v } := by
  rw [set?, RecordType.attribute?]
  cases r.type.pairs.find? fun q => q.1 == n || q.2 == n with
  | none => simp
  | some p => simp [eq_comm]

/-- Where a field is given a value, its column has the value, and the other columns keep theirs. -/
theorem mem_columnValues_put {r : RecordInstance} {p : String × String} (hp : p ∈ r.type.pairs)
    {c : String} {v : Value} :
    (c, v) ∈ ({ r with values := r.values.put p.1 v } : RecordInstance).row.columnValues
      ↔ p.2 = c ∨ (c, v) ∈ r.row.columnValues := by
  simp only [RecordRow.mem_columnValues, row, OrderedMap.get?_put]
  constructor
  · rintro ⟨q, hq, hc, hv⟩
    by_cases h : p.1 = q.1
    · obtain rfl := RecordType.eq_of_fst_eq hp hq h
      exact .inl hc
    · rw [if_neg h] at hv
      exact .inr ⟨q, hq, hc, hv⟩
  · rintro (hc | ⟨q, hq, hc, hv⟩)
    · exact ⟨p, hp, hc, if_pos rfl⟩
    · exact ⟨q, hq, hc, by split <;> [rfl; exact hv]⟩

/-- A name can be set exactly if it stands for a column. The column then has the value, unless the
attribute of that name is hidden: the value goes to the column of that name instead, and the
attribute's own column has it only if it had it before. -/
theorem mem_columnValues_set (r : RecordInstance) (n : String) (v : Value) :
    ((∃ r', r.set? n v = .ok r') ↔ ∃ c, r.type.column? n = some c)
    ∧ ∀ r' c, r.set? n v = .ok r' → r.type.column? n = some c →
      ((c, v) ∈ r'.row.columnValues ↔ ¬ r.type.IsHidden n ∨ (c, v) ∈ r.row.columnValues)
      ∧ (r.type.IsHidden n → (n, v) ∈ r'.row.columnValues) := by
  constructor
  · rw [← Option.isSome_iff_exists, RecordType.isSome_column?, RecordType.attribute?,
      Option.isSome_map, Option.isSome_iff_exists]
    simp only [set?_eq_ok]
    constructor
    · rintro ⟨_, p, hp, _⟩
      exact ⟨p, hp⟩
    · rintro ⟨p, hp⟩
      exact ⟨_, p, hp, rfl⟩
  · intro r' c hset hc
    obtain ⟨p, hp, rfl⟩ := set?_eq_ok.1 hset
    have hpmem : p ∈ r.type.pairs := List.mem_of_find?_eq_some hp
    rw [mem_columnValues_put hpmem, RecordType.snd_eq_iff_not_isHidden hp hc]
    exact ⟨Iff.rfl, fun hhidden =>
      (mem_columnValues_put hpmem).2 (.inl (RecordType.snd_eq_of_isHidden hp hc hhidden))⟩

/-- Where no attribute is hidden, setting a name gives its column the value. -/
theorem mem_columnValues_set_apart :
    ∃ r', apart.set? "y" (.int 2) = .ok r' ∧ apart.type.column? "y" = some "y"
      ∧ ¬ apart.type.IsHidden "y" ∧ ("y", .int 2) ∈ r'.row.columnValues := by
  obtain ⟨hset, hmem⟩ := mem_columnValues_set apart "y" (.int 2)
  have hcolumn : apart.type.column? "y" = some "y" := rfl
  obtain ⟨r', hr'⟩ := hset.2 ⟨"y", hcolumn⟩
  have hhidden : ¬ apart.type.IsHidden "y" := by
    rintro ⟨before, q, after, hpairs, hname, -⟩
    have hq : q ∈ apart.type.pairs := by simp [hpairs]
    have hnames : ∀ p ∈ apart.type.pairs, p.1 ≠ "y" := by decide
    exact hnames q hq hname
  exact ⟨r', hr', hcolumn, hhidden, (hmem r' "y" hr' hcolumn).1.2 (.inl hhidden)⟩

/-- Setting the name of a hidden attribute gives the value to the column of that name. -/
theorem not_mem_columnValues_set_crossed :
    crossed.type.column? "b" = some "c"
    ∧ ∃ r', ({ type := crossed.type } : RecordInstance).set? "b" (.int 1) = .ok r'
      ∧ r'.row.columnValues = [("b", .int 1)] ∧ ("c", .int 1) ∉ r'.row.columnValues := by
  refine ⟨rfl, _, rfl, rfl, ?_⟩
  show ("c", Value.int 1) ∉ [("b", Value.int 1)]
  simp

end RecordInstance

end SqlAssembly
