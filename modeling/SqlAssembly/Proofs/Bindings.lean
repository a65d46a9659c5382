import Mathlib.Data.List.Nodup
import SqlAssembly.Proofs.DelimitedText
import SqlAssembly.Proofs.Outcome
import SqlAssembly.Select.Scope

/-!
# What sources are named by

The names that the sources of a select are bound to are pairwise distinct
(`Scope.nodup_qualifiers`): a name that is given is refused if it is taken, and one that is made up
is free (`freshAlias_notMem`). A source with an alias is named by it alone, and a source without one
is a table that is named by itself, behind its schema (`Binding.Named`).
-/

namespace SqlAssembly

variable {σ : Type}

/-! ### Aliases -/

theorem numbered_injective {base : String} {m n : Nat} (h : numbered base m = numbered base n) :
    m = n := by
  have hchars := congrArg String.toList h
  simp only [numbered, String.toList_append] at hchars
  have hdigits : (toString m).toList ++ [] = (toString n).toList ++ [] := by
    simpa using List.append_cancel_left hchars
  exact (delimited_nat m n [] [] (by simp [NoDigit]) (by simp [NoDigit]) hdigits).1

theorem numbered_ne (base : String) (n : Nat) : numbered base n ≠ base := by
  intro h
  have hmark : "_".length = 1 := rfl
  have hlength := congrArg String.length h
  simp only [numbered, String.length_append, hmark] at hlength
  omega

/-- Where the name itself is taken, fewer numbered names in a row are taken than names are. -/
theorem lt_length_of_numbered_mem {base : String} {taken : List String} (hbase : base ∈ taken)
    {k : Nat} (h : ∀ i < k, numbered base (i + 2) ∈ taken) : k < taken.length := by
  have hnodup : (base :: (List.range k).map fun i => numbered base (i + 2)).Nodup := by
    refine List.nodup_cons.2 ⟨fun hmem => ?_, List.nodup_range.map fun m n hmn => ?_⟩
    · obtain ⟨i, -, hi⟩ := List.mem_map.1 hmem
      exact numbered_ne base (i + 2) hi
    · have := numbered_injective hmn
      omega
  have hsubset : (base :: (List.range k).map fun i => numbered base (i + 2)) ⊆ taken := by
    refine List.cons_subset.2 ⟨hbase, fun name hname => ?_⟩
    obtain ⟨i, hi, rfl⟩ := List.mem_map.1 hname
    exact h i (List.mem_range.1 hi)
  have hlength := hnodup.length_le_of_subset hsubset
  rw [List.length_cons, List.length_map, List.length_range] at hlength
  omega

theorem freshAlias_of_notMem {base : String} {taken : List String} (h : base ∉ taken) :
    freshAlias base taken = base := by
  rw [freshAlias, if_pos h]

/-- Where a name is taken, it gets the least number from two on that makes it free. -/
theorem freshAlias_of_mem {base : String} {taken : List String} (h : base ∈ taken) :
    ∃ n, 2 ≤ n ∧ n ≤ taken.length + 1 ∧ freshAlias base taken = numbered base n
      ∧ numbered base n ∉ taken ∧ ∀ m, 2 ≤ m → m < n → numbered base m ∈ taken := by
  rw [freshAlias, if_neg (not_not.2 h)]
  cases hfind : (List.range (taken.length + 1)).find? fun i => numbered base (i + 2) ∉ taken with
  | none =>
    have hall : ∀ i < taken.length + 1, numbered base (i + 2) ∈ taken := by
      simpa using List.find?_eq_none.1 hfind
    have := lt_length_of_numbered_mem h hall
    omega
  | some i =>
    rw [List.find?_range_eq_some] at hfind
    obtain ⟨hfree, -, hbefore⟩ := hfind
    have htaken : ∀ j < i, numbered base (j + 2) ∈ taken := by
      intro j hj
      simpa using hbefore j hj
    have hlength := lt_length_of_numbered_mem h htaken
    refine ⟨i + 2, by omega, by omega, rfl, by simpa using hfree, fun m hm hmn => ?_⟩
    obtain ⟨j, rfl⟩ := Nat.exists_eq_add_of_le' hm
    exact htaken j (by omega)

/-- The alias that is made up is free. -/
theorem freshAlias_notMem (base : String) (taken : List String) :
    freshAlias base taken ∉ taken := by
  by_cases h : base ∈ taken
  · obtain ⟨n, -, -, halias, hfree, -⟩ := freshAlias_of_mem h
    rw [halias]
    exact hfree
  · rw [freshAlias_of_notMem h]
    exact h

theorem claimAlias_eq_ok {aliasName name : String} {taken : List String} :
    claimAlias aliasName taken = .ok name
      ↔ name = aliasName ∧ aliasName ≠ "" ∧ aliasName ∉ taken := by
  rw [claimAlias]
  split
  · rename_i hempty
    have hempty : aliasName = "" := by simpa using hempty
    simp [hempty]
  · rename_i hempty
    have hempty : aliasName ≠ "" := by simpa using hempty
    by_cases hmem : aliasName ∈ taken <;> simp [hempty, hmem, eq_comm]

/-! ### Bindings -/

namespace Binding

/-- A source that has an alias is named by it alone, and a source without one is a table that is
named by itself, behind its schema. -/
structure Named (b : Binding σ) : Prop where
  aliased : ∀ a, b.alias? = some a → b.qualifier = a ∧ b.schema = none
  plain : b.alias? = none → b.body = .table (.name b.qualifier) b.schema

theorem ofTable_spec {taken : List String} {record : Option RecordType} {t : TableRef}
    {b : Binding σ} (h : ofTable taken record t = .ok b) :
    b.qualifier ∉ taken ∧ b.Named := by
  obtain ⟨schema, table, alias?⟩ := t
  cases alias? with
  | some aliasName =>
    obtain ⟨name, hname, h⟩ := Except.bind_eq_ok.1 h
    obtain ⟨rfl, -, hfree⟩ := claimAlias_eq_ok.1 hname
    by_cases htable : table = .name name
    · rw [if_pos htable] at h
      cases h
      exact ⟨hfree, by simp, by simp [htable]⟩
    · rw [if_neg htable] at h
      cases h
      exact ⟨hfree, by simp, by simp⟩
  | none =>
    cases table with
    | name name =>
      by_cases hmem : name ∈ taken
      · simp only [ofTable, if_pos hmem] at h
        cases h
        exact ⟨freshAlias_notMem name taken, by simp, by simp⟩
      · simp only [ofTable, if_neg hmem] at h
        cases h
        exact ⟨hmem, by simp, by simp⟩
    | raw sql =>
      cases h
      exact ⟨freshAlias_notMem "t" taken, by simp, by simp⟩

theorem ofQuery_spec {taken : List String} {query : σ} {alias? : Option String} {b : Binding σ}
    (h : ofQuery taken query alias? = .ok b) : b.qualifier ∉ taken ∧ b.Named := by
  cases alias? with
  | some aliasName =>
    obtain ⟨name, hname, h⟩ := Except.bind_eq_ok.1 h
    cases h
    obtain ⟨rfl, -, hfree⟩ := claimAlias_eq_ok.1 hname
    exact ⟨hfree, by simp, by simp⟩
  | none =>
    cases h
    exact ⟨freshAlias_notMem "t" taken, by simp, by simp⟩

/-- A bound source has a new name, by its alias or by itself. -/
theorem ofSource_spec {taken : List String} {source : Source σ} {b : Binding σ}
    (h : ofSource taken source = .ok b) : b.qualifier ∉ taken ∧ b.Named := by
  cases source with
  | table name schema =>
    obtain ⟨t, -, h⟩ := Except.bind_eq_ok.1 h
    exact ofTable_spec h
  | subquery query alias? => exact ofQuery_spec h

end Binding

/-! ### Scopes -/

/-- The names of sources that are bound one after the other are new and pairwise distinct. -/
theorem SourceItem.bindAll_spec {taken : List String} {items : List (SourceItem σ)}
    {bound : List (BoundItem σ)} (h : bindAll taken items = .ok bound) (htaken : taken.Nodup) :
    (taken ++ (bound.filterMap BoundItem.binding?).map Binding.qualifier).Nodup
      ∧ ∀ b ∈ bound.filterMap BoundItem.binding?, b.Named := by
  induction items generalizing taken bound with
  | nil =>
    cases h
    simpa using htaken
  | cons item items ih =>
    match item with
    | .plain source _ | .lateral source _ =>
      obtain ⟨b, hb, h⟩ := Except.bind_eq_ok.1 h
      obtain ⟨rest, hrest, h⟩ := Except.bind_eq_ok.1 h
      cases h
      obtain ⟨hnew, hnamed⟩ := Binding.ofSource_spec hb
      obtain ⟨hnodup, hall⟩ := ih hrest (List.nodup_append_comm.1 (by simpa [hnew] using htaken))
      rw [List.append_assoc] at hnodup
      exact ⟨hnodup, List.forall_mem_cons.2 ⟨hnamed, hall⟩⟩
    | .expressions _ =>
      obtain ⟨rest, hrest, h⟩ := Except.bind_eq_ok.1 h
      cases h
      have hall := ih hrest htaken
      exact hall

/-- The names of joined sources that are bound one after the other are new and pairwise distinct. -/
theorem Join.bindAll_spec {taken : List String} {joins : List (Join σ)}
    {bound : List (BoundJoin σ)} (h : bindAll taken joins = .ok bound) (htaken : taken.Nodup) :
    (taken ++ (bound.map BoundJoin.binding).map Binding.qualifier).Nodup
      ∧ ∀ b ∈ bound.map BoundJoin.binding, b.Named := by
  induction joins generalizing taken bound with
  | nil =>
    cases h
    simpa using htaken
  | cons j joins ih =>
    obtain ⟨b, hb, h⟩ := Except.bind_eq_ok.1 h
    obtain ⟨rest, hrest, h⟩ := Except.bind_eq_ok.1 h
    cases h
    obtain ⟨hnew, hnamed⟩ := Binding.ofSource_spec hb
    obtain ⟨hnodup, hall⟩ := ih hrest (List.nodup_append_comm.1 (by simpa [hnew] using htaken))
    rw [List.append_assoc] at hnodup
    exact ⟨hnodup, List.forall_mem_cons.2 ⟨hnamed, hall⟩⟩

namespace Scope

/-- The sources of the `FROM` list in call order, then the joined ones. -/
def bindings (s : Scope σ) : List (Binding σ) := s.fromBindings ++ s.joins.map BoundJoin.binding

/-- The sources that the condition of a join can name: those of the `FROM` list and those that are
joined before it. -/
def earlier (s : Scope σ) (i : Nat) : List (Binding σ) :=
  s.fromBindings ++ (s.joins.take i).map BoundJoin.binding

theorem bind_eq_ok {s : Select σ} {scope : Scope σ} :
    bind s = .ok scope ↔ SourceItem.bindAll [] s.items = .ok scope.items
      ∧ Join.bindAll (scope.fromBindings.map Binding.qualifier) s.joins = .ok scope.joins := by
  obtain ⟨items, joins⟩ := scope
  simp only [bind, Except.bind_eq_ok, Except.pure_eq, Except.ok.injEq, mk.injEq, fromBindings]
  constructor
  · rintro ⟨_, hitems, _, hjoins, rfl, rfl⟩
    exact ⟨hitems, hjoins⟩
  · rintro ⟨hitems, hjoins⟩
    exact ⟨_, hitems, _, hjoins, rfl, rfl⟩

/-- The names of the sources of a select are pairwise distinct. -/
theorem nodup_qualifiers {s : Select σ} {scope : Scope σ} (h : bind s = .ok scope) :
    (scope.bindings.map Binding.qualifier).Nodup := by
  obtain ⟨hitems, hjoins⟩ := bind_eq_ok.1 h
  have hfrom := (SourceItem.bindAll_spec hitems List.nodup_nil).1
  rw [List.nil_append] at hfrom
  rw [bindings, List.map_append]
  exact (Join.bindAll_spec hjoins hfrom).1

theorem named_of_mem {s : Select σ} {scope : Scope σ} (h : bind s = .ok scope) {b : Binding σ}
    (hb : b ∈ scope.bindings) : b.Named := by
  obtain ⟨hitems, hjoins⟩ := bind_eq_ok.1 h
  have hfrom := SourceItem.bindAll_spec hitems List.nodup_nil
  rw [List.nil_append] at hfrom
  obtain hb | hb := List.mem_append.1 hb
  · exact hfrom.2 b hb
  · exact (Join.bindAll_spec hjoins hfrom.1).2 b hb

theorem earlier_subset (s : Scope σ) (i : Nat) : s.earlier i ⊆ s.bindings :=
  List.append_subset.2 ⟨List.subset_append_left _ _,
    List.Subset.trans (List.map_subset _ (List.take_subset i _)) (List.subset_append_right _ _)⟩

/-- What the condition of a join can name has another name than this join and those behind it. -/
theorem ne_of_mem_earlier {s : Select σ} {scope : Scope σ} (h : bind s = .ok scope) {i k : Nat}
    (hik : i ≤ k) {j : BoundJoin σ} (hj : scope.joins[k]? = some j) {b : Binding σ}
    (hb : b ∈ scope.earlier i) : b.qualifier ≠ j.binding.qualifier := by
  have hsplit : scope.bindings.map Binding.qualifier
      = (scope.earlier i).map Binding.qualifier
        ++ ((scope.joins.drop i).map BoundJoin.binding).map Binding.qualifier := by
    rw [← List.map_append, earlier, List.append_assoc, ← List.map_append, List.take_append_drop,
      bindings]
  have hnodup := nodup_qualifiers h
  rw [hsplit] at hnodup
  have hdrop : j ∈ scope.joins.drop i := by
    refine List.mem_of_getElem? (i := k - i) ?_
    rw [List.getElem?_drop, Nat.add_sub_cancel' hik, hj]
  exact (List.nodup_append.1 hnodup).2.2 _ (List.mem_map_of_mem hb) _
    (List.mem_map_of_mem (List.mem_map_of_mem hdrop))

end Scope

end SqlAssembly
