import SqlAssembly.Proofs.Clauses
import SqlAssembly.Proofs.NameChecks

/-!
# The names that sources are registered under

Sources whose names are well-formed are bound one after the other exactly if no alias that was asked
for is empty or taken by a source before (`Binding.succeeds_ofSources`). Each is registered under the
alias that was asked for, or else under a fresh one that is made from the table's own name. So the
names that are taken can be told without binding anything (`Binding.names_ofSources`).
-/

namespace SqlAssembly

open SqlAssembly.Except (Succeeds)

variable {σ : Type}

/-! ### Well-formed names -/

namespace Identifier

/-- The identifier consists of well-formed names, or of raw SQL under aliases; it is no record. -/
def WellNamed : Identifier → Prop
  | name s => WellFormedName s
  | aliased base aliasName => WellFormedName aliasName ∧ base.WellNamed
  | literal _ => True
  | record _ => False

theorem recordType?_of_wellNamed {i : Identifier} (h : i.WellNamed) : i.recordType? = none := by
  induction i with
  | name s | literal sql => rfl
  | aliased base aliasName ih => exact ih h.2
  | record t => exact h.elim

theorem asTable_name {s : String} (h : WellFormedName s) {schema : Option String}
    (hschema : ∀ s ∈ schema, WellFormedName s) :
    (name s).asTable schema = .ok ⟨schema, .name s, none⟩ := by
  rw [asTable, checkName_eq_ok.2 h]
  cases schema with
  | none => rfl
  | some schema => simp [checkName_eq_ok.2 (hschema schema rfl)]

theorem succeeds_asTable {i : Identifier} (h : i.WellNamed) {schema : Option String}
    (hschema : ∀ s ∈ schema, WellFormedName s) : Succeeds (i.asTable schema) := by
  induction i with
  | name s => exact ⟨_, asTable_name h hschema⟩
  | aliased base aliasName ih =>
    obtain ⟨t, ht⟩ := ih h.2
    exact ⟨_, by rw [asTable, checkName_eq_ok.2 h.1, ht]; rfl⟩
  | literal sql => exact ⟨_, rfl⟩
  | record t => exact h.elim

end Identifier

/-! ### Sources -/

namespace Source

/-- The alias that was asked for. -/
def alias? : Source σ → Option String
  | table (.aliased _ aliasName) _ => some aliasName
  | table (.name _) _ | table (.literal _) _ | table (.record _) _ => none
  | subquery _ alias? => alias?

/-- What an alias is made from where none was asked for. -/
def baseName : Source σ → String
  | table (.name s) _ => s
  | table (.aliased _ _) _ | table (.literal _) _ | table (.record _) _ | subquery _ _ => "t"

/-- The name of a source where other names are taken. -/
def nameBehind (taken : List String) (s : Source σ) : String :=
  s.alias?.getD (freshAlias s.baseName taken)

/-- The names that are taken behind a source. -/
def register (taken : List String) (s : Source σ) : List String := taken ++ [s.nameBehind taken]

/-- The names that sources are registered under, in order. -/
def names (sources : List (Source σ)) : List String := sources.foldl register []

/-- No alias that was asked for is empty or taken, be it by a source before. -/
def AliasesFree (taken : List String) (sources : List (Source σ)) : Prop :=
  ∀ before s after, sources = before ++ s :: after →
    ∀ a ∈ s.alias?, a ≠ "" ∧ a ∉ before.foldl register taken

/-- The names of the source are well-formed, but for its alias, of which only a NUL is
excluded. -/
def WellNamed : Source σ → Prop
  | table (.aliased base aliasName) schema =>
    '\x00' ∉ aliasName.toList ∧ base.WellNamed ∧ ∀ s ∈ schema, WellFormedName s
  | table name schema => name.WellNamed ∧ ∀ s ∈ schema, WellFormedName s
  | subquery _ _ => True

theorem recordType?_of_wellNamed {s : Source σ} (h : s.WellNamed) : s.recordType? = none := by
  cases s with
  | table name schema =>
    cases name with
    | name s | literal sql => rfl
    | aliased base aliasName => exact Identifier.recordType?_of_wellNamed (i := base) h.2.1
    | record t => exact h.1.elim
  | subquery query alias? => rfl

theorem aliasesFree_cons {taken : List String} {s : Source σ} {ss : List (Source σ)} :
    AliasesFree taken (s :: ss)
      ↔ (∀ a ∈ s.alias?, a ≠ "" ∧ a ∉ taken) ∧ AliasesFree (s.register taken) ss :=
  forall_split_cons

theorem aliasesFree_append {taken : List String} {ss ts : List (Source σ)} :
    AliasesFree taken (ss ++ ts)
      ↔ AliasesFree taken ss ∧ AliasesFree (ss.foldl register taken) ts := by
  induction ss generalizing taken with
  | nil => simp [AliasesFree]
  | cons s ss ih =>
    rw [List.cons_append, aliasesFree_cons, aliasesFree_cons, ih, and_assoc]
    rfl

end Source

/-! ### Binding a source -/

theorem succeeds_claimAlias {aliasName : String} {taken : List String} :
    Succeeds (claimAlias aliasName taken) ↔ aliasName ≠ "" ∧ aliasName ∉ taken := by
  simp only [Except.Succeeds, claimAlias_eq_ok, exists_eq_left]

namespace Binding

section Table

variable {taken : List String} {record : Option RecordType} {schema : Option String}
  {table : SqlName}

/-- A table under an alias is bound exactly if the alias is neither empty nor taken. -/
theorem succeeds_ofTable {aliasName : String} :
    Succeeds (ofTable taken record ⟨schema, table, some aliasName⟩ : Except SqlError (Binding σ))
      ↔ aliasName ≠ "" ∧ aliasName ∉ taken := by
  rw [← succeeds_claimAlias]
  exact Except.succeeds_bind_of_forall fun _ => Except.succeeds_ok _

theorem qualifier_ofTable {aliasName : String} {b : Binding σ}
    (h : ofTable taken record ⟨schema, table, some aliasName⟩ = .ok b) :
    b.qualifier = aliasName := by
  obtain ⟨name, hname, h⟩ := Except.bind_eq_ok.1 h
  obtain ⟨rfl, -, -⟩ := claimAlias_eq_ok.1 hname
  cases h
  split <;> rfl

/-- A table without an alias is bound in any case, under a name that is free. -/
theorem ofTable_name (taken : List String) (record : Option RecordType) (schema : Option String)
    (name : String) :
    ∃ b : Binding σ, ofTable taken record ⟨schema, .name name, none⟩ = .ok b
      ∧ b.qualifier = freshAlias name taken := by
  by_cases hmem : name ∈ taken
  · exact ⟨_, by simp only [ofTable, if_pos hmem]; rfl, rfl⟩
  · exact ⟨_, by simp only [ofTable, if_neg hmem]; rfl, (freshAlias_of_notMem hmem).symm⟩

end Table

variable {taken : List String} {s : Source σ}

/-- A source whose names are well-formed is bound exactly if an alias that was asked for is neither
empty nor taken. -/
theorem succeeds_ofSource (h : s.WellNamed) :
    Succeeds (ofSource taken s) ↔ ∀ a ∈ s.alias?, a ≠ "" ∧ a ∉ taken := by
  cases s with
  | subquery query alias? =>
    cases alias? with
    | none => exact iff_of_true (Except.succeeds_ok _) nofun
    | some aliasName =>
      simp only [Source.alias?, Option.mem_some_iff, forall_eq', ← succeeds_claimAlias]
      exact Except.succeeds_bind_of_forall fun _ => Except.succeeds_ok _
  | table name schema =>
    cases name with
    | name name =>
      obtain ⟨b, hb, -⟩ := ofTable_name (σ := σ) taken none schema name
      refine iff_of_true ⟨b, ?_⟩ nofun
      rw [ofSource, Identifier.asTable_name h.1 h.2]
      exact hb
    | literal sql => exact iff_of_true (Except.succeeds_ok _) nofun
    | record t => exact h.1.elim
    | aliased base aliasName =>
      obtain ⟨hnul, hbase, hschema⟩ := h
      obtain ⟨t, ht⟩ := Identifier.succeeds_asTable hbase hschema
      simp only [Source.alias?, Option.mem_some_iff, forall_eq']
      by_cases hempty : aliasName = ""
      · subst hempty
        exact iff_of_false (Except.not_succeeds_error _) fun h => h.1 rfl
      · have hcheck : checkName .aliasName aliasName = .ok () := checkName_eq_ok.2 ⟨hempty, hnul⟩
        rw [ofSource, Identifier.asTable, hcheck, Except.ok_bind, ht]
        exact succeeds_ofTable

theorem qualifier_ofSource (h : s.WellNamed) {b : Binding σ} (hb : ofSource taken s = .ok b) :
    b.qualifier = s.nameBehind taken := by
  cases s with
  | subquery query alias? =>
    cases alias? with
    | none =>
      cases hb
      rfl
    | some aliasName =>
      obtain ⟨name, hname, hb⟩ := Except.bind_eq_ok.1 hb
      cases hb
      exact (claimAlias_eq_ok.1 hname).1
  | table name schema =>
    cases name with
    | name name =>
      obtain ⟨b', hb', hqualifier⟩ := ofTable_name (σ := σ) taken none schema name
      rw [ofSource, Identifier.asTable_name h.1 h.2] at hb
      have hsame : b' = b := Except.ok.inj (hb'.symm.trans hb)
      rw [← hsame, hqualifier]
      rfl
    | literal sql =>
      cases hb
      rfl
    | record t => exact h.1.elim
    | aliased base aliasName =>
      obtain ⟨t, ht, hb⟩ := Except.bind_eq_ok.1 hb
      obtain ⟨_, -, ht⟩ := Except.bind_eq_ok.1 ht
      obtain ⟨t', -, ht⟩ := Except.bind_eq_ok.1 ht
      cases ht
      exact qualifier_ofTable hb

end Binding

/-! ### Binding sources one after the other -/

namespace Binding

/-- Bind sources one after the other. -/
def ofSources (taken : List String) : List (Source σ) → Except SqlError (List (Binding σ))
  | [] => return []
  | s :: ss => do
    let b ← ofSource taken s
    return b :: (← ofSources (taken ++ [b.qualifier]) ss)

theorem succeeds_ofSources {taken : List String} {sources : List (Source σ)}
    (h : ∀ s ∈ sources, s.WellNamed) :
    Succeeds (ofSources taken sources) ↔ Source.AliasesFree taken sources := by
  induction sources generalizing taken with
  | nil => exact iff_of_true (Except.succeeds_ok _) fun _ _ _ hsplit => by simp at hsplit
  | cons s ss ih =>
    obtain ⟨hs, hss⟩ := List.forall_mem_cons.1 h
    rw [Source.aliasesFree_cons, ← succeeds_ofSource hs, ← ih hss]
    refine Except.succeeds_bind_iff fun b hb => ?_
    rw [qualifier_ofSource hs hb]
    exact Except.succeeds_bind_of_forall fun _ => Except.succeeds_ok _

theorem names_ofSources {taken : List String} {sources : List (Source σ)}
    (h : ∀ s ∈ sources, s.WellNamed) {bindings : List (Binding σ)}
    (hbindings : ofSources taken sources = .ok bindings) :
    taken ++ bindings.map qualifier = sources.foldl Source.register taken := by
  induction sources generalizing taken bindings with
  | nil =>
    cases hbindings
    exact List.append_nil _
  | cons s ss ih =>
    obtain ⟨hs, hss⟩ := List.forall_mem_cons.1 h
    obtain ⟨b, hb, hbindings⟩ := Except.bind_eq_ok.1 hbindings
    obtain ⟨rest, hrest, hbindings⟩ := Except.bind_eq_ok.1 hbindings
    cases hbindings
    rw [List.map_cons, List.append_cons, ih hss hrest, qualifier_ofSource hs hb]
    rfl

end Binding

/-- The source of an entry. -/
def SourceItem.source? : SourceItem σ → Option (Source σ)
  | plain source _ | lateral source _ => some source
  | expressions _ => none

/-- Binding entries binds their sources. -/
theorem SourceItem.map_bindAll (taken : List String) (items : List (SourceItem σ)) :
    (bindAll taken items).map (List.filterMap BoundItem.binding?)
      = Binding.ofSources taken (items.filterMap source?) := by
  induction items generalizing taken with
  | nil => rfl
  | cons i is ih =>
    match i with
    | .plain s columns | .lateral s columns =>
      simp only [List.filterMap_cons, source?, bindAll, Binding.ofSources]
      cases Binding.ofSource taken s with
      | error e => rfl
      | ok b =>
        simp only [Except.ok_bind, ← ih]
        cases bindAll (taken ++ [b.qualifier]) is <;> rfl
    | .expressions columns =>
      simp only [List.filterMap_cons, source?, bindAll, ← ih]
      cases bindAll taken is <;> rfl

/-- Binding joins binds their sources. -/
theorem Join.map_bindAll (taken : List String) (joins : List (Join σ)) :
    (bindAll taken joins).map (List.map BoundJoin.binding)
      = Binding.ofSources taken (joins.map Join.source) := by
  induction joins generalizing taken with
  | nil => rfl
  | cons j js ih =>
    simp only [List.map_cons, bindAll, Binding.ofSources]
    cases Binding.ofSource taken j.source with
    | error e => rfl
    | ok b =>
      simp only [Except.ok_bind, ← ih]
      cases bindAll (taken ++ [b.qualifier]) js <;> rfl

/-! ### The scope of a select -/

namespace Select

/-- The sources of the `FROM` list, lateral ones included, in call order. -/
def fromSources (s : Select σ) : List (Source σ) := s.items.filterMap SourceItem.source?

/-- The sources of a select: those of the `FROM` list, then those that are joined. -/
def sources (s : Select σ) : List (Source σ) := s.fromSources ++ s.joins.map Join.source

end Select

/-- Joins that are bound up to some join are bound alike if the others are left out. -/
theorem Join.bindAll_prefix {taken : List String} {joins : List (Join σ)}
    {before after : List (BoundJoin σ)} (h : bindAll taken joins = .ok (before ++ after)) :
    bindAll taken (before.map BoundJoin.join) = .ok before := by
  induction before generalizing taken joins with
  | nil => rfl
  | cons b before ih =>
    cases joins with
    | nil => cases h
    | cons j js =>
      obtain ⟨binding, hbinding, h⟩ := Except.bind_eq_ok.1 h
      obtain ⟨rest, hrest, h⟩ := Except.bind_eq_ok.1 h
      obtain ⟨rfl, rfl⟩ := List.cons.inj (Except.ok.inj h)
      rw [List.map_cons, bindAll, hbinding, Except.ok_bind, ih hrest]
      rfl

theorem BoundJoin.map_join {joins : List (Join σ)} {bound : List (BoundJoin σ)}
    (h : List.Forall₂ IsOf joins bound) : bound.map join = joins := by
  induction h with
  | nil => rfl
  | cons hj _ ih => rw [List.map_cons, hj.1, ih]

namespace Scope

variable {s : Select σ} (h : ∀ source ∈ s.sources, source.WellNamed)

include h

theorem names_fromBindings {items : List (BoundItem σ)}
    (hitems : SourceItem.bindAll [] s.items = .ok items) :
    (items.filterMap BoundItem.binding?).map Binding.qualifier = Source.names s.fromSources := by
  have hbindings : Binding.ofSources [] s.fromSources
      = .ok (items.filterMap BoundItem.binding?) := by
    rw [Select.fromSources, ← SourceItem.map_bindAll, hitems]
    rfl
  have hnames := Binding.names_ofSources (List.forall_mem_append.1 h).1 hbindings
  rwa [List.nil_append] at hnames

/-- The sources of a select are bound exactly if no alias that was asked for is empty or taken by a
source before. -/
theorem succeeds_bind : Succeeds (bind s) ↔ Source.AliasesFree [] s.sources := by
  obtain ⟨hfrom, hjoined⟩ := List.forall_mem_append.1 h
  rw [Select.sources, Source.aliasesFree_append, ← Binding.succeeds_ofSources hfrom,
    Select.fromSources, ← SourceItem.map_bindAll, Except.succeeds_map]
  refine Except.succeeds_bind_iff fun items hitems => ?_
  rw [names_fromBindings h hitems, ← Select.fromSources, ← Source.names,
    ← Binding.succeeds_ofSources hjoined, ← Join.map_bindAll, Except.succeeds_map]
  exact Except.succeeds_bind_of_forall fun _ => Except.succeeds_ok _

/-- The names that the condition of a join can use are those that the sources before the join are
registered under. -/
theorem names_before {scope : Scope σ} (hbind : bind s = .ok scope)
    {before after : List (BoundJoin σ)} (hsplit : scope.joins = before ++ after) :
    (scope.fromBindings ++ before.map BoundJoin.binding).map Binding.qualifier
      = Source.names (s.fromSources ++ (before.map BoundJoin.join).map Join.source) := by
  obtain ⟨hitems, hjoins⟩ := bind_eq_ok.1 hbind
  have hsubset : before.map BoundJoin.join ⊆ s.joins := by
    rw [← BoundJoin.map_join (forall₂_bind hbind).2, hsplit, List.map_append]
    exact List.subset_append_left ..
  have hwellNamed : ∀ source ∈ (before.map BoundJoin.join).map Join.source, source.WellNamed :=
    fun source hsource => (List.forall_mem_append.1 h).2 source (List.map_subset _ hsubset hsource)
  rw [hsplit] at hjoins
  have hbindings : Binding.ofSources (scope.fromBindings.map Binding.qualifier)
      ((before.map BoundJoin.join).map Join.source) = .ok (before.map BoundJoin.binding) := by
    rw [← Join.map_bindAll, Join.bindAll_prefix hjoins]
    rfl
  have hnames := Binding.names_ofSources hwellNamed hbindings
  rw [List.map_append, hnames, fromBindings, names_fromBindings h hitems, Source.names,
    Source.names, List.foldl_append]

end Scope

end SqlAssembly
