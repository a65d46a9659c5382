import SqlAssembly.Proofs.Bindings
import SqlAssembly.Proofs.Building
import SqlAssembly.Proofs.Query.Nested
import SqlAssembly.Proofs.Rendering

/-!
# When clauses can be rendered

A clause of a select can be rendered exactly if each part of it can: each field, each condition of a
join, and each query inside. So can the whole select, once it passes its checks and its sources are
bound (`Select.succeeds_render`). A query in a part of a statement is in a clause that is rendered,
or the statement fails.
-/

namespace SqlAssembly

variable {σ : Type} {d : Dialect} {owner : Option RecordType}

open SqlAssembly.Except (Succeeds)

/-! ### Fields and columns -/

/-- A field can be written exactly if it can be resolved. -/
theorem Field.succeeds_sql {f : Field} : Succeeds (f.sql owner) ↔ Succeeds (f.resolve owner) := by
  refine Except.succeeds_bind_of_forall fun r => ?_
  unfold FieldRef.sql columnSql
  cases r.alias? <;> exact Except.succeeds_ok _

/-- A column can be written, wherever it comes from, exactly if its name can be read and the alias
that it gets is well-formed. -/
theorem Column.succeeds_sql {table schema : Option String} {c : Column} :
    Succeeds (c.sql owner table schema)
      ↔ ∃ name alias?, c.name.asColumn owner = .ok (name, alias?)
        ∧ ∀ a ∈ c.alias?.or alias?, checkName .aliasName a = .ok () := by
  have hform (name : SqlName) (alias? : Option String) :
      Succeeds (columnSql name (ColumnForm.of c.cast alias?) table schema) := by
    cases c.cast <;> cases alias? <;> exact Except.succeeds_ok _
  unfold sql
  rw [Except.succeeds_bind, Prod.exists]
  refine exists₂_congr fun name alias? => and_congr_right fun _ => ?_
  cases h : c.alias?.or alias? with
  | none => simpa [h] using hform name none
  | some a =>
    simp only [h, Option.mem_some_iff, forall_eq', ← Except.succeeds_unit]
    exact Except.succeeds_bind_of_forall fun _ => hform name (some a)

/-! ### Conditions -/

/-- The fields in an operand. -/
def Operand.fields : Operand σ → List Field
  | field f => [f]
  | absent | value _ | literal _ | subquery _ => []

/-- The fields in a predicate. -/
def Predicate.fields (p : Predicate σ) : List Field := p.field :: p.operand.fields

/-- The operator of a predicate is allowed and its fields can be written. -/
def Predicate.Fits (d : Dialect) (owner : Option RecordType) (p : Predicate σ) : Prop :=
  checkIlike d p.operator = .ok () ∧ ∀ f ∈ p.fields, Succeeds (f.sql owner)

/-- An operand can be rendered exactly if the field or the query in it can. -/
theorem Operand.succeeds_render {o : Operand Rendered} :
    Succeeds (o.render owner)
      ↔ (∀ f ∈ o.fields, Succeeds (f.sql owner)) ∧ ∀ q ∈ o.queries, Succeeds q := by
  cases o with
  | absent | value v | literal sql => simp [render, fields, queries]
  | field f =>
    have hrender : Succeeds ((Operand.field f).render owner) ↔ Succeeds (f.sql owner) :=
      Except.succeeds_bind_of_forall fun _ => Except.succeeds_ok _
    simpa [fields, queries] using hrender
  | subquery q =>
    have hrender : Succeeds ((Operand.subquery q).render owner) ↔ Succeeds q :=
      Except.succeeds_bind_of_forall fun _ => Except.succeeds_ok _
    simpa [fields, queries] using hrender

/-- A predicate can be rendered exactly if it fits and the query in it can be rendered. -/
theorem Predicate.succeeds_render {p : Predicate Rendered} :
    Succeeds (p.render d owner) ↔ p.Fits d owner ∧ ∀ q ∈ p.operand.queries, Succeeds q := by
  rw [Fits, fields, List.forall_mem_cons, and_assoc, and_assoc, ← Operand.succeeds_render,
    ← Except.succeeds_unit]
  refine Except.succeeds_bind_iff fun _ _ => ?_
  refine Except.succeeds_bind_iff fun _ _ => ?_
  exact Except.succeeds_bind_of_forall fun _ => Except.succeeds_ok _

namespace Node

mutual

theorem succeeds_render (style : ConditionStyle) (n : Node Rendered) :
    Succeeds (n.render d owner style) ↔ ∀ p ∈ n.predicates, Succeeds (p.render d owner) := by
  match n with
  | leaf c p =>
    rw [render, predicates, List.forall_mem_singleton]
    exact Except.succeeds_bind_of_forall fun _ => Except.succeeds_ok _
  | group c ns =>
    rw [render, predicates, ← succeeds_renderAll style ns]
    exact Except.succeeds_bind_of_forall fun _ => Except.succeeds_ok _

/-- Nodes can be rendered exactly if all predicates in them can. -/
theorem succeeds_renderAll (style : ConditionStyle) (ns : List (Node Rendered)) :
    Succeeds (renderAll d owner style ns)
      ↔ ∀ p ∈ predicatesAll ns, Succeeds (p.render d owner) := by
  match ns with
  | [] => simp [renderAll, predicatesAll]
  | n :: ns =>
    rw [renderAll, predicatesAll, List.forall_mem_append, ← succeeds_render style n,
      ← succeeds_renderAll style ns]
    refine Except.succeeds_bind_iff fun _ _ => ?_
    exact Except.succeeds_bind_of_forall fun _ => Except.succeeds_ok _

end

mutual

theorem queries_eq (n : Node σ) : n.queries = n.predicates.flatMap fun p => p.operand.queries := by
  match n with
  | leaf c p => exact (List.append_nil _).symm
  | group c ns => exact queriesAll_eq ns

/-- The queries of nodes are those of the predicates in them. -/
theorem queriesAll_eq (ns : List (Node σ)) :
    queriesAll ns = (predicatesAll ns).flatMap fun p => p.operand.queries := by
  match ns with
  | [] => rfl
  | n :: ns =>
    rw [queriesAll, predicatesAll, List.flatMap_append, queries_eq n, queriesAll_eq ns]

end

end Node

namespace Condition

/-- The predicates of a condition whose groups are balanced are all in its tree. -/
theorem pending_eq {c : Condition σ} (h : c.check = .ok ()) :
    c.pending = Node.predicatesAll c.root := by
  simp [pending, opened_eq_nil h]

theorem mem_queries {c : Condition σ} {q : σ} :
    q ∈ c.queries ↔ ∃ p ∈ c.pending, q ∈ p.operand.queries := by
  simp only [queries, pending, Node.queriesAll_eq, List.mem_append, List.mem_flatMap,
    List.mem_reverse]
  constructor
  · rintro (⟨p, hp, hq⟩ | ⟨g, hg, p, hp, hq⟩)
    · exact ⟨p, .inl hp, hq⟩
    · exact ⟨p, .inr ⟨g, hg, hp⟩, hq⟩
  · rintro ⟨p, hp | ⟨g, hg, hp⟩, hq⟩
    · exact .inl ⟨p, hp, hq⟩
    · exact .inr ⟨g, hg, p, hp, hq⟩

/-- A condition can be rendered exactly if its groups are balanced and its predicates can be
rendered. -/
theorem succeeds_renderClause {keyword : String} {c : Condition Rendered} :
    Succeeds (c.renderClause keyword d owner)
      ↔ c.check = .ok () ∧ ∀ p ∈ c.pending, Succeeds (p.render d owner) := by
  have hrender : Succeeds (c.renderClause keyword d owner) ↔ Succeeds (c.render d owner) :=
    Except.succeeds_bind_of_forall fun _ => Except.succeeds_ok _
  rw [hrender, ← Except.succeeds_unit]
  refine Except.succeeds_bind_iff fun _ hcheck => ?_
  rw [pending_eq hcheck, ← Node.succeeds_renderAll c.style]
  exact Except.succeeds_bind_of_forall fun _ => Except.succeeds_ok _

/-- A condition whose groups are balanced can be rendered exactly if its predicates fit and its
queries can be rendered. -/
theorem succeeds_renderClause_iff {keyword : String} {c : Condition Rendered}
    (hcheck : c.check = .ok ()) :
    Succeeds (c.renderClause keyword d owner)
      ↔ (∀ p ∈ c.pending, p.Fits d owner) ∧ ∀ q ∈ c.queries, Succeeds q := by
  have hqueries : (∀ q ∈ c.queries, Succeeds q)
      ↔ ∀ p ∈ c.pending, ∀ q ∈ p.operand.queries, Succeeds q := by
    simp only [mem_queries, forall_exists_index, and_imp]
    exact ⟨fun h p hp q hq => h q p hp hq, fun h q p hp hq => h p hp q hq⟩
  simp only [succeeds_renderClause, hcheck, true_and, Predicate.succeeds_render, hqueries,
    forall_and]

theorem pending_of_isEmpty {c : Condition σ} (h : c.isEmpty) : c.pending = [] := by
  obtain ⟨style, root, opened, unopened⟩ := c
  simp only [isEmpty, Bool.and_eq_true, List.isEmpty_iff] at h
  obtain ⟨rfl, rfl⟩ := h
  rfl

theorem queries_of_pending {c : Condition σ} (h : c.pending = []) : c.queries = [] := by
  refine List.eq_nil_iff_forall_not_mem.2 fun q hq => ?_
  obtain ⟨p, hp, -⟩ := mem_queries.1 hq
  rw [h] at hp
  cases hp

end Condition

/-! ### Related lists -/

/-- Each element of a list is related to one of the other list. -/
theorem exists_of_forall₂ {α β : Type} {R : α → β → Prop} {as : List α} {bs : List β}
    (h : List.Forall₂ R as bs) : ∀ a ∈ as, ∃ b ∈ bs, R a b := by
  induction h with
  | nil => simp
  | @cons a b as bs hab _ ih =>
    refine List.forall_mem_cons.2 ⟨⟨b, List.mem_cons_self .., hab⟩, fun a ha => ?_⟩
    obtain ⟨b, hb, hab⟩ := ih a ha
    exact ⟨b, List.mem_cons_of_mem _ hb, hab⟩

/-- What related elements have in common holds of all elements of both lists or of neither. -/
theorem forall_mem_iff_of_forall₂ {α β : Type} {R : α → β → Prop} {P : α → Prop} {Q : β → Prop}
    {as : List α} {bs : List β} (h : List.Forall₂ R as bs) (hPQ : ∀ a b, R a b → (P a ↔ Q b)) :
    (∀ a ∈ as, P a) ↔ ∀ b ∈ bs, Q b := by
  induction h with
  | nil => simp
  | cons hab _ ih => rw [List.forall_mem_cons, List.forall_mem_cons, hPQ _ _ hab, ih]

/-! ### Sources -/

/-- The query that a bound source is written as. -/
def SourceBody.queries : SourceBody σ → List σ
  | query q => [q]
  | table _ _ => []

namespace Binding

theorem succeeds_sql {b : Binding Rendered} :
    Succeeds b.sql ↔ ∀ q ∈ b.body.queries, Succeeds q := by
  unfold sql
  cases b.body with
  | table table schema => simp [SourceBody.queries]
  | query q =>
    simp only [SourceBody.queries, List.forall_mem_singleton]
    exact Except.succeeds_bind_of_forall fun _ => Except.succeeds_ok _

/-- The binding is what a source is bound to, whatever names are taken before. -/
def IsOf (b : Binding σ) (s : Source σ) : Prop := ∃ taken, ofSource taken s = .ok b

theorem record_ofTable {taken : List String} {record : Option RecordType} {t : TableRef}
    {b : Binding σ} (hb : ofTable taken record t = .ok b) :
    b.record = record ∧ b.body.queries = [] := by
  obtain ⟨schema, table, alias?⟩ := t
  cases alias? with
  | some aliasName =>
    obtain ⟨name, _, hb⟩ := Except.bind_eq_ok.1 hb
    cases hb
    split <;> exact ⟨rfl, rfl⟩
  | none =>
    cases table with
    | name name =>
      cases hb
      split <;> exact ⟨rfl, rfl⟩
    | raw sql =>
      cases hb
      exact ⟨rfl, rfl⟩

/-- A bound source has the record and the query of the source. -/
theorem IsOf.spec {b : Binding σ} {s : Source σ} (h : b.IsOf s) :
    b.record = s.recordType? ∧ b.body.queries = s.queries := by
  obtain ⟨taken, hb⟩ := h
  cases s with
  | table name schema =>
    obtain ⟨t, _, hb⟩ := Except.bind_eq_ok.1 hb
    exact record_ofTable hb
  | subquery query alias? =>
    cases alias? with
    | some aliasName =>
      obtain ⟨name, _, hb⟩ := Except.bind_eq_ok.1 hb
      cases hb
      exact ⟨rfl, rfl⟩
    | none =>
      cases hb
      exact ⟨rfl, rfl⟩

end Binding

/-- The bound entry has the columns of an entry, and its source if it has one. -/
inductive BoundItem.IsOf : SourceItem σ → BoundItem σ → Prop
  | plain {b : Binding σ} {s : Source σ} (h : b.IsOf s) (columns : Columns) :
      IsOf (.plain s columns) (.source b false columns)
  | lateral {b : Binding σ} {s : Source σ} (h : b.IsOf s) (columns : Columns) :
      IsOf (.lateral s columns) (.source b true columns)
  | expressions (columns : List Column) : IsOf (.expressions columns) (.expressions columns)

/-- The bound join is that of a join, with its source. -/
def BoundJoin.IsOf (j : Join σ) (b : BoundJoin σ) : Prop := b.join = j ∧ b.binding.IsOf j.source

theorem SourceItem.forall₂_bindAll {taken : List String} {items : List (SourceItem σ)}
    {bound : List (BoundItem σ)} (h : bindAll taken items = .ok bound) :
    List.Forall₂ BoundItem.IsOf items bound := by
  induction items generalizing taken bound with
  | nil =>
    cases h
    exact .nil
  | cons i is ih =>
    match i with
    | .plain s columns =>
      obtain ⟨b, hb, h⟩ := Except.bind_eq_ok.1 h
      obtain ⟨rest, hrest, h⟩ := Except.bind_eq_ok.1 h
      cases h
      exact .cons (.plain ⟨taken, hb⟩ columns) (ih hrest)
    | .lateral s columns =>
      obtain ⟨b, hb, h⟩ := Except.bind_eq_ok.1 h
      obtain ⟨rest, hrest, h⟩ := Except.bind_eq_ok.1 h
      cases h
      exact .cons (.lateral ⟨taken, hb⟩ columns) (ih hrest)
    | .expressions columns =>
      obtain ⟨rest, hrest, h⟩ := Except.bind_eq_ok.1 h
      cases h
      exact .cons (.expressions columns) (ih hrest)

theorem Join.forall₂_bindAll {taken : List String} {joins : List (Join σ)}
    {bound : List (BoundJoin σ)} (h : bindAll taken joins = .ok bound) :
    List.Forall₂ BoundJoin.IsOf joins bound := by
  induction joins generalizing taken bound with
  | nil =>
    cases h
    exact .nil
  | cons j js ih =>
    obtain ⟨b, hb, h⟩ := Except.bind_eq_ok.1 h
    obtain ⟨rest, hrest, h⟩ := Except.bind_eq_ok.1 h
    cases h
    exact .cons ⟨rfl, taken, hb⟩ (ih hrest)

/-- The queries of bound entries are those of the entries. -/
theorem BoundItem.queries_eq {items : List (SourceItem σ)} {bound : List (BoundItem σ)}
    (h : List.Forall₂ IsOf items bound) :
    (bound.filterMap binding?).flatMap (fun b => b.body.queries)
      = items.flatMap SourceItem.queries := by
  induction h with
  | nil => rfl
  | cons hi _ ih =>
    rw [List.flatMap_cons, ← ih]
    cases hi with
    | plain hb columns | lateral hb columns =>
      rw [List.filterMap_cons, binding?, List.flatMap_cons, hb.spec.2]
      rfl
    | expressions columns => rfl

theorem BoundJoin.queries_eq {joins : List (Join σ)} {bound : List (BoundJoin σ)}
    (h : List.Forall₂ IsOf joins bound) :
    bound.flatMap (fun j => j.binding.body.queries)
      = joins.flatMap fun j => j.source.queries := by
  induction h with
  | nil => rfl
  | cons hj _ ih => rw [List.flatMap_cons, List.flatMap_cons, ih, hj.2.spec.2]

theorem Scope.forall₂_bind {s : Select σ} {scope : Scope σ} (h : bind s = .ok scope) :
    List.Forall₂ BoundItem.IsOf s.items scope.items
      ∧ List.Forall₂ BoundJoin.IsOf s.joins scope.joins := by
  obtain ⟨hitems, hjoins⟩ := bind_eq_ok.1 h
  exact ⟨SourceItem.forall₂_bindAll hitems, Join.forall₂_bindAll hjoins⟩

theorem BoundItem.mem_sources {items : List (BoundItem σ)} {b : Binding σ} :
    b ∈ items.filterMap binding? ↔ b ∈ sources false items ∨ b ∈ sources true items := by
  induction items with
  | nil => simp [sources]
  | cons i is ih =>
    have hsources (lateral : Bool) : sources lateral (i :: is)
        = sources lateral [i] ++ sources lateral is :=
      List.filterMap_append (l := [i])
    rw [hsources, hsources, List.mem_append, List.mem_append, or_or_or_comm, ← ih,
      List.filterMap_cons]
    cases i with
    | source b' lateral columns => cases lateral <;> simp [sources, binding?]
    | expressions columns => simp [sources, binding?]

/-! ### The select list -/

theorem Binding.succeeds_listSql {b : Binding σ} {qualify : Bool} {columns : Columns} :
    Succeeds (b.listSql qualify columns)
      ↔ ∀ c ∈ columns.listed, Succeeds (c.sql b.record none none) := by
  unfold listSql
  cases columns.listed with
  | nil =>
    simp only [List.not_mem_nil, false_imp_iff, implies_true, iff_true]
    exact Except.succeeds_bind_of_forall (fun _ => Except.succeeds_ok _) |>.2 (Except.succeeds_ok _)
  | cons c cs =>
    cases qualify <;>
      simp only [Bool.false_eq_true, if_false, if_true, Except.succeeds_mapM, Column.succeeds_sql]

/-- A source always adds columns to the select list. -/
theorem Binding.listSql_ne_nil {b : Binding σ} {qualify : Bool} {columns : Columns}
    {parts : List Sql} (h : b.listSql qualify columns = .ok parts) : parts ≠ [] := by
  unfold listSql at h
  cases hlisted : columns.listed with
  | nil =>
    rw [hlisted] at h
    obtain ⟨_, _, h⟩ := Except.bind_eq_ok.1 h
    cases h
    exact List.cons_ne_nil _ _
  | cons c cs =>
    rw [hlisted] at h
    rintro rfl
    cases qualify <;> exact nomatch Except.mapM_eq_ok.1 h

theorem BoundItem.listSql_eq_nil_iff {i : BoundItem σ} {parts : List Sql}
    (h : i.listSql = .ok parts) : parts = [] ↔ i = .expressions [] := by
  cases i with
  | source b lateral columns => simpa using Binding.listSql_ne_nil h
  | expressions columns =>
    have hlength := (Except.mapM_eq_ok.1 h).length_eq
    rw [expressions.injEq, ← List.length_eq_zero_iff, ← List.length_eq_zero_iff, hlength]

/-- Lists that steps give are all empty exactly if each step gives an empty one. -/
theorem flatten_eq_nil_of_mapM {ε α β : Type} {f : α → Except ε (List β)} {P : α → Prop}
    {as : List α} {parts : List (List β)} (hf : ∀ a ∈ as, ∀ bs, f a = .ok bs → (bs = [] ↔ P a))
    (h : as.mapM f = .ok parts) : parts.flatten = [] ↔ ∀ a ∈ as, P a := by
  rw [Except.mapM_eq_ok] at h
  induction h with
  | nil => simp
  | @cons a bs as parts hab _ ih =>
    obtain ⟨ha, has⟩ := List.forall_mem_cons.1 hf
    rw [List.flatten_cons, List.append_eq_nil_iff, List.forall_mem_cons, ha bs hab, ih has]

/-- The columns that a join adds to the select list. -/
def BoundJoin.listSql (j : BoundJoin σ) : Except SqlError (List Sql) :=
  match j.join.columns with
  | none => return []
  | some columns => j.binding.listSql true columns

theorem BoundJoin.succeeds_listSql {j : BoundJoin σ} :
    Succeeds j.listSql
      ↔ ∀ columns ∈ j.join.columns, Succeeds (j.binding.listSql true columns) := by
  unfold listSql
  cases j.join.columns <;> simp

theorem BoundJoin.listSql_eq_nil_iff {j : BoundJoin σ} {parts : List Sql}
    (h : j.listSql = .ok parts) : parts = [] ↔ j.join.columns = none := by
  unfold listSql at h
  cases hcolumns : j.join.columns with
  | none =>
    rw [hcolumns] at h
    cases h
    simp
  | some columns =>
    rw [hcolumns] at h
    simpa using Binding.listSql_ne_nil h

/-- The select list can be written exactly if the columns of each entry and each join can, and there
is one. -/
theorem Scope.succeeds_selectList {s : Scope σ} :
    Succeeds s.selectList ↔
      (∀ i ∈ s.items, Succeeds i.listSql) ∧ (∀ j ∈ s.joins, Succeeds j.listSql)
        ∧ ¬ ((∀ i ∈ s.items, i = .expressions []) ∧ ∀ j ∈ s.joins, j.join.columns = none) := by
  rw [← Except.succeeds_mapM, ← Except.succeeds_mapM]
  refine Except.succeeds_bind_iff fun items hitems => ?_
  refine Except.succeeds_bind_iff fun joins hjoins => ?_
  have hempty : (items ++ joins).flatten = []
      ↔ (∀ i ∈ s.items, i = .expressions []) ∧ ∀ j ∈ s.joins, j.join.columns = none := by
    rw [List.flatten_append, List.append_eq_nil_iff,
      flatten_eq_nil_of_mapM (fun i _ _ => BoundItem.listSql_eq_nil_iff) hitems,
      flatten_eq_nil_of_mapM (fun j _ _ => BoundJoin.listSql_eq_nil_iff) hjoins]
  rw [← hempty]
  cases (items ++ joins).flatten <;> simp

/-! ### Lists with what stands before -/

/-- A property of each element and those before it, for a list with a first element. -/
theorem forall_split_cons {α : Type} {a : α} {as : List α} {P : List α → α → Prop} :
    (∀ before b after, a :: as = before ++ b :: after → P before b)
      ↔ P [] a ∧ ∀ before b after, as = before ++ b :: after → P (a :: before) b := by
  constructor
  · intro h
    refine ⟨h [] a as rfl, fun before b after hsplit => h (a :: before) b after ?_⟩
    rw [hsplit, List.cons_append]
  · rintro ⟨hfirst, hrest⟩ before b after hsplit
    cases before with
    | nil =>
      obtain ⟨rfl, -⟩ := List.cons.inj hsplit
      exact hfirst
    | cons c before =>
      obtain ⟨rfl, htail⟩ := List.cons.inj hsplit
      exact hrest before b after htail

/-- A property of each element and those before it, for a list whose elements are changed. -/
theorem forall_split_map {α β : Type} (f : α → β) {as : List α} {P : List β → β → Prop} :
    (∀ before b after, as.map f = before ++ b :: after → P before b)
      ↔ ∀ before a after, as = before ++ a :: after → P (before.map f) (f a) := by
  induction as generalizing P with
  | nil => simp
  | cons a as ih => rw [List.map_cons, forall_split_cons, forall_split_cons, ih]; rfl

/-! ### The clauses of a select -/

namespace Select

/-- The `FROM` list can be rendered exactly if each source can. -/
theorem succeeds_fromSql {items : List (BoundItem Rendered)} :
    Succeeds (fromSql items) ↔ ∀ b ∈ items.filterMap BoundItem.binding?, Succeeds b.sql := by
  have hlateral : Succeeds ((BoundItem.sources true items).mapM fun b : Binding Rendered =>
        (do return Sql.text "LATERAL " ++ (← b.sql) : Rendered))
      ↔ ∀ b ∈ BoundItem.sources true items, Succeeds b.sql := by
    rw [Except.succeeds_mapM]
    refine forall₂_congr fun b _ => ?_
    exact Except.succeeds_bind_of_forall fun _ => Except.succeeds_ok _
  have hall : Succeeds (fromSql items)
      ↔ (∀ b ∈ BoundItem.sources false items, Succeeds b.sql)
        ∧ ∀ b ∈ BoundItem.sources true items, Succeeds b.sql := by
    rw [← Except.succeeds_mapM, ← hlateral]
    refine Except.succeeds_bind_iff fun plain _ => Except.succeeds_bind_of_forall fun lateral => ?_
    cases plain ++ lateral <;> exact Except.succeeds_ok _
  simp only [hall, BoundItem.mem_sources, or_imp, forall_and]

/-- Joins can be rendered exactly if each joined source can, and each condition behind the sources
before it. -/
theorem succeeds_joinsSql {prior : List (Binding Rendered)} {joins : List (BoundJoin Rendered)} :
    Succeeds (joinsSql prior joins) ↔
      ∀ before j after, joins = before ++ j :: after →
        Succeeds j.binding.sql
          ∧ Succeeds (joinOnSql (prior ++ before.map BoundJoin.binding) j) := by
  induction joins generalizing prior with
  | nil => simp [joinsSql]
  | cons j js ih =>
    have hfirst : Succeeds (joinSql prior j)
        ↔ Succeeds j.binding.sql ∧ Succeeds (joinOnSql prior j) := by
      refine Except.succeeds_bind_iff fun _ _ => ?_
      exact Except.succeeds_bind_of_forall fun _ => Except.succeeds_ok _
    have hall : Succeeds (joinsSql prior (j :: js))
        ↔ Succeeds (joinSql prior j) ∧ Succeeds (joinsSql (prior ++ [j.binding]) js) := by
      refine Except.succeeds_bind_iff fun _ _ => ?_
      exact Except.succeeds_bind_of_forall fun _ => Except.succeeds_ok _
    rw [hall, hfirst, ih, forall_split_cons]
    simp only [List.map_nil, List.append_nil, List.map_cons, List.append_assoc, List.cons_append,
      List.nil_append]

theorem succeeds_memberSql {m : UnionMember Rendered} :
    Succeeds (memberSql m) ↔ (∀ kind, m ≠ .refused kind) ∧ ∀ q ∈ m.queries, Succeeds q := by
  cases m <;> simp [memberSql, UnionMember.queries]

/-- The members of a union can be rendered exactly if each of them can. -/
theorem succeeds_unionsSql (bare : Bool) {unions : List (UnionPart Rendered)} :
    Succeeds (unionsSql bare unions) ↔ ∀ u ∈ unions, Succeeds (memberSql u.member) := by
  induction unions generalizing bare with
  | nil => simp [unionsSql]
  | cons u us ih =>
    rw [List.forall_mem_cons, ← ih false]
    refine Except.succeeds_bind_iff fun _ _ => ?_
    exact Except.succeeds_bind_of_forall fun _ => Except.succeeds_ok _

theorem succeeds_groupBySql {fields : List Field} :
    Succeeds (groupBySql fields) ↔ ∀ f ∈ fields, Succeeds (f.sql none) := by
  cases fields with
  | nil => simp [groupBySql]
  | cons f fs =>
    rw [← Except.succeeds_mapM]
    exact Except.succeeds_bind_of_forall fun _ => Except.succeeds_ok _

theorem succeeds_tailSql {s : Select σ} :
    Succeeds s.tailSql ↔ ∀ p ∈ s.orderBy, Succeeds (p.1.sql none) := by
  have htail : Succeeds s.tailSql ↔ Succeeds (orderBySql s.orderBy) :=
    Except.succeeds_bind_of_forall fun _ => Except.succeeds_ok _
  rw [htail]
  cases s.orderBy with
  | nil => simp [orderBySql]
  | cons p ps =>
    have hstep (p : Field × Direction) :
        Succeeds (do return (← p.1.sql none) ++ Sql.text (" " ++ p.2.keyword) : Rendered)
          ↔ Succeeds (p.1.sql none) :=
      Except.succeeds_bind_of_forall fun _ => Except.succeeds_ok _
    simp only [← hstep, ← Except.succeeds_mapM]
    exact Except.succeeds_bind_of_forall fun _ => Except.succeeds_ok _

/-- The clauses up to the last join can be rendered exactly if the sources can be bound, and the
select list, the `FROM` list and the joins can be rendered. -/
theorem succeeds_headSql {s : Select Rendered} :
    Succeeds s.headSql ↔ ∃ scope, Scope.bind s = .ok scope ∧ Succeeds scope.selectList
      ∧ Succeeds (fromSql scope.items) ∧ Succeeds (joinsSql scope.fromBindings scope.joins) := by
  refine Except.succeeds_bind.trans (exists_congr fun scope => and_congr_right fun _ => ?_)
  refine Except.succeeds_bind_iff fun _ _ => Except.succeeds_bind_iff fun _ _ => ?_
  exact Except.succeeds_bind_of_forall fun _ => Except.succeeds_ok _

theorem succeeds_filterSql {s : Select Rendered} :
    Succeeds (s.filterSql d) ↔ Succeeds (s.filter.renderClause "WHERE" d s.target)
      ∧ Succeeds (groupBySql s.groupBy) ∧ Succeeds (s.having.renderClause "HAVING" d none) := by
  refine Except.succeeds_bind_iff fun _ _ => Except.succeeds_bind_iff fun _ _ => ?_
  exact Except.succeeds_bind_of_forall fun _ => Except.succeeds_ok _

/-- A select can be rendered exactly if it passes its checks and each of its clauses can be
rendered. -/
theorem succeeds_render_iff_clauses {s : Select Rendered} :
    Succeeds (s.render d) ↔
      s.check = .ok () ∧ Succeeds s.tailSql ∧ (∀ u ∈ s.unions, Succeeds (memberSql u.member))
        ∧ (s.items ≠ [] → Succeeds s.headSql ∧ Succeeds (s.filterSql d)) := by
  rw [← Except.succeeds_unit]
  refine Except.succeeds_bind_iff fun _ _ => ?_
  by_cases hitems : s.items = []
  · simp only [hitems, List.isEmpty_nil, if_true, ne_eq, not_true, false_imp_iff, and_true]
    rw [and_comm, ← succeeds_unionsSql true]
    refine Except.succeeds_bind_iff fun _ _ => ?_
    exact Except.succeeds_bind_of_forall fun _ => Except.succeeds_ok _
  · simp only [List.isEmpty_iff, hitems, if_false, ne_eq, not_false_eq_true, true_imp_iff]
    rw [← succeeds_unionsSql false, ← and_assoc, and_comm, and_assoc]
    refine Except.succeeds_bind_iff fun _ _ => Except.succeeds_bind_iff fun _ _ => ?_
    refine Except.succeeds_bind_iff fun _ _ => ?_
    exact Except.succeeds_bind_of_forall fun _ => Except.succeeds_ok _

end Select

/-! ### Selects and their queries -/

namespace Select

/-- What the clauses of a select with entries of its own need, besides that its queries can be
rendered. -/
structure ClausesFit (d : Dialect) (s : Select σ) (scope : Scope σ) : Prop where
  bound : Scope.bind s = .ok scope
  list : Succeeds scope.selectList
  on : ∀ before j after, scope.joins = before ++ j :: after →
    Succeeds (joinOnSql (scope.fromBindings ++ before.map BoundJoin.binding) j)
  filter : ∀ p ∈ s.filter.pending, p.Fits d s.target
  groupBy : ∀ f ∈ s.groupBy, Succeeds (f.sql none)
  having : ∀ p ∈ s.having.pending, p.Fits d none

theorem checkMembers_eq_ok {unions : List (UnionPart σ)} :
    checkMembers unions = .ok () ↔ ∀ u ∈ unions, ∀ kind, u.member ≠ .refused kind := by
  induction unions with
  | nil => simp [checkMembers]
  | cons u us ih =>
    rw [List.forall_mem_cons, ← ih, checkMembers]
    cases u.member <;> simp

/-- A select passes its checks exactly if it keeps no error, the groups of its conditions are
balanced, and its clauses go together. -/
theorem check_eq_ok {s : Select σ} :
    s.check = .ok () ↔
      s.deferred = none ∧ s.filter.check = .ok () ∧ s.having.check = .ok ()
        ∧ (s.items = [] → s.checkBareUnion = .ok ())
        ∧ (s.joins ≠ [] → s.items.any SourceItem.isSource = true)
        ∧ ∀ u ∈ s.unions, ∀ kind, u.member ≠ .refused kind := by
  rw [← checkMembers_eq_ok]
  unfold check
  cases hdeferred : s.deferred with
  | some e => simp
  | none =>
    cases hfilter : s.filter.check with
    | error e => simp
    | ok _ =>
      cases hhaving : s.having.check with
      | error e => simp
      | ok _ =>
        by_cases hitems : s.items = []
        · cases hbare : s.checkBareUnion with
          | error e => simp [hitems]
          | ok _ => by_cases hjoins : s.joins = [] <;> simp [hitems, hjoins]
        · by_cases hjoins : s.joins = []
          · simp [hitems, hjoins]
          · cases hsource : s.items.any SourceItem.isSource <;> simp_all

/-- A bare union that passes its checks has no clause that needs sources. -/
theorem clauses_of_bare {s : Select σ} (hcheck : s.check = .ok ()) (hitems : s.items = []) :
    s.joins = [] ∧ s.filter.pending = [] ∧ s.groupBy = [] ∧ s.having.pending = [] := by
  have hclause : s.hasSourceClause = false := by
    by_contra h
    exact items_ne_nil hcheck (by simpa using h) hitems
  simp only [hasSourceClause, Bool.or_eq_false_iff, Bool.not_eq_false', List.isEmpty_iff] at hclause
  obtain ⟨⟨⟨hjoins, hfilter⟩, hgroupBy⟩, hhaving⟩ := hclause
  exact ⟨hjoins, Condition.pending_of_isEmpty hfilter, hgroupBy,
    Condition.pending_of_isEmpty hhaving⟩

/-- The queries of a bare union are those of its members. -/
theorem queries_of_bare {s : Select σ} (hcheck : s.check = .ok ()) (hitems : s.items = []) :
    s.queries = s.unions.flatMap fun u => u.member.queries := by
  obtain ⟨hjoins, hfilter, -, hhaving⟩ := clauses_of_bare hcheck hitems
  rw [queries, hitems, hjoins, Condition.queries_of_pending hfilter,
    Condition.queries_of_pending hhaving]
  rfl

/-- The members of a union that passes its checks can be rendered exactly if their queries can. -/
theorem succeeds_members {s : Select Rendered} (hcheck : s.check = .ok ()) :
    (∀ u ∈ s.unions, Succeeds (memberSql u.member))
      ↔ ∀ q ∈ s.unions.flatMap (fun u => u.member.queries), Succeeds q := by
  have hmembers := (check_eq_ok.1 hcheck).2.2.2.2.2
  rw [List.forall_mem_flatMap]
  refine forall₂_congr fun u hu => succeeds_memberSql.trans ?_
  exact and_iff_right (hmembers u hu)

/-- The sources of a select can be rendered exactly if their queries can. -/
theorem succeeds_fromSql_bind {s : Select Rendered} {scope : Scope Rendered}
    (hbind : Scope.bind s = .ok scope) :
    Succeeds (fromSql scope.items)
      ↔ ∀ q ∈ s.items.flatMap SourceItem.queries, Succeeds q := by
  rw [← BoundItem.queries_eq (Scope.forall₂_bind hbind).1, succeeds_fromSql,
    List.forall_mem_flatMap]
  exact forall₂_congr fun b _ => Binding.succeeds_sql

/-- The joins of a select can be rendered exactly if their queries can, and each condition behind
the sources before it. -/
theorem succeeds_joinsSql_bind {s : Select Rendered} {scope : Scope Rendered}
    (hbind : Scope.bind s = .ok scope) :
    Succeeds (joinsSql scope.fromBindings scope.joins)
      ↔ (∀ q ∈ s.joins.flatMap (fun j => j.source.queries), Succeeds q)
        ∧ ∀ before j after, scope.joins = before ++ j :: after →
          Succeeds (joinOnSql (scope.fromBindings ++ before.map BoundJoin.binding) j) := by
  rw [← BoundJoin.queries_eq (Scope.forall₂_bind hbind).2, succeeds_joinsSql,
    List.forall_mem_flatMap]
  simp only [Binding.succeeds_sql]
  constructor
  · intro h
    refine ⟨fun j hj => ?_, fun before j after hsplit => (h before j after hsplit).2⟩
    obtain ⟨before, after, hsplit⟩ := List.append_of_mem hj
    exact (h before j after hsplit).1
  · rintro ⟨hqueries, hon⟩ before j after hsplit
    refine ⟨hqueries j ?_, hon before j after hsplit⟩
    rw [hsplit]
    exact List.mem_append_right _ (List.mem_cons_self ..)

/-- A select can be rendered exactly if it passes its checks, its clauses fit, and its queries can
be rendered. -/
theorem succeeds_render {s : Select Rendered} :
    Succeeds (s.render d) ↔
      s.check = .ok () ∧ (∀ p ∈ s.orderBy, Succeeds (p.1.sql none))
        ∧ (s.items ≠ [] → ∃ scope, s.ClausesFit d scope) ∧ ∀ q ∈ s.queries, Succeeds q := by
  rw [succeeds_render_iff_clauses, succeeds_tailSql]
  refine and_congr_right fun hcheck => and_congr_right fun _ => ?_
  rw [succeeds_members hcheck, and_comm]
  by_cases hitems : s.items = []
  · simp only [hitems, ne_eq, not_true, false_imp_iff, true_and, queries_of_bare hcheck hitems]
  · obtain ⟨-, hfilter, hhaving, -⟩ := check_eq_ok.1 hcheck
    simp only [ne_eq, hitems, not_false_eq_true, true_imp_iff, queries, List.forall_mem_append,
      succeeds_headSql, succeeds_filterSql, succeeds_groupBySql,
      Condition.succeeds_renderClause_iff hfilter, Condition.succeeds_renderClause_iff hhaving]
    constructor
    · rintro ⟨⟨⟨scope, hbind, hlist, hfrom, hjoins⟩, ⟨hfilter, hfilterQueries⟩, hgroupBy,
        ⟨hhaving, hhavingQueries⟩⟩, hmembers⟩
      obtain ⟨hjoinQueries, hon⟩ := (succeeds_joinsSql_bind hbind).1 hjoins
      have hitemQueries := (succeeds_fromSql_bind hbind).1 hfrom
      exact ⟨⟨scope, hbind, hlist, hon, hfilter, hgroupBy, hhaving⟩,
        ⟨⟨⟨hitemQueries, hjoinQueries⟩, hfilterQueries⟩, hhavingQueries⟩, hmembers⟩
    · rintro ⟨⟨scope, hfit⟩, ⟨⟨⟨hitemQueries, hjoinQueries⟩, hfilterQueries⟩, hhavingQueries⟩,
        hmembers⟩
      have hfrom := (succeeds_fromSql_bind hfit.bound).2 hitemQueries
      have hjoins := (succeeds_joinsSql_bind hfit.bound).2 ⟨hjoinQueries, hfit.on⟩
      exact ⟨⟨⟨scope, hfit.bound, hfit.list, hfrom, hjoins⟩, ⟨hfit.filter, hfilterQueries⟩,
        hfit.groupBy, ⟨hfit.having, hhavingQueries⟩⟩, hmembers⟩

end Select

end SqlAssembly
