import SqlAssembly.Proofs.ErrorKinds
import SqlAssembly.Proofs.Rendering
import SqlAssembly.Proofs.Writing.Statement

/-!
# The choice of a dialect

Two dialects in which the same pieces show nothing, and which treat the operators of a command
alike, give it the same SQL in pieces, or the same error (`Command.render_congr`). So which of the
built-in dialects is chosen decides how the pieces are spelled and nothing else, except that
`sqlite` refuses `ILIKE` (`Command.assemble_dialects`).
-/

namespace SqlAssembly

variable {σ τ : Type}

/-! ### Operators -/

/-- The operators of a condition, those in open groups included. -/
def Condition.operators (c : Condition σ) : List String := c.pending.map Predicate.operator

/-- The operators of a select, its queries being replaced by their operators. -/
def Select.operators (s : Select (List String)) : List String :=
  s.filter.operators ++ s.having.operators ++ s.queries.flatten

/-- The operators of all predicates in a query. -/
def Query.operators : Query → List String := fold Select.operators

/-- The operators of a statement's own condition; those of a select are its query's. -/
def Statement.ownOperators : Statement → List String
  | update s => s.filter.operators
  | delete s => s.filter.operators
  | select _ | insert _ | literal _ => []

/-- The operators of all predicates in a statement. -/
def Statement.operators (s : Statement) : List String :=
  s.ownOperators ++ s.queries.flatMap Query.operators

/-- The operators of all predicates in a `WITH` statement. -/
def With.operators (s : With) : List String :=
  s.tables.flatMap (fun t => t.statement.operators)
    ++ s.statement.toList.flatMap Statement.operators

/-- The operators of all predicates in a command, at any depth. -/
def Command.operators : Command → List String
  | select s => (Statement.select s).operators
  | insert s => (Statement.insert s).operators
  | update s => (Statement.update s).operators
  | delete s => (Statement.delete s).operators
  | commonTables s => s.operators

@[simp] theorem Condition.operators_map (f : σ → τ) (c : Condition σ) :
    (c.map f).operators = c.operators := by
  rw [operators, pending_map, List.map_map]
  rfl

theorem Query.operators_of (s : Select Query) :
    operators (.of s)
      = s.filter.operators ++ s.having.operators ++ s.queries.flatMap operators := by
  rw [operators, fold_of, Select.operators, Select.queries_map]
  simp [Select.map, List.flatMap]

/-! ### Dialects that agree -/

/-- The same pieces show nothing in both dialects, and each of the operators may be used in both or
meets the same error. -/
structure Dialect.AgreeOn (d d' : Dialect) (operators : List String) : Prop where
  isBlank (p : Piece) : p.isBlank d = p.isBlank d'
  checkIlike : ∀ operator ∈ operators,
    Predicate.checkIlike d operator = Predicate.checkIlike d' operator

namespace Dialect.AgreeOn

variable {d d' : Dialect} {operators operators' : List String}

theorem sql_isBlank (h : d.AgreeOn d' operators) (sql : Sql) : sql.isBlank d = sql.isBlank d' := by
  simp only [Sql.isBlank, funext h.isBlank]

theorem mono (h : d.AgreeOn d' operators) (hsubset : operators' ⊆ operators) :
    d.AgreeOn d' operators' :=
  ⟨h.isBlank, fun operator hoperator => h.checkIlike operator (hsubset hoperator)⟩

theorem append_iff :
    d.AgreeOn d' (operators ++ operators')
      ↔ d.AgreeOn d' operators ∧ d.AgreeOn d' operators' := by
  constructor
  · exact fun h => ⟨h.mono (List.subset_append_left ..), h.mono (List.subset_append_right ..)⟩
  · rintro ⟨h, h'⟩
    exact ⟨h.isBlank, List.forall_mem_append.2 ⟨h.checkIlike, h'.checkIlike⟩⟩

theorem of_mem_flatMap {α : Type} {f : α → List String} {as : List α} {a : α}
    (h : d.AgreeOn d' (as.flatMap f)) (ha : a ∈ as) : d.AgreeOn d' (f a) :=
  h.mono fun _ hoperator => List.mem_flatMap.2 ⟨a, ha, hoperator⟩

end Dialect.AgreeOn

/-! ### Rendering -/

variable {d d' : Dialect} {owner : Option RecordType}

namespace Node

mutual

theorem render_congr {style : ConditionStyle} {n : Node Rendered}
    (h : d.AgreeOn d' (n.predicates.map Predicate.operator)) :
    n.render d owner style = n.render d' owner style := by
  match n with
  | leaf c p =>
    have hcheck := h.checkIlike p.operator (by simp [predicates])
    simp only [render, Predicate.render, hcheck]
  | group c ns => simp only [render, renderAll_congr ns h, h.sql_isBlank]

theorem renderAll_congr {style : ConditionStyle} (ns : List (Node Rendered))
    (h : d.AgreeOn d' ((predicatesAll ns).map Predicate.operator)) :
    renderAll d owner style ns = renderAll d' owner style ns := by
  match ns with
  | [] => rfl
  | n :: ns =>
    rw [predicatesAll, List.map_append, Dialect.AgreeOn.append_iff] at h
    simp only [renderAll, render_congr h.1, renderAll_congr ns h.2]

end

end Node

theorem Condition.renderClause_congr {keyword : String} {c : Condition Rendered}
    (h : d.AgreeOn d' c.operators) :
    c.renderClause keyword d owner = c.renderClause keyword d' owner := by
  rw [operators, pending, List.map_append, Dialect.AgreeOn.append_iff] at h
  simp only [renderClause, render, Node.renderAll_congr _ h.1, h.1.sql_isBlank]

theorem Select.render_congr {s : Select Rendered}
    (h : d.AgreeOn d' (s.filter.operators ++ s.having.operators)) : s.render d = s.render d' := by
  obtain ⟨hfilter, hhaving⟩ := Dialect.AgreeOn.append_iff.1 h
  simp only [render, filterSql, Condition.renderClause_congr hfilter,
    Condition.renderClause_congr hhaving]

theorem Update.render_congr {s : Update Rendered} (h : d.AgreeOn d' s.filter.operators) :
    s.render d = s.render d' := by
  simp only [render, Condition.renderClause_congr h]

theorem Delete.render_congr {s : Delete Rendered} (h : d.AgreeOn d' s.filter.operators) :
    s.render d = s.render d' := by
  simp only [render, Condition.renderClause_congr h]

/-- Dialects that agree on the operators in a query render it alike. -/
theorem Query.render_congr {q : Query} (h : d.AgreeOn d' q.operators) :
    q.render d = q.render d' := by
  induction q using Query.induction with
  | step s ih =>
    rw [operators_of, Dialect.AgreeOn.append_iff] at h
    have hqueries : s.map (render d) = s.map (render d') :=
      Select.map_congr fun q hq => ih q hq (h.2.of_mem_flatMap hq)
    rw [render_of, render_of, hqueries]
    exact Select.render_congr (by simpa [Select.map] using h.1)

theorem Statement.render_congr {s : Statement} (h : d.AgreeOn d' s.operators) :
    s.render d = s.render d' := by
  obtain ⟨hown, hqueries⟩ := Dialect.AgreeOn.append_iff.1 h
  have hq : ∀ q ∈ s.queries, q.render d = q.render d' :=
    fun q hq => Query.render_congr (hqueries.of_mem_flatMap hq)
  cases s with
  | select s => exact hq (.of s) (List.mem_singleton_self _)
  | insert s => simp only [render, Insert.map_congr hq]
  | update s =>
    simp only [render, Update.map_congr hq]
    exact Update.render_congr (by simpa [Update.map, ownOperators] using hown)
  | delete s =>
    simp only [render, Delete.map_congr hq]
    exact Delete.render_congr (by simpa [Delete.map, ownOperators] using hown)
  | literal sql => rfl

/-- Dialects that agree on the operators in a command render it alike. -/
theorem Command.render_congr {c : Command} (h : d.AgreeOn d' c.operators) :
    c.render d = c.render d' := by
  refine render_eq_of_parts fun s hs => Statement.render_congr (h.mono ?_)
  cases c with
  | select s | insert s | update s | delete s =>
    rw [List.mem_singleton.1 hs]
    exact List.Subset.refl _
  | commonTables w =>
    intro operator hoperator
    obtain hs | hs := List.mem_append.1 hs
    · obtain ⟨t, ht, rfl⟩ := List.mem_map.1 hs
      exact List.mem_append_left _ (List.mem_flatMap.2 ⟨t, ht, hoperator⟩)
    · exact List.mem_append_right _ (List.mem_flatMap.2 ⟨s, hs, hoperator⟩)

/-! ### The built-in dialects -/

/-- Where the quoting is the same and no cast is empty, the same pieces show nothing. -/
theorem Dialect.isBlank_eq (hquote : d.quoteIdentifier = d'.quoteIdentifier)
    (hcast : ∀ expr type, d.cast expr type ≠ "") (hcast' : ∀ expr type, d'.cast expr type ≠ "")
    (p : Piece) : p.isBlank d = p.isBlank d' := by
  cases p with
  | text s => rfl
  | name s => simp only [Piece.isBlank, Piece.spell, hquote]
  | param v => rfl
  | column expr cast =>
    cases cast with
    | none => cases expr <;> simp only [Piece.isBlank, Piece.spell, ColumnExpr.spell, hquote]
    | some type =>
      have hshown (text : String) (htext : text ≠ "") : text.isEmpty = false := by simpa using htext
      simp only [Piece.isBlank, Piece.spell, hshown _ (hcast _ _), hshown _ (hcast' _ _)]

theorem standardCast_ne_empty (expr type : String) : standardCast expr type ≠ "" := by
  simp [standardCast, String.append_eq_empty_iff]

theorem Dialect.postgres_cast_ne_empty (expr type : String) : postgres.cast expr type ≠ "" := by
  simp [postgres, String.append_eq_empty_iff]

/-- Where `ILIKE` is supported every operator may be used. -/
theorem Predicate.checkIlike_of_supportsIlike (h : d.supportsIlike = true) (operator : String) :
    checkIlike d operator = .ok () := by
  simp [checkIlike, h]

/-- An operator without the word `ILIKE` may be used everywhere. -/
theorem Predicate.checkIlike_of_not_usesIlike {operator : String} (h : usesIlike operator = false)
    (d : Dialect) : checkIlike d operator = .ok () := by
  simp [checkIlike, h]

theorem Dialect.generic_agreeOn_postgres (operators : List String) :
    generic.AgreeOn postgres operators where
  isBlank := isBlank_eq rfl standardCast_ne_empty postgres_cast_ne_empty
  checkIlike operator _ :=
    (Predicate.checkIlike_of_supportsIlike rfl operator).trans
      (Predicate.checkIlike_of_supportsIlike rfl operator).symm

theorem Dialect.sqlite_agreeOn_generic {operators : List String}
    (h : ∀ operator ∈ operators, Predicate.usesIlike operator = false) :
    sqlite.AgreeOn generic operators where
  isBlank := isBlank_eq rfl standardCast_ne_empty standardCast_ne_empty
  checkIlike operator hoperator :=
    (Predicate.checkIlike_of_not_usesIlike (h operator hoperator) _).trans
      (Predicate.checkIlike_of_not_usesIlike (h operator hoperator) _).symm

/-- The dialects `sqlite` and `generic` spell everything alike. -/
theorem Dialect.sqlite_spell (sql : Sql) : sqlite.spell sql = generic.spell sql := by
  have hpiece (k : Nat) (p : Piece) : p.spell sqlite k = p.spell generic k := by
    match p with
    | .text _ | .name _ | .param _ => rfl
    | .column (.raw _) none | .column (.path ..) none => rfl
    | .column (.raw _) (some _) | .column (.path ..) (some _) => rfl
  have hsql (k : Nat) : sql.spell sqlite k = sql.spell generic k := by
    induction sql generalizing k with
    | nil => rfl
    | cons p ps ih => rw [Sql.spell_cons, Sql.spell_cons, hpiece, ih]
  exact hsql 0

/-! ### Commands in a chosen dialect -/

namespace Command

/-- The command in another dialect. -/
def withDialect (d : Dialect) : Command → Command
  | select s => .select { s with dialect := d }
  | insert s => .insert { s with dialect := d }
  | update s => .update { s with dialect := d }
  | delete s => .delete { s with dialect := d }
  | commonTables s => .commonTables { s with dialect := d }

theorem dialect_withDialect (d : Dialect) (c : Command) : (c.withDialect d).dialect = d := by
  cases c <;> rfl

theorem render_withDialect (d d' : Dialect) (c : Command) :
    (c.withDialect d).render d' = c.render d' := by
  cases c with
  | select s =>
    have hselect : Query.render d' (.of { s with dialect := d }) = Query.render d' (.of s) := by
      rw [Query.render_of, Query.render_of]
      rfl
    exact hselect
  | _ => rfl

theorem assemble_withDialect (d : Dialect) (c : Command) :
    (c.withDialect d).assemble = (c.render d).map fun sql => ⟨d.spell sql, sql.values⟩ := by
  rw [assemble_eq, dialect_withDialect, render_withDialect]

/-- The dialects `generic` and `postgres` give the same values or the same error; `sqlite` gives
exactly what `generic` does unless a condition uses `ILIKE`; and a built command fails with an error
about the dialect only where `ILIKE` is not supported. -/
theorem assemble_dialects (c : Command) :
    (c.withDialect .generic).assemble.map Assembled.values
        = (c.withDialect .postgres).assemble.map Assembled.values
      ∧ ((∀ operator ∈ c.operators, Predicate.usesIlike operator = false) →
          (c.withDialect .sqlite).assemble = (c.withDialect .generic).assemble)
      ∧ (c.IsBuilt → ∀ d : Dialect, d.supportsIlike = true →
          ∀ e, (c.withDialect d).assemble = .error e → e.kind ≠ .dialect) := by
  simp only [assemble_withDialect]
  refine ⟨?_, fun hoperators => ?_, fun hbuilt d hilike => ?_⟩
  · rw [render_congr (Dialect.generic_agreeOn_postgres c.operators)]
    cases c.render .postgres <;> rfl
  · rw [render_congr (Dialect.sqlite_agreeOn_generic hoperators), funext Dialect.sqlite_spell]
  · exact (sparesDialect_render hilike hbuilt).map _

/-- The names of former members: those that are like a pattern. -/
def formerNames : Query :=
  .of (.build .generic [
    .source (.table (.name "former") none) (.list [{ name := .name "name" }]),
    .filter (.add .and { name := .name "name" } "LIKE" (.value (.text "A%")))])

/-- A record of people. -/
def person : RecordType := ({ table := "person" } : RecordType).declare "name" "full_name"

/-- An update by an instance, of the rows whose name is one of a query. -/
def renamed : Command :=
  .update (.build .generic [
    .record (RecordInstance.set { type := person } "name" .null).row,
    .filter (.openGroup .and),
    .filter (.add .and { name := .name "name" } "IN" (.subquery formerNames)),
    .filter .closeGroup])

theorem isBuilt_renamed : renamed.IsBuilt := by
  refine .update _ _ (fun call hcall e he => ?_) (List.forall_mem_singleton.2 (.build _ _ ?_))
  · have hset := RecordInstance.kind_error_foldl_set person [("name", .null)]
    simp only [List.mem_cons, List.not_mem_nil, or_false] at hcall
    obtain rfl | rfl | rfl | rfl := hcall
    · exact fun h => absurd ((hset e he).symm.trans h) (by decide)
    · cases he
    · cases he
    · cases he
  · exact fun q hq => nomatch hq

theorem assemble_dialects_renamed :
    renamed.operators = ["IN", "LIKE"]
      ∧ (renamed.withDialect .sqlite).assemble = (renamed.withDialect .generic).assemble
      ∧ ∀ e, (renamed.withDialect .postgres).assemble = .error e → e.kind ≠ .dialect := by
  have hoperators : renamed.operators = ["IN", "LIKE"] := rfl
  obtain ⟨-, hsqlite, hkind⟩ := assemble_dialects renamed
  refine ⟨hoperators, hsqlite ?_, hkind isBuilt_renamed .postgres rfl⟩
  rw [hoperators]
  decide

end Command

end SqlAssembly
