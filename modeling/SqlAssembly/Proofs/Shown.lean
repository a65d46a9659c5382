import SqlAssembly.Proofs.Filters
import SqlAssembly.Proofs.Readings

/-!
# What stands in a statement

The parts that a statement is built from stand in its SQL as they are rendered on their own
(`Sql.Shows`): each predicate of a condition between its marks, each value of a row or of an
assignment that counts, and the clauses of a select.
-/

namespace SqlAssembly

variable {d : Dialect} {owner : Option RecordType}

/-! ### What stands in SQL -/

namespace Sql

/-- Whether a part stands in SQL. A part that shows nothing may be left out. -/
def Shows (d : Dialect) (sql part : Sql) : Prop := part <:+: sql ∨ part.isBlank d

theorem Shows.refl (sql : Sql) : Shows d sql sql := .inl (List.infix_refl sql)

theorem isBlank_of_isInfix {part sql : Sql} (h : part <:+: sql) (hblank : sql.isBlank d) :
    part.isBlank d := by
  obtain ⟨before, behind, rfl⟩ := h
  simp only [isBlank_append, Bool.and_eq_true] at hblank
  exact hblank.1.2

theorem Shows.trans {whole sql part : Sql} (h : Shows d whole sql) (hpart : Shows d sql part) :
    Shows d whole part := by
  rcases hpart with hpart | hblank
  · rcases h with h | hblank
    · exact .inl (hpart.trans h)
    · exact .inr (isBlank_of_isInfix hpart hblank)
  · exact .inr hblank

theorem shows_append_left (a b : Sql) : Shows d (a ++ b) a := .inl (List.prefix_append a b).isInfix

theorem shows_append_right (a b : Sql) : Shows d (a ++ b) b := .inl (List.suffix_append a b).isInfix

theorem shows_join {separator : String} {part : Sql} {parts : List Sql} (h : part ∈ parts) :
    Shows d (join separator parts) part := by
  induction parts with
  | nil => simp at h
  | cons p ps ih =>
    rcases List.mem_cons.1 h with rfl | h
    · cases ps with
      | nil => exact .inl (by simp [join])
      | cons q qs =>
        rw [join, List.intercalate_cons_cons]
        exact (shows_append_left _ _).trans (shows_append_left _ _)
    · cases ps with
      | nil => simp at h
      | cons q qs =>
        rw [join, List.intercalate_cons_cons]
        exact (shows_append_right _ _).trans (ih h)

theorem shows_enclosed (marks : String × String) (sql : Sql) : Shows d (enclosed marks sql) sql :=
  (shows_append_left _ _).trans (shows_append_right _ _)

theorem shows_parenthesized (sql : Sql) : Shows d (parenthesized sql) sql :=
  shows_enclosed ("(", ")") sql

/-- The text of a part that binds nothing is found in the text of the whole, wherever that
stands. -/
theorem Shows.exists_spell {sql part : Sql} (h : Shows d sql part) (hvalues : part.values = [])
    (k : Nat) : ∃ before behind, Sql.spell d k sql = before ++ d.spell part ++ behind := by
  rcases h with ⟨before, behind, rfl⟩ | hblank
  · refine ⟨Sql.spell d k before, Sql.spell d (k + (values before).length) behind, ?_⟩
    rw [spell_append, spell_append, spell_of_values_eq_nil hvalues]
    simp [hvalues]
  · have hempty : d.spell part = "" := by
      have hdefinite := isDefinite_of_values_eq_nil (d := d) hvalues 0
      rwa [hblank, String.isEmpty_iff] at hdefinite
    exact ⟨"", Sql.spell d k sql, by simp [hempty]⟩

end Sql

/-! ### Conditions -/

namespace Node

theorem shows_joinSiblings (p : Connector × Sql) (ps : List (Connector × Sql)) :
    (joinSiblings (p :: ps)).Shows d p.2 ∧ (joinSiblings (p :: ps)).Shows d (joinSiblings ps) := by
  refine ⟨Sql.shows_append_left _ _, ?_⟩
  cases ps with
  | nil => exact .inr rfl
  | cons q qs =>
    refine (Sql.shows_append_right p.2 _).trans ?_
    rw [List.flatMap_cons, List.append_assoc]
    exact Sql.shows_append_right _ _

mutual

/-- The predicates of a node stand in its SQL; those of a group that is left out show nothing. -/
theorem shows_predicates {style : ConditionStyle} {n : Node Rendered} {sql : Option Sql}
    (h : n.render d owner style = .ok sql) :
    ∀ p ∈ n.predicates, ∃ part, p.render d owner = .ok part
      ∧ (sql.getD []).Shows d (Sql.enclosed style.predicateMarks part) := by
  match n with
  | leaf c p =>
    obtain ⟨part, hpart, h⟩ := Except.bind_eq_ok.1 (by simpa only [render] using h)
    cases h
    exact List.forall_mem_singleton.2 ⟨part, hpart, Sql.Shows.refl _⟩
  | group c ns =>
    obtain ⟨parts, hparts, h⟩ := Except.bind_eq_ok.1 (by simpa only [render] using h)
    intro p hp
    obtain ⟨part, hpart, hshows⟩ := shows_predicatesAll hparts p hp
    refine ⟨part, hpart, Sql.Shows.trans ?_ hshows⟩
    cases hblank : (joinSiblings parts).isBlank d with
    | true => exact .inr hblank
    | false =>
      rw [if_neg (by simp [hblank])] at h
      cases h
      exact Sql.shows_enclosed _ _

theorem shows_predicatesAll {style : ConditionStyle} {ns : List (Node Rendered)}
    {parts : List (Connector × Sql)} (h : renderAll d owner style ns = .ok parts) :
    ∀ p ∈ predicatesAll ns, ∃ part, p.render d owner = .ok part
      ∧ (joinSiblings parts).Shows d (Sql.enclosed style.predicateMarks part) := by
  match ns with
  | [] => simp [predicatesAll]
  | n :: ns =>
    obtain ⟨first, hfirst, h⟩ := Except.bind_eq_ok.1 (by simpa only [renderAll] using h)
    obtain ⟨rest, hrest, h⟩ := Except.bind_eq_ok.1 h
    cases h
    refine List.forall_mem_append.2 ⟨fun p hp => ?_, fun p hp => ?_⟩
    · obtain ⟨part, hpart, hshows⟩ := shows_predicates hfirst p hp
      refine ⟨part, hpart, Sql.Shows.trans ?_ hshows⟩
      cases first with
      | none => exact .inr rfl
      | some sql => exact (shows_joinSiblings (n.connector, sql) rest).1
    · obtain ⟨part, hpart, hshows⟩ := shows_predicatesAll hrest p hp
      refine ⟨part, hpart, Sql.Shows.trans ?_ hshows⟩
      cases first with
      | none => exact Sql.Shows.refl _
      | some sql => exact (shows_joinSiblings (n.connector, sql) rest).2

end

end Node

/-- The predicates of a condition stand in SQL, between their marks. -/
def Condition.ShownIn (d : Dialect) (owner : Option RecordType) (sql : Sql)
    (c : Condition Rendered) : Prop :=
  ∀ p ∈ c.pending, ∃ part, p.render d owner = .ok part
    ∧ sql.Shows d (Sql.enclosed c.style.predicateMarks part)

theorem Condition.ShownIn.of_shows {c : Condition Rendered} {whole sql : Sql}
    (hwhole : whole.Shows d sql) (h : c.ShownIn d owner sql) : c.ShownIn d owner whole := by
  intro p hp
  obtain ⟨part, hpart, hshows⟩ := h p hp
  exact ⟨part, hpart, hwhole.trans hshows⟩

/-- A condition stands in its clause. -/
theorem Condition.shownIn_clause {keyword : String} {c : Condition Rendered} {clause : Sql}
    (h : c.renderClause keyword d owner = .ok clause) : c.ShownIn d owner clause := by
  obtain ⟨sql, hsql, h⟩ := Except.bind_eq_ok.1 h
  obtain ⟨_, hcheck, hsql⟩ := Except.bind_eq_ok.1 hsql
  obtain ⟨parts, hparts, hsql⟩ := Except.bind_eq_ok.1 hsql
  cases hsql
  have hpending : c.pending = Node.predicatesAll c.root := by
    simp [pending, opened_eq_nil hcheck]
  have hshows : clause.Shows d (Node.joinSiblings parts) := by
    cases hblank : (Node.joinSiblings parts).isBlank d with
    | true => exact .inr hblank
    | false =>
      rw [if_neg (by simp [hblank])] at h
      cases h
      exact Sql.shows_append_right _ _
  intro p hp
  rw [hpending] at hp
  obtain ⟨part, hpart, hparts⟩ := Node.shows_predicatesAll hparts p hp
  exact ⟨part, hpart, hshows.trans hparts⟩

/-! ### Inserts -/

namespace Insert

/-- Each operand of a row is one of its values. -/
theorem mem_of_valuesSql {columns : List String} {number : Nat}
    {operands : List (Operand Rendered)} (hlength : operands.length = columns.length)
    {parts : List Sql} (h : valuesSql owner number columns operands = .ok parts) :
    ∀ o ∈ operands, ∃ sql ∈ parts, o.render owner = .ok (some sql) := by
  induction columns generalizing operands parts with
  | nil =>
    obtain rfl : operands = [] := List.length_eq_zero_iff.1 hlength
    simp
  | cons column columns ih =>
    cases operands with
    | nil => simp
    | cons o os =>
      obtain ⟨sql?, ho, h⟩ := Except.bind_eq_ok.1 h
      cases sql? with
      | none => cases h
      | some sql =>
        obtain ⟨rest, hrest, h⟩ := Except.bind_eq_ok.1 h
        cases h
        refine List.forall_mem_cons.2 ⟨⟨sql, List.mem_cons_self .., ho⟩, fun o' ho' => ?_⟩
        obtain ⟨sql', hmem, hsql'⟩ := ih (by simpa using hlength) hrest o' ho'
        exact ⟨sql', List.mem_cons_of_mem _ hmem, hsql'⟩

/-- The operands of all rows stand in the rows. -/
theorem shows_rows {columns : List String} (hnodup : columns.Nodup) {number : Nat}
    {rows : List (Row Rendered)} {ordered : List (List (Operand Rendered))} {parts : List Sql}
    (hordered : orderRows owner columns number rows = .ok ordered)
    (h : rowsSql owner columns number ordered = .ok parts) :
    ∀ o ∈ rows.flatMap Row.operands, ∃ value, o.render owner = .ok (some value)
      ∧ ∃ part ∈ parts, part.Shows d value := by
  induction rows generalizing number ordered parts with
  | nil => simp
  | cons r rs ih =>
    obtain ⟨operands, hoperands, hordered⟩ := Except.bind_eq_ok.1 hordered
    obtain ⟨rest, hrest, hordered⟩ := Except.bind_eq_ok.1 hordered
    cases hordered
    obtain ⟨first, hfirst, h⟩ := Except.bind_eq_ok.1 h
    obtain ⟨others, hothers, h⟩ := Except.bind_eq_ok.1 h
    cases h
    refine List.forall_mem_append.2 ⟨fun o ho => ?_, fun o ho => ?_⟩
    · have ho := (of_orderRow hnodup hoperands).2 ho
      obtain ⟨value, hmem, hvalue⟩ := mem_of_valuesSql (length_orderRow hoperands) hfirst o ho
      exact ⟨value, hvalue, _, List.mem_cons_self ..,
        (Sql.shows_parenthesized _).trans (Sql.shows_join hmem)⟩
    · obtain ⟨value, hvalue, part, hpart, hshows⟩ := ih hrest hothers o ho
      exact ⟨value, hvalue, part, List.mem_cons_of_mem _ hpart, hshows⟩

/-- The values of the rows stand in the SQL of an insert. -/
theorem shows_operands {s : Insert Rendered} {sql : Sql} (h : s.render = .ok sql) :
    ∀ o ∈ s.rows.flatMap Row.operands, ∃ value,
      o.render (s.target.bind Source.recordType?) = .ok (some value) ∧ sql.Shows d value := by
  obtain ⟨-, source, target, columns, ordered, rows, returning, hsource, -, -, hcolumns, hordered,
    hrows, -, rfl⟩ := render_eq_ok.1 h
  rw [hsource, Option.bind_some]
  intro o ho
  obtain ⟨value, hvalue, part, hpart, hshows⟩ :=
    shows_rows (d := d) (nodup_columns hcolumns) hordered hrows o ho
  refine ⟨value, hvalue, Sql.Shows.trans ?_ hshows⟩
  exact (Sql.shows_append_left _ _).trans <| (Sql.shows_append_right _ _).trans <|
    Sql.shows_join hpart

end Insert

/-! ### Updates and deletes -/

/-- What an update assigns stands in its SQL, each value behind its column. -/
theorem Update.shows_entries {s : Update Rendered} {sql : Sql} (h : s.render d = .ok sql) :
    ∃ source m, s.target = some source ∧ s.merged source.recordType? = .ok m
      ∧ ∀ e ∈ m.entries, ∃ value, e.2.render source.recordType? = .ok (some value)
        ∧ sql.Shows d ([.name e.1, .text "="] ++ value) := by
  obtain ⟨-, -, source, target, m, assignments, filter, returning, hsource, -, hm, hassignments,
    -, -, rfl⟩ := render_eq_ok.1 h
  refine ⟨source, m, hsource, hm, fun e he => ?_⟩
  obtain ⟨part, hpart, hsql⟩ := exists_of_forall₂ (Except.mapM_eq_ok.1 hassignments) e he
  obtain ⟨value?, hvalue, hsql⟩ := Except.bind_eq_ok.1 hsql
  cases value? with
  | none => cases hsql
  | some value =>
    cases hsql
    refine ⟨value, hvalue, ?_⟩
    exact (Sql.shows_append_left _ _).trans <| (Sql.shows_append_left _ _).trans <|
      (Sql.shows_append_right _ _).trans <| Sql.shows_join hpart

/-- The predicates of an update stand in its SQL. -/
theorem Update.shows_filter {s : Update Rendered} {sql : Sql} (h : s.render d = .ok sql) :
    s.filter.ShownIn d (s.target.bind Source.recordType?) sql := by
  obtain ⟨-, -, source, target, m, assignments, filter, returning, hsource, -, -, -, hfilter, -,
    rfl⟩ := render_eq_ok.1 h
  rw [hsource, Option.bind_some]
  refine (Condition.shownIn_clause hfilter).of_shows ?_
  exact (Sql.shows_append_left _ _).trans (Sql.shows_append_right _ _)

/-- The predicates of a delete stand in its SQL. -/
theorem Delete.shows_filter {s : Delete Rendered} {sql : Sql} (h : s.render d = .ok sql) :
    s.filter.ShownIn d (s.target.bind Source.recordType?) sql := by
  obtain ⟨-, source, target, filter, returning, hsource, -, hfilter, -, rfl⟩ := render_eq_ok.1 h
  rw [hsource, Option.bind_some]
  refine (Condition.shownIn_clause hfilter).of_shows ?_
  exact (Sql.shows_append_left _ _).trans (Sql.shows_append_right _ _)

/-! ### Selects -/

namespace Select

/-- A clause is left out only if it shows nothing. -/
theorem shows_present (before behind : List Sql) {separator : String} {clauses : List Sql}
    {clause : Sql} (h : clause ∈ clauses) :
    (Sql.join separator (before ++ present clauses ++ behind)).Shows d clause := by
  cases clause with
  | nil => exact .inr rfl
  | cons p ps =>
    refine Sql.shows_join (List.mem_append_left _ (List.mem_append_right _ ?_))
    exact List.mem_filter.2 ⟨h, rfl⟩

/-- The clause that orders the rows stands in the SQL of a select. -/
theorem shows_orderBy {s : Select Rendered} {sql : Sql} (h : s.render d = .ok sql) :
    ∃ clause, orderBySql s.orderBy = .ok clause ∧ sql.Shows d clause := by
  obtain ⟨-, h⟩ := render_eq_ok.1 h
  split at h
  · obtain ⟨members, tail, -, htail, rfl⟩ := h
    obtain ⟨clause, hclause, htail⟩ := Except.bind_eq_ok.1 htail
    cases htail
    refine ⟨clause, hclause, ?_⟩
    simpa using shows_present members [] (List.mem_cons_self ..)
  · obtain ⟨head, filter, tail, members, -, -, htail, -, rfl⟩ := h
    obtain ⟨clause, hclause, htail⟩ := Except.bind_eq_ok.1 htail
    cases htail
    refine ⟨clause, hclause, ?_⟩
    exact shows_present [] members (List.mem_append_right _ (List.mem_cons_self ..))

/-- The clauses between the sources and the order stand in the SQL of a select with entries of its
own. -/
theorem shows_filterSql {s : Select Rendered} {sql : Sql} (hitems : s.items ≠ [])
    (h : s.render d = .ok sql) :
    ∃ filter groupBy having, s.filter.renderClause "WHERE" d s.target = .ok filter
      ∧ groupBySql s.groupBy = .ok groupBy ∧ s.having.renderClause "HAVING" d none = .ok having
      ∧ sql.Shows d filter ∧ sql.Shows d groupBy ∧ sql.Shows d having := by
  obtain ⟨-, h⟩ := render_eq_ok.1 h
  rw [if_neg (by simpa using hitems)] at h
  obtain ⟨head, clauses, tail, members, -, hclauses, -, -, rfl⟩ := h
  obtain ⟨filter, hfilter, hclauses⟩ := Except.bind_eq_ok.1 hclauses
  obtain ⟨groupBy, hgroupBy, hclauses⟩ := Except.bind_eq_ok.1 hclauses
  obtain ⟨having, hhaving, hclauses⟩ := Except.bind_eq_ok.1 hclauses
  cases hclauses
  have hshows : ∀ clause ∈ [filter, groupBy, having],
      (Sql.join " " (present (head ++ [filter, groupBy, having] ++ tail) ++ members)).Shows d
        clause := fun clause hmem =>
    shows_present [] members (List.mem_append_left _ (List.mem_append_right _ hmem))
  simp only [List.forall_mem_cons] at hshows
  exact ⟨filter, groupBy, having, hfilter, hgroupBy, hhaving, hshows.1, hshows.2.1, hshows.2.2.1⟩

/-- The predicates of a select and the fields that it groups by stand in its SQL. -/
theorem shows_clauses {s : Select Rendered} {sql : Sql} (h : s.render d = .ok sql) :
    s.filter.ShownIn d s.target sql ∧ s.having.ShownIn d none sql
      ∧ ∃ groupBy, groupBySql s.groupBy = .ok groupBy ∧ sql.Shows d groupBy := by
  by_cases hitems : s.items = []
  · obtain ⟨-, hfilter, hgroupBy, hhaving⟩ := clauses_of_bare (render_eq_ok.1 h).1 hitems
    refine ⟨?_, ?_, [], by rw [hgroupBy]; rfl, .inr rfl⟩
    · simp [Condition.ShownIn, hfilter]
    · simp [Condition.ShownIn, hhaving]
  · obtain ⟨filter, groupBy, having, hfilter, hgroupBy, hhaving, hshowsFilter, hshowsGroupBy,
      hshowsHaving⟩ := shows_filterSql hitems h
    exact ⟨(Condition.shownIn_clause hfilter).of_shows hshowsFilter,
      (Condition.shownIn_clause hhaving).of_shows hshowsHaving, groupBy, hgroupBy, hshowsGroupBy⟩

end Select

end SqlAssembly
