import SqlAssembly.Proofs.LatestEntries
import SqlAssembly.Proofs.Outcome
import SqlAssembly.Statement

/-!
# When statements can be rendered

A select can be rendered exactly if it passes its checks and each clause can be rendered. An insert,
an update or a delete can be rendered exactly if no error was kept, there is a target that is a
table, and each clause can be rendered; its SQL then is that of the clauses in order. A `WITH`
statement can be rendered exactly if it has tables and a last statement, and each of these can. What
a dialect does to a command it does to the statements that the command consists of
(`Command.render_eq_of_parts`).
-/

namespace SqlAssembly

/-- A select is rendered exactly if it passes the checks and each of its parts is rendered; a bare
union has no parts but its members and the tail. -/
theorem Select.render_eq_ok {d : Dialect} {s : Select Rendered} {sql : Sql} :
    s.render d = .ok sql ↔
      s.check = .ok () ∧ if s.items.isEmpty then
        ∃ members tail, unionsSql true s.unions = .ok members ∧ s.tailSql = .ok tail
          ∧ sql = Sql.join " " (members ++ present tail)
      else
        ∃ head filter tail members, s.headSql = .ok head ∧ s.filterSql d = .ok filter
          ∧ s.tailSql = .ok tail ∧ unionsSql false s.unions = .ok members
          ∧ sql = Sql.join " " (present (head ++ filter ++ tail) ++ members) := by
  unfold render
  cases s.check with
  | error e => simp
  | ok _ =>
    simp only [Except.ok_bind, true_and]
    split
    · simp only [Except.bind_eq_ok, Except.pure_eq, Except.ok.injEq]
      constructor
      · rintro ⟨members, hmembers, tail, htail, rfl⟩
        exact ⟨members, tail, hmembers, htail, rfl⟩
      · rintro ⟨members, tail, hmembers, htail, rfl⟩
        exact ⟨members, hmembers, tail, htail, rfl⟩
    · simp only [Except.bind_eq_ok, Except.pure_eq, Except.ok.injEq]
      constructor
      · rintro ⟨head, hhead, filter, hfilter, tail, htail, members, hmembers, rfl⟩
        exact ⟨head, filter, tail, members, hhead, hfilter, htail, hmembers, rfl⟩
      · rintro ⟨head, filter, tail, members, hhead, hfilter, htail, hmembers, rfl⟩
        exact ⟨head, hhead, filter, hfilter, tail, htail, members, hmembers, rfl⟩

theorem Select.checks_of_check {σ : Type} {s : Select σ} (h : s.check = .ok ()) :
    s.filter.check = .ok () ∧ (s.items = [] → s.checkBareUnion = .ok ()) := by
  unfold check at h
  cases hdeferred : s.deferred with
  | some e => simp [hdeferred] at h
  | none =>
    simp only [hdeferred, Except.bind_eq_ok] at h
    obtain ⟨_, hfilter, _, _, h⟩ := h
    refine ⟨hfilter, fun hitems => ?_⟩
    simp only [hitems, List.isEmpty_nil, if_true, Except.bind_eq_ok] at h
    obtain ⟨_, hbare, _⟩ := h
    exact hbare

/-- A select with a clause that needs sources has entries of its own: it is no bare union. -/
theorem Select.items_ne_nil {σ : Type} {s : Select σ} (hcheck : s.check = .ok ())
    (hclause : s.hasSourceClause = true) : s.items ≠ [] := by
  intro hitems
  have hbare := (checks_of_check hcheck).2 hitems
  unfold checkBareUnion at hbare
  rw [hclause] at hbare
  cases hunions : s.unions.isEmpty <;> simp [hunions] at hbare

/-- An insert is rendered exactly if each of its parts is. -/
theorem Insert.render_eq_ok {s : Insert Rendered} {sql : Sql} :
    s.render = .ok sql ↔
      s.deferred = none ∧ ∃ source target columns ordered rows returning,
        s.target = some source ∧ source.asTarget .insert = .ok target ∧ s.rows ≠ []
        ∧ s.columns source.recordType? = .ok columns
        ∧ orderRows source.recordType? columns 1 s.rows = .ok ordered
        ∧ rowsSql source.recordType? columns 1 ordered = .ok rows
        ∧ returningClause source.recordType? s.returning = .ok returning
        ∧ sql = Sql.text "INSERT INTO " ++ target.sql ++ Sql.text " ("
            ++ Sql.join ", " (columns.map fun c => [Piece.name c]) ++ Sql.text ") VALUES "
            ++ Sql.join ", " rows ++ returning := by
  unfold render
  cases s.deferred with
  | some e => simp
  | none =>
    cases s.target with
    | none => simp
    | some source =>
      by_cases hrows : s.rows = []
      · simp [hrows, Except.bind_eq_ok]
      · simp only [List.isEmpty_iff, hrows, if_false, Except.bind_eq_ok, Except.pure_eq,
          Except.ok.injEq, Option.some.injEq, true_and, ne_eq, not_false_eq_true]
        constructor
        · rintro ⟨target, htarget, columns, hcolumns, ordered, hordered, rows, hparts, returning,
            hreturning, rfl⟩
          exact ⟨source, target, columns, ordered, rows, returning, rfl, htarget, hcolumns,
            hordered, hparts, hreturning, rfl⟩
        · rintro ⟨_, target, columns, ordered, rows, returning, rfl, htarget, hcolumns, hordered,
            hparts, hreturning, rfl⟩
          exact ⟨target, htarget, columns, hcolumns, ordered, hordered, rows, hparts, returning,
            hreturning, rfl⟩

/-- What an update assigns is filled from all its assignments, of which there is at least one. -/
theorem Update.merged_eq_ok {σ : Type} {owner : Option RecordType} {s : Update σ}
    {m : OrderedMap (Operand σ)} :
    s.merged owner = .ok m ↔
      ∃ positional es, s.positionalAssignments = .ok positional
        ∧ Assignment.resolveAll owner (positional ++ s.assignments) = .ok es ∧ es ≠ []
        ∧ OrderedMap.ofEntries es = m := by
  simp only [merged, Except.bind_eq_ok]
  refine exists_congr fun positional => ?_
  rw [← exists_and_left]
  refine exists_congr fun es => and_congr_right fun _ => and_congr_right fun _ => ?_
  by_cases hes : es = []
  · simp [hes, OrderedMap.entries_ofEntries_eq_nil]
  · simp [hes, OrderedMap.entries_ofEntries_eq_nil]

/-- An update is rendered exactly if each of its parts is. -/
theorem Update.render_eq_ok {d : Dialect} {s : Update Rendered} {sql : Sql} :
    s.render d = .ok sql ↔
      s.deferred = none ∧ s.filter.check = .ok () ∧
      ∃ source target m assignments filter returning,
        s.target = some source ∧ source.asTarget .update = .ok target
        ∧ s.merged source.recordType? = .ok m
        ∧ m.entries.mapM (fun e => assignmentSql source.recordType? e.1 e.2) = .ok assignments
        ∧ s.filter.renderClause " WHERE" d source.recordType? = .ok filter
        ∧ returningClause source.recordType? s.returning = .ok returning
        ∧ sql = Sql.text "UPDATE " ++ target.sql ++ Sql.text " SET " ++ Sql.join ", " assignments
            ++ filter ++ returning := by
  unfold render
  cases s.deferred with
  | some e => simp
  | none =>
    cases s.filter.check with
    | error e => simp
    | ok _ =>
      cases s.target with
      | none => simp
      | some source =>
        simp only [Except.ok_bind, Except.bind_eq_ok, Except.pure_eq, Except.ok.injEq,
          Option.some.injEq, true_and]
        constructor
        · rintro ⟨target, htarget, m, hm, assignments, hassignments, filter, hfilter, returning,
            hreturning, rfl⟩
          exact ⟨source, target, m, assignments, filter, returning, rfl, htarget, hm,
            hassignments, hfilter, hreturning, rfl⟩
        · rintro ⟨_, target, m, assignments, filter, returning, rfl, htarget, hm, hassignments,
            hfilter, hreturning, rfl⟩
          exact ⟨target, htarget, m, hm, assignments, hassignments, filter, hfilter, returning,
            hreturning, rfl⟩

/-- A delete is rendered exactly if each of its parts is. -/
theorem Delete.render_eq_ok {d : Dialect} {s : Delete Rendered} {sql : Sql} :
    s.render d = .ok sql ↔
      s.filter.check = .ok () ∧ ∃ source target filter returning,
        s.target = some source ∧ source.asTarget .delete = .ok target
        ∧ s.filter.renderClause " WHERE" d source.recordType? = .ok filter
        ∧ returningClause source.recordType? s.returning = .ok returning
        ∧ sql = Sql.text "DELETE FROM " ++ target.sql ++ filter ++ returning := by
  unfold render
  cases s.filter.check with
  | error e => simp
  | ok _ =>
    cases s.target with
    | none => simp
    | some source =>
      simp only [Except.ok_bind, Except.bind_eq_ok, Except.pure_eq, Except.ok.injEq,
        Option.some.injEq, true_and]
      constructor
      · rintro ⟨target, htarget, filter, hfilter, returning, hreturning, rfl⟩
        exact ⟨source, target, filter, returning, rfl, htarget, hfilter, hreturning, rfl⟩
      · rintro ⟨_, target, filter, returning, rfl, htarget, hfilter, hreturning, rfl⟩
        exact ⟨target, htarget, filter, hfilter, returning, hreturning, rfl⟩

/-- A `WITH` statement is rendered exactly if each of its parts is. -/
theorem With.render_eq_ok {d : Dialect} {s : With} {sql : Sql} :
    s.render d = .ok sql ↔
      s.tables ≠ [] ∧ ∃ statement tables body, s.statement = some statement
        ∧ s.tables.mapM (CommonTable.render d) = .ok tables ∧ statement.render d = .ok body
        ∧ sql = Sql.text (if s.recursive then "WITH RECURSIVE " else "WITH ")
            ++ Sql.join "," tables ++ Sql.text " " ++ body := by
  unfold render
  by_cases htables : s.tables = []
  · simp [htables]
  · cases s.statement with
    | none => simp [htables]
    | some statement =>
      simp only [List.isEmpty_iff, htables, if_false, Except.bind_eq_ok, Except.pure_eq,
        Except.ok.injEq, Option.some.injEq, true_and, ne_eq, not_false_eq_true]
      constructor
      · rintro ⟨tables, htables, body, hbody, rfl⟩
        exact ⟨statement, tables, body, rfl, htables, hbody, rfl⟩
      · rintro ⟨_, tables, body, rfl, htables, hbody, rfl⟩
        exact ⟨tables, htables, body, hbody, rfl⟩

/-! ### Commands -/

namespace Command

/-- The statements that a command consists of: those of a `WITH` statement, or itself. -/
def parts : Command → List Statement
  | select s => [.select s]
  | insert s => [.insert s]
  | update s => [.update s]
  | delete s => [.delete s]
  | commonTables s => s.tables.map CommonTable.statement ++ s.statement.toList

/-- A command is rendered alike in two dialects if each statement that it consists of is. -/
theorem render_eq_of_parts {d d' : Dialect} {c : Command}
    (h : ∀ s ∈ c.parts, s.render d = s.render d') : c.render d = c.render d' := by
  cases c with
  | select s | insert s | update s | delete s => exact h _ (List.mem_singleton_self _)
  | commonTables s =>
    obtain ⟨htables, hlast⟩ := List.forall_mem_append.1 h
    have htables : s.tables.mapM (CommonTable.render d)
        = s.tables.mapM (CommonTable.render d') := by
      refine Except.mapM_congr fun t ht => ?_
      simp only [CommonTable.render, htables _ (List.mem_map_of_mem ht)]
    simp only [render, With.render, htables]
    cases hs : s.statement with
    | none => rfl
    | some last => simp only [hlast last (Option.mem_toList.2 hs)]

end Command

end SqlAssembly
