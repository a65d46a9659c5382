import SqlAssembly.Proofs.DialectChoice
import SqlAssembly.Proofs.Readings

/-!
# Statements inside a command

A command writes the statements inside it, and the statements inside these, at any depth: all but
the values of assignments that are overridden. No failure of a statement that is written is lost.
The command can be assembled only if each of them can be assembled on its own, in the dialect of the
command (`Command.assembleIn_of_writes`).
-/

namespace SqlAssembly

open SqlAssembly.Except (Succeeds)

/-! ### Statements on their own -/

namespace Statement

/-- The text of a statement on its own, and its values. -/
def assembleIn (d : Dialect) (s : Statement) : Except SqlError Assembled :=
  (Context.write { dialect := d } fun d => s.write d).map
    fun (text, context) => ⟨text, context.values⟩

theorem assembleIn_eq (d : Dialect) (s : Statement) :
    s.assembleIn d = (s.render d).map fun sql => ⟨d.spell sql, sql.values⟩ := by
  rw [assembleIn, Context.write, write_eq, Writer.run_ofRendered]
  cases s.render d <;> rfl

/-- The error that a statement kept while it was built. -/
def deferred : Statement → Option SqlError
  | select s => s.deferred
  | insert s => s.deferred
  | update s => s.deferred
  | delete _ | literal _ => none

/-- The conditions of a statement. -/
def conditions : Statement → List (Condition Query)
  | select s => [s.filter, s.having]
  | update s => [s.filter]
  | delete s => [s.filter]
  | insert _ | literal _ => []

/-- What is wrong with a statement, whatever is inside it. -/
inductive IsBroken (s : Statement) : Prop
  /-- An error was kept while it was built. -/
  | kept (e : SqlError) (h : s.deferred = some e)
  /-- The groups of a condition are not balanced. -/
  | unbalanced (c : Condition Query) (hc : c ∈ s.conditions) (h : c.check ≠ .ok ())
  /-- An identifier cannot be read. -/
  | unreadable (r : Reading) (hr : r ∈ s.readings) (h : ¬ r.IsReadable)

/-- The checks of a statement that can be rendered found nothing. -/
theorem checks_of_succeeds {d : Dialect} {s : Statement} (h : Succeeds (s.render d)) :
    s.deferred = none ∧ ∀ c ∈ s.conditions, c.check = .ok () := by
  cases s with
  | select s =>
    have hcheck := (Select.succeeds_render.1 (succeeds_render_select.1 h)).1
    rw [Select.check_map] at hcheck
    obtain ⟨hdeferred, hfilter, hhaving, -⟩ := Select.check_eq_ok.1 hcheck
    exact ⟨hdeferred, by simp [conditions, hfilter, hhaving]⟩
  | insert s =>
    obtain ⟨sql, h⟩ := h
    exact ⟨(Insert.render_eq_ok.1 h).1, List.forall_mem_nil _⟩
  | update s =>
    obtain ⟨sql, h⟩ := h
    obtain ⟨hdeferred, hfilter, -⟩ := Update.render_eq_ok.1 h
    exact ⟨hdeferred, by simpa [conditions, Update.map] using hfilter⟩
  | delete s =>
    obtain ⟨sql, h⟩ := h
    obtain ⟨hfilter, -⟩ := Delete.render_eq_ok.1 h
    exact ⟨rfl, by simpa [conditions, Delete.map] using hfilter⟩
  | literal sql => exact ⟨rfl, List.forall_mem_nil _⟩

theorem not_isBroken_of_succeeds {d : Dialect} {s : Statement} (h : Succeeds (s.render d)) :
    ¬ s.IsBroken := by
  obtain ⟨hdeferred, hchecks⟩ := checks_of_succeeds h
  rintro (⟨e, he⟩ | ⟨c, hc, hcheck⟩ | ⟨r, hr, hreadable⟩)
  · rw [hdeferred] at he
    cases he
  · exact hcheck (hchecks c hc)
  · exact hreadable ((succeeds_parts h).2 r hr)

end Statement

/-! ### Statements of a command -/

theorem With.succeeds_parts {d : Dialect} {s : With} (h : Succeeds (s.render d)) :
    (∀ t ∈ s.tables, Succeeds (t.statement.render d))
      ∧ ∀ last ∈ s.statement, Succeeds (last.render d) := by
  obtain ⟨sql, h⟩ := h
  obtain ⟨-, last, tables, body, hlast, htables, hbody, -⟩ := render_eq_ok.1 h
  constructor
  · intro t ht
    obtain ⟨text, htext⟩ := Except.succeeds_mapM.1 ⟨tables, htables⟩ t ht
    obtain ⟨_, -, htext⟩ := Except.bind_eq_ok.1 htext
    obtain ⟨_, -, htext⟩ := Except.bind_eq_ok.1 htext
    obtain ⟨inner, hinner, -⟩ := Except.bind_eq_ok.1 htext
    exact ⟨inner, hinner⟩
  · rw [hlast]
    rintro _ ⟨⟩
    exact ⟨body, hbody⟩

namespace Command

/-- The command writes the statement, at some depth. -/
inductive Writes (c : Command) : Statement → Prop
  | part {s : Statement} (h : s ∈ c.parts) : Writes c s
  | inner {s : Statement} (h : Writes c s) {q : Query} (hq : q ∈ s.written) :
      Writes c (.select q.select)

theorem succeeds_parts {d : Dialect} {c : Command} (h : Succeeds (c.render d)) :
    ∀ s ∈ c.parts, Succeeds (s.render d) := by
  cases c with
  | select s | insert s | update s | delete s => exact List.forall_mem_singleton.2 h
  | commonTables s =>
    obtain ⟨htables, hlast⟩ := With.succeeds_parts h
    refine List.forall_mem_append.2 ⟨List.forall_mem_map.2 htables, fun last hmem => ?_⟩
    exact hlast last (Option.mem_toList.1 hmem)

/-- What a command writes can be rendered if the command can: each part of it, and with a statement
each query that is written in it. -/
theorem succeeds_of_writes {d : Dialect} {c : Command} {s : Statement}
    (h : Succeeds (c.render d)) (hs : c.Writes s) : Succeeds (s.render d) := by
  induction hs with
  | part hs => exact succeeds_parts h _ hs
  | @inner s _ q hq ih =>
    obtain ⟨select⟩ := q
    exact (Statement.succeeds_parts ih).1 (.of select) hq

/-- If a command can be assembled in a dialect then so can each statement that it writes, on its own
and in the same dialect. In other words, the command fails if a statement that it writes fails; and
it fails if one of them kept an error, has groups that are not balanced, or has an identifier that
cannot be read. -/
theorem assembleIn_of_writes {c : Command} {s : Statement} (hs : c.Writes s) (d : Dialect) :
    ((∃ a, (c.withDialect d).assemble = .ok a) → ∃ a, s.assembleIn d = .ok a)
      ∧ (∀ e, s.assembleIn d = .error e → ∃ e', (c.withDialect d).assemble = .error e')
      ∧ (s.IsBroken → ∃ e, (c.withDialect d).assemble = .error e) := by
  have hcommand : Succeeds (c.withDialect d).assemble ↔ Succeeds (c.render d) := by
    rw [assemble_withDialect, Except.succeeds_map]
  have hstatement : Succeeds (s.assembleIn d) ↔ Succeeds (s.render d) := by
    rw [Statement.assembleIn_eq, Except.succeeds_map]
  refine ⟨fun h => ?_, fun e he => ?_, fun hbroken => ?_⟩
  · exact hstatement.2 (succeeds_of_writes (hcommand.1 h) hs)
  · refine Except.not_succeeds_iff.1 fun h => ?_
    have hinner := hstatement.2 (succeeds_of_writes (hcommand.1 h) hs)
    rw [he] at hinner
    exact Except.not_succeeds_error _ hinner
  · refine Except.not_succeeds_iff.1 fun h => ?_
    exact Statement.not_isBroken_of_succeeds (succeeds_of_writes (hcommand.1 h) hs) hbroken

/-- The members that the calls leave. -/
def members (calls : List (ConditionCall Query)) : Select Query :=
  .build .sqlite (.source (.table (.name "member") none) (.list [{ name := .name "id" }])
    :: calls.map .filter)

/-- The members, selected from a query. -/
def owners (calls : List (ConditionCall Query)) : Select Query :=
  .build .generic [.source (.subquery (.of (members calls)) none) .all]

/-- Accounts get a new owner. The owner that they get first is overridden, and its query selects
nothing. -/
def moved (calls : List (ConditionCall Query)) : Update Query :=
  .build .generic
    [.target (.table (.name "account") none),
      .assign [⟨"owner", .subquery (.of (.build .generic []))⟩],
      .assign [⟨"owner", .subquery (.of (owners calls))⟩]]

/-- Accounts get a new owner before the last statement runs. -/
def transfer (calls : List (ConditionCall Query)) : Command :=
  .commonTables (.build .postgres
    [.table { name := "moved", statement := .update (moved calls) },
      .statement (.literal "SELECT 1")])

theorem written_moved (calls : List (ConditionCall Query)) :
    (moved calls).written = [.of (owners calls)] := by
  have hassigned : (moved calls).allAssignments
      = [⟨"owner", .subquery (.of (.build .generic []))⟩,
          ⟨"owner", .subquery (.of (owners calls))⟩] := rfl
  have hcolumn : columnName none "owner" = .ok "owner" := columnName_none (by decide)
  have hresolved (a b : Operand Query) :
      Assignment.resolved none [⟨"owner", a⟩, ⟨"owner", b⟩] = [("owner", a), ("owner", b)] := by
    simp [Assignment.resolved, hcolumn, Except.toOption]
  have hlatest (a b : Operand Query) :
      Entries.latest [("owner", a), ("owner", b)] = [("owner", b)] := rfl
  have htarget : (moved calls).target.bind Source.recordType? = none := rfl
  rw [Update.written, Update.winning, htarget, hassigned, hresolved, hlatest]
  rfl

theorem writes_transfer (calls : List (ConditionCall Query)) :
    (transfer calls).Writes (.select (members calls)) := by
  have hmoved : (transfer calls).Writes (.update (moved calls)) :=
    .part (List.mem_cons_self ..)
  have howners : (transfer calls).Writes (.select (owners calls)) := by
    refine hmoved.inner (q := .of (owners calls)) ?_
    rw [Statement.written, written_moved]
    exact List.mem_cons_self ..
  exact howners.inner (q := .of (members calls)) (List.mem_cons_self ..)

set_option maxRecDepth 10000 in
/-- A query that is overridden may fail. One that is written may not, however deep: with a group
that stays open in it, nothing is assembled. -/
theorem assembleIn_of_writes_transfer :
    ((transfer []).withDialect .sqlite).assemble = .ok
        ⟨"WITH \"moved\" AS (UPDATE \"account\" SET \"owner\"=(SELECT \"t\".* FROM "
          ++ "(SELECT \"id\" FROM \"member\") AS \"t\")) SELECT 1", []⟩
      ∧ (∃ a, (Statement.select (members [])).assembleIn .sqlite = .ok a)
      ∧ ∃ e, ((transfer [.openGroup .and]).withDialect .sqlite).assemble = .error e := by
  have htransfer : ((transfer []).withDialect .sqlite).assemble = .ok
      ⟨"WITH \"moved\" AS (UPDATE \"account\" SET \"owner\"=(SELECT \"t\".* FROM "
        ++ "(SELECT \"id\" FROM \"member\") AS \"t\")) SELECT 1", []⟩ := by
    rfl
  have hopen : (Statement.select (members [.openGroup .and])).IsBroken :=
    .unbalanced _ (List.mem_cons_self ..) nofun
  exact ⟨htransfer, (assembleIn_of_writes (writes_transfer []) .sqlite).1 ⟨_, htransfer⟩,
    (assembleIn_of_writes (writes_transfer _) .sqlite).2.2 hopen⟩

end Command

end SqlAssembly
