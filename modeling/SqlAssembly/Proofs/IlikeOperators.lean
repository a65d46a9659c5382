import SqlAssembly.Proofs.InnerStatements

/-!
# Operators with `ILIKE`

Where a dialect has no `ILIKE`, a command fails if a condition that it writes uses `ILIKE`, at any
depth; otherwise it is assembled as if the dialect had it (`Command.assemble_of_not_supportsIlike`).
The operators of joins are not asked, so one of them can still use `ILIKE`.
-/

namespace SqlAssembly

open SqlAssembly.Except (Succeeds)

variable {σ : Type} {d d' : Dialect}

/-! ### Operators -/

/-- The operators in the conditions of a statement, without those of the queries in it. -/
def Statement.predicateOperators (s : Statement) : List String :=
  s.conditions.flatMap Condition.operators

/-- The operator of a join that compares two columns. -/
def JoinCondition.operator? : JoinCondition → Option String
  | columns _ _ _ operator => some operator
  | raw _ => none

/-- The operators of the joins of a statement. -/
def Statement.joinOperators : Statement → List String
  | select s => s.joins.filterMap fun j => j.condition.bind JoinCondition.operator?
  | insert _ | update _ | delete _ | literal _ => []

/-! ### What is written decides -/

/-- An update is rendered alike if the queries that are written are: those of assignments that are
overridden have no say. -/
theorem Update.render_map_congr {f g : σ → Rendered} {s : Update σ}
    (h : ∀ q ∈ s.written, f q = g q) : (s.map f).render d = (s.map g).render d := by
  obtain ⟨hwinning, hqueries⟩ := List.forall_mem_append.1 h
  have hfilter : s.filter.map f = s.filter.map g := Condition.map_congr hqueries
  simp only [render, merged_map]
  simp only [map, hfilter]
  cases s.deferred with
  | some e => rfl
  | none =>
    cases hsource : s.target with
    | none => rfl
    | some source =>
      simp only [Option.map_some, Source.asTarget_map, Source.recordType?_map]
      cases hm : s.merged source.recordType? with
      | error e => rfl
      | ok m =>
        have hentries : m.entries.mapM
              (fun e => assignmentSql source.recordType? e.1 (e.2.map f))
            = m.entries.mapM fun e => assignmentSql source.recordType? e.1 (e.2.map g) := by
          refine Except.mapM_congr fun e he => ?_
          have hwins : e.2 ∈ s.winning := winning_eq hsource hm ▸ List.mem_map_of_mem he
          rw [Operand.map_congr fun q hq => hwinning q (List.mem_flatMap.2 ⟨e.2, hwins, hq⟩)]
        simp only [Except.map_ok, Except.ok_bind, OrderedMap.entries_map, Entries.map,
          List.mapM_map, Function.comp_def, hentries]

namespace Statement

theorem agreeOn_conditions {s : Statement} (h : d.AgreeOn d' s.predicateOperators)
    {c : Condition Query} (hc : c ∈ s.conditions) : d.AgreeOn d' c.operators :=
  h.of_mem_flatMap hc

/-- A statement is rendered alike if its conditions are and the queries that are written. -/
theorem render_eq_of_written {s : Statement} (h : d.AgreeOn d' s.predicateOperators)
    (hqueries : ∀ q ∈ s.written, q.render d = q.render d') : s.render d = s.render d' := by
  cases s with
  | select s =>
    have hfilter := agreeOn_conditions h (List.mem_cons_self ..)
    have hhaving := agreeOn_conditions h (List.mem_cons_of_mem _ (List.mem_cons_self ..))
    have hown : d.AgreeOn d' (s.filter.operators ++ s.having.operators) :=
      Dialect.AgreeOn.append_iff.2 ⟨hfilter, hhaving⟩
    calc (Query.of s).render d
      _ = (s.map (Query.render d)).render d := Query.render_of d s
      _ = (s.map (Query.render d')).render d := by rw [Select.map_congr hqueries]
      _ = (s.map (Query.render d')).render d' :=
        Select.render_congr (by simpa [Select.map] using hown)
      _ = (Query.of s).render d' := (Query.render_of d' s).symm
  | insert s => simp only [render, Insert.map_congr hqueries]
  | update s =>
    have hown := agreeOn_conditions h (List.mem_cons_self ..)
    calc (s.map (Query.render d)).render d
      _ = (s.map (Query.render d')).render d := Update.render_map_congr hqueries
      _ = (s.map (Query.render d')).render d' :=
        Update.render_congr (by simpa [Update.map] using hown)
  | delete s =>
    have hown := agreeOn_conditions h (List.mem_cons_self ..)
    simp only [render, Delete.map_congr hqueries]
    exact Delete.render_congr (by simpa [Delete.map] using hown)
  | literal sql => rfl

end Statement

namespace Command

variable {c : Command}

/-- If the dialects agree on all conditions that a command writes then they render each statement
that it writes alike. -/
theorem Writes.render_eq (h : ∀ s, c.Writes s → d.AgreeOn d' s.predicateOperators) {s : Statement}
    (hs : c.Writes s) : s.render d = s.render d' := by
  have hquery (q : Query) : c.Writes (.select q.select) → q.render d = q.render d' := by
    induction q using Query.induction with
    | step s ih =>
      intro hs
      exact Statement.render_eq_of_written (h _ hs) fun q hq => ih q hq (hs.inner hq)
  exact Statement.render_eq_of_written (h s hs) fun q hq => hquery q (hs.inner hq)

end Command

/-! ### Dialects without `ILIKE` -/

namespace Dialect

/-- The dialect, with `ILIKE`. -/
def withIlike (d : Dialect) : Dialect := { d with supportsIlike := true }

theorem spell_piece_withIlike (d : Dialect) (k : Nat) (p : Piece) :
    p.spell d.withIlike k = p.spell d k := by
  cases p with
  | text s | name s | param v => rfl
  | column expr cast => cases cast <;> cases expr <;> rfl

theorem spell_withIlike (d : Dialect) (sql : Sql) : d.withIlike.spell sql = d.spell sql := by
  have hspell (k : Nat) : sql.spell d.withIlike k = sql.spell d k := by
    induction sql generalizing k with
    | nil => rfl
    | cons p ps ih => rw [Sql.spell_cons, Sql.spell_cons, spell_piece_withIlike, ih]
  exact hspell 0

theorem agreeOn_withIlike {operators : List String}
    (h : ∀ operator ∈ operators, Predicate.usesIlike operator = false) (d : Dialect) :
    d.AgreeOn d.withIlike operators where
  isBlank p := by rw [Piece.isBlank, Piece.isBlank, spell_piece_withIlike]
  checkIlike operator hoperator :=
    (Predicate.checkIlike_of_not_usesIlike (h operator hoperator) d).trans
      (Predicate.checkIlike_of_not_usesIlike (h operator hoperator) d.withIlike).symm

end Dialect

/-- Where `ILIKE` is not supported, an operator may be used only if it does without. -/
theorem Predicate.not_usesIlike_of_checkIlike (hd : d.supportsIlike = false) {operator : String}
    (h : checkIlike d operator = .ok ()) : usesIlike operator = false := by
  by_contra huses
  simp [checkIlike, hd, huses] at h

/-! ### Operators that are allowed -/

theorem Condition.checkIlike_of_fits {owner : Option RecordType} {c : Condition σ}
    (h : ∀ p ∈ c.pending, p.Fits d owner) :
    ∀ operator ∈ c.operators, Predicate.checkIlike d operator = .ok () :=
  List.forall_mem_map.2 fun p hp => (h p hp).1

theorem Condition.checkIlike_of_renderClause {keyword : String} {owner : Option RecordType}
    {c : Condition Rendered} (hcheck : c.check = .ok ()) {sql : Sql}
    (h : c.renderClause keyword d owner = .ok sql) :
    ∀ operator ∈ c.operators, Predicate.checkIlike d operator = .ok () :=
  checkIlike_of_fits ((succeeds_renderClause_iff hcheck).1 ⟨sql, h⟩).1

theorem Select.checkIlike_of_succeeds {s : Select Rendered} (h : Succeeds (s.render d)) :
    ∀ operator ∈ s.filter.operators ++ s.having.operators,
      Predicate.checkIlike d operator = .ok () := by
  obtain ⟨hcheck, -, hfit, -⟩ := succeeds_render.1 h
  by_cases hitems : s.items = []
  · obtain ⟨-, hfilter, -, hhaving⟩ := clauses_of_bare hcheck hitems
    simp [Condition.operators, hfilter, hhaving]
  · obtain ⟨scope, hfit⟩ := hfit hitems
    exact List.forall_mem_append.2 ⟨Condition.checkIlike_of_fits hfit.filter,
      Condition.checkIlike_of_fits hfit.having⟩

/-- The operators in the conditions of a statement that can be rendered are allowed. -/
theorem Statement.checkIlike_of_succeeds {s : Statement} (h : Succeeds (s.render d)) :
    ∀ operator ∈ s.predicateOperators, Predicate.checkIlike d operator = .ok () := by
  cases s with
  | select s =>
    have h := succeeds_render_select.1 h
    simpa [predicateOperators, conditions, Select.map] using Select.checkIlike_of_succeeds h
  | insert s | literal s => exact List.forall_mem_nil _
  | update s =>
    obtain ⟨sql, h⟩ := h
    obtain ⟨-, hcheck, _, _, _, _, filter, _, -, -, -, -, hfilter, -⟩ := Update.render_eq_ok.1 h
    simpa [predicateOperators, conditions, Update.map]
      using Condition.checkIlike_of_renderClause hcheck hfilter
  | delete s =>
    obtain ⟨sql, h⟩ := h
    obtain ⟨hcheck, _, _, filter, _, -, -, hfilter, -⟩ := Delete.render_eq_ok.1 h
    simpa [predicateOperators, conditions, Delete.map]
      using Condition.checkIlike_of_renderClause hcheck hfilter

/-! ### Commands -/

namespace Command

/-- In a dialect without `ILIKE` a command is assembled only if no condition that it writes uses
`ILIKE`, at any depth; and then it is assembled as if the dialect had `ILIKE`. -/
theorem assemble_of_not_supportsIlike (hd : d.supportsIlike = false) (c : Command) :
    (∀ a, (c.withDialect d).assemble = .ok a →
        ∀ s, c.Writes s → ∀ operator ∈ s.predicateOperators,
          Predicate.usesIlike operator = false)
      ∧ ((∀ s, c.Writes s → ∀ operator ∈ s.predicateOperators,
            Predicate.usesIlike operator = false) →
          (c.withDialect d).assemble = (c.withDialect d.withIlike).assemble) := by
  constructor
  · intro a ha s hs operator hoperator
    rw [assemble_withDialect] at ha
    have hcommand : Succeeds (c.render d) := Except.succeeds_map.1 ⟨a, ha⟩
    have hallowed := Statement.checkIlike_of_succeeds (succeeds_of_writes hcommand hs)
    exact Predicate.not_usesIlike_of_checkIlike hd (hallowed operator hoperator)
  · intro hspare
    have hrender : c.render d = c.render d.withIlike := by
      refine render_eq_of_parts fun s hs => Writes.render_eq (fun s hs => ?_) (.part hs)
      exact Dialect.agreeOn_withIlike (hspare s hs) d
    rw [assemble_withDialect, assemble_withDialect, hrender, funext d.spell_withIlike]

/-- The guests whose name is compared with a pattern. -/
def matching (operator : String) : Select Query :=
  .build .generic
    [.source (.table (.name "guest") none) .all,
      .filter (.add .and { name := .name "name" } operator (.value (.text "a%")))]

/-- The same guests, selected from a query. -/
def selected (operator : String) : Select Query :=
  .build .generic [.source (.subquery (.of (matching operator)) none) .all]

/-- The hosts, and the guests behind them. -/
def attendees (operator : String) : Command :=
  .select (.build .sqlite
    [.union (.query (.of (.build .generic [.source (.table (.name "host") none) .all]))) .distinct,
      .union (.query (.of (selected operator))) .distinct])

theorem writes_attendees (operator : String) :
    (attendees operator).Writes (.select (matching operator)) := by
  have hunion : (attendees operator).Writes _ := .part (List.mem_cons_self ..)
  have hselected : (attendees operator).Writes (.select (selected operator)) :=
    hunion.inner (q := .of (selected operator)) (List.mem_cons_of_mem _ (List.mem_cons_self ..))
  exact hselected.inner (q := .of (matching operator)) (List.mem_cons_self ..)

/-- A join on two columns that are compared with `ILIKE`. -/
def joined : Select Query :=
  .build .sqlite
    [.source (.table (.name "a") none) .all,
      .join
        { kind := .inner
          source := .table (.name "b") none
          condition := some (.columns (.name "id") (.name "a") (.name "x") "ILIKE") }]

theorem eq_joined_of_writes {s : Statement} (hs : (Command.select joined).Writes s) :
    s = .select joined := by
  induction hs with
  | part h => exact List.mem_singleton.1 h
  | @inner s _ q hq ih =>
    subst ih
    exact nomatch hq

theorem assemble_of_not_supportsIlike_attendees :
    (∀ a, ((attendees "not ilike").withDialect .sqlite).assemble ≠ .ok a)
      ∧ ((Command.select joined).withDialect .sqlite).assemble
        = ((Command.select joined).withDialect Dialect.sqlite.withIlike).assemble := by
  constructor
  · intro a ha
    have hspare := (assemble_of_not_supportsIlike (d := .sqlite) rfl _).1 a ha _
      (writes_attendees "not ilike") "not ilike" (List.mem_cons_self ..)
    exact absurd hspare (by decide)
  · refine (assemble_of_not_supportsIlike rfl _).2 fun s hs => ?_
    rw [eq_joined_of_writes hs]
    exact List.forall_mem_nil _

set_option maxRecDepth 10000 in
/-- The operators of joins are written without being asked. -/
theorem usesIlike_joined :
    (Command.select joined).assemble = .ok
        ⟨"SELECT \"a\".* FROM \"a\" INNER JOIN \"b\" ON \"a\".\"x\"ILIKE\"b\".\"id\"", []⟩
      ∧ joined.dialect.supportsIlike = false
      ∧ ∃ operator ∈ (Statement.select joined).joinOperators,
        Predicate.usesIlike operator = true :=
  ⟨rfl, rfl, "ILIKE", List.mem_cons_self .., by decide⟩

end Command

end SqlAssembly
