import SqlAssembly.Proofs.Query.Rows
import SqlAssembly.Proofs.Spelling
import SqlAssembly.Statement

/-!
# What a dialect decides

The SQL of a statement in pieces depends on the dialect in two points only: whether a group shows
anything, and whether predicates may use `ILIKE`. So a statement that can be rendered has the same
SQL in every dialect in which the same pieces show nothing and that supports no less
(`Command.render_mono`).
-/

namespace SqlAssembly

/-- The same pieces show nothing in both dialects, and the second supports what the first does. -/
structure Dialect.CoveredBy (d d' : Dialect) : Prop where
  isBlank (p : Piece) : p.isBlank d = p.isBlank d'
  ilike : d.supportsIlike → d'.supportsIlike

theorem Dialect.CoveredBy.sql_isBlank {d d' : Dialect} (hd : d.CoveredBy d') (sql : Sql) :
    sql.isBlank d = sql.isBlank d' := by
  simp only [Sql.isBlank, funext hd.isBlank]

variable {σ : Type} {f g : σ → Rendered} (h : ∀ q, Except.Le (f q) (g q)) {d d' : Dialect}
  (hd : d.CoveredBy d') (owner : Option RecordType)

/-! ### Conditions -/

include h in
theorem Operand.render_mono (o : Operand σ) :
    Except.Le ((o.map f).render owner) ((o.map g).render owner) := by
  cases o with
  | subquery q => exact Except.bind_mono (h q) fun _ => Except.le_refl _
  | _ => exact Except.le_refl _

include hd in
theorem Predicate.checkIlike_mono (operator : String) :
    Except.Le (checkIlike d operator) (checkIlike d' operator) := by
  intro _ hi
  have hilike := hd.ilike
  cases hs : d'.supportsIlike with
  | true => simp [checkIlike, hs]
  | false => simp_all [checkIlike]

include h hd in
theorem Predicate.render_mono (p : Predicate σ) :
    Except.Le ((p.map f).render d owner) ((p.map g).render d' owner) :=
  Except.bind_mono (checkIlike_mono hd p.operator) fun _ =>
    Except.bind_mono (Except.le_refl _) fun _ =>
      Except.bind_mono (Operand.render_mono h owner p.operand) fun _ => Except.le_refl _

namespace Node

mutual

theorem render_mono (h : ∀ q, Except.Le (f q) (g q)) (hd : d.CoveredBy d')
    (style : ConditionStyle) (n : Node σ) :
    Except.Le ((n.map f).render d owner style) ((n.map g).render d' owner style) := by
  match n with
  | leaf c p =>
    simp only [Node.map, render]
    exact Except.bind_mono (Predicate.render_mono h hd owner p) fun _ => Except.le_refl _
  | group c ns =>
    simp only [Node.map, render, hd.sql_isBlank]
    exact Except.bind_mono (renderAll_mono h hd style ns) fun _ => Except.le_refl _

theorem renderAll_mono (h : ∀ q, Except.Le (f q) (g q)) (hd : d.CoveredBy d')
    (style : ConditionStyle) (ns : List (Node σ)) :
    Except.Le (renderAll d owner style (mapAll f ns)) (renderAll d' owner style (mapAll g ns)) := by
  match ns with
  | [] => exact Except.le_refl _
  | n :: ns =>
    have hconnector : (n.map f).connector = (n.map g).connector := by cases n <;> rfl
    simp only [mapAll, renderAll, hconnector]
    exact Except.bind_mono (render_mono h hd style n) fun _ =>
      Except.bind_mono (renderAll_mono h hd style ns) fun _ => Except.le_refl _

end

end Node

include h hd

theorem Condition.renderClause_mono (keyword : String) (c : Condition σ) :
    Except.Le ((c.map f).renderClause keyword d owner)
      ((c.map g).renderClause keyword d' owner) := by
  simp only [renderClause, render, check_map, hd.sql_isBlank]
  refine Except.bind_mono (Except.bind_mono (Except.le_refl _) fun _ => ?_)
    fun _ => Except.le_refl _
  exact Except.bind_mono (Node.renderAll_mono owner h hd c.style c.root) fun _ => Except.le_refl _

/-! ### Selects -/

omit hd in
theorem Binding.sql_mono (b : Binding σ) : Except.Le (b.map f).sql (b.map g).sql := by
  obtain ⟨qualifier, alias?, schema, qualifies, record, body⟩ := b
  cases body with
  | table table schema => exact Except.le_refl _
  | query q => exact Except.bind_mono (h q) fun _ => Except.le_refl _

namespace Select

omit hd in
theorem fromSql_mono (items : List (BoundItem σ)) :
    Except.Le (fromSql (items.map (BoundItem.map f))) (fromSql (items.map (BoundItem.map g))) := by
  simp only [fromSql, BoundItem.sources_map, List.mapM_map]
  refine Except.bind_mono (Except.mapM_mono (Binding.sql_mono h) _) fun _ =>
    Except.bind_mono (Except.mapM_mono (fun b => ?_) _) fun _ => Except.le_refl _
  exact Except.bind_mono (Binding.sql_mono h b) fun _ => Except.le_refl _

omit hd in
theorem joinsSql_mono (prior : List (Binding σ)) (joins : List (BoundJoin σ)) :
    Except.Le (joinsSql (prior.map (Binding.map f)) (joins.map (BoundJoin.map f)))
      (joinsSql (prior.map (Binding.map g)) (joins.map (BoundJoin.map g))) := by
  induction joins generalizing prior with
  | nil => exact Except.le_refl _
  | cons j js ih =>
    have ih := ih (prior ++ [j.binding])
    simp only [List.map_append, List.map_cons, List.map_nil] at ih
    simp only [List.map_cons, joinsSql, joinSql, joinOnSql_map]
    refine Except.bind_mono (Except.bind_mono (Binding.sql_mono h j.binding) fun _ =>
      Except.le_refl _) fun _ => ?_
    exact Except.bind_mono ih fun _ => Except.le_refl _

omit hd in
theorem unionsSql_mono (bare : Bool) (unions : List (UnionPart σ)) :
    Except.Le (unionsSql bare (unions.map (UnionPart.map f)))
      (unionsSql bare (unions.map (UnionPart.map g))) := by
  induction unions generalizing bare with
  | nil => exact Except.le_refl _
  | cons u us ih =>
    have hmember : Except.Le (memberSql (u.member.map f)) (memberSql (u.member.map g)) := by
      cases u.member with
      | query q => exact h q
      | literal sql => exact Except.le_refl _
      | refused kind => exact Except.le_refl _
    simp only [List.map_cons, unionsSql, UnionPart.map]
    exact Except.bind_mono hmember fun _ => Except.bind_mono (ih false) fun _ => Except.le_refl _

omit hd in
theorem headSql_mono (s : Select σ) : Except.Le (s.map f).headSql (s.map g).headSql := by
  simp only [headSql, Scope.bind_map]
  cases Scope.bind s with
  | error e => exact Except.le_refl _
  | ok scope =>
    simp only [Except.map_ok, Except.ok_bind, Scope.selectList_map, Scope.fromBindings_map]
    refine Except.bind_mono (Except.le_refl _) fun _ => ?_
    refine Except.bind_mono (fromSql_mono h scope.items) fun _ => ?_
    exact Except.bind_mono (joinsSql_mono h scope.fromBindings scope.joins) fun _ =>
      Except.le_refl _

theorem filterSql_mono (s : Select σ) :
    Except.Le ((s.map f).filterSql d) ((s.map g).filterSql d') := by
  simp only [filterSql, target_map]
  refine Except.bind_mono (Condition.renderClause_mono h hd _ "WHERE" s.filter) fun _ => ?_
  refine Except.bind_mono (Except.le_refl _) fun _ => ?_
  exact Except.bind_mono (Condition.renderClause_mono h hd _ "HAVING" s.having) fun _ =>
    Except.le_refl _

theorem render_mono (s : Select σ) : Except.Le ((s.map f).render d) ((s.map g).render d') := by
  have hitems : (s.map f).items.isEmpty = (s.map g).items.isEmpty := by simp [map]
  simp only [render, check_map, tailSql_map, hitems]
  refine Except.bind_mono (Except.le_refl _) fun _ => ?_
  cases (s.map g).items.isEmpty with
  | true => exact Except.bind_mono (unionsSql_mono h true s.unions) fun _ => Except.le_refl _
  | false =>
    refine Except.bind_mono (headSql_mono h s) fun _ => ?_
    refine Except.bind_mono (filterSql_mono h hd s) fun _ => ?_
    refine Except.bind_mono (Except.le_refl _) fun _ => ?_
    exact Except.bind_mono (unionsSql_mono h false s.unions) fun _ => Except.le_refl _

end Select

/-! ### Other statements -/

namespace Insert

omit hd in
theorem valuesSql_mono (number : Nat) (columns : List String) (operands : List (Operand σ)) :
    Except.Le (valuesSql owner number columns (operands.map (Operand.map f)))
      (valuesSql owner number columns (operands.map (Operand.map g))) := by
  induction columns generalizing operands with
  | nil => cases operands <;> exact Except.le_refl _
  | cons column columns ih =>
    cases operands with
    | nil => exact Except.le_refl _
    | cons o os =>
      simp only [List.map_cons, valuesSql]
      refine Except.bind_mono (Operand.render_mono h owner o) fun sql => ?_
      cases sql with
      | none => exact Except.le_refl _
      | some sql => exact Except.bind_mono (ih os) fun _ => Except.le_refl _

omit hd in
theorem rowsSql_mono (columns : List String) (number : Nat) (rows : List (List (Operand σ))) :
    Except.Le (rowsSql owner columns number (rows.map (List.map (Operand.map f))))
      (rowsSql owner columns number (rows.map (List.map (Operand.map g)))) := by
  induction rows generalizing number with
  | nil => exact Except.le_refl _
  | cons r rs ih =>
    simp only [List.map_cons, rowsSql]
    refine Except.bind_mono (valuesSql_mono h owner number columns r) fun _ => ?_
    exact Except.bind_mono (ih (number + 1)) fun _ => Except.le_refl _

omit hd in
theorem render_mono (s : Insert σ) : Except.Le (s.map f).render (s.map g).render := by
  have hcolumns (owner : Option RecordType) :
      (s.map f).columns owner = (s.map g).columns owner := by simp only [columns_map]
  have hrows : (s.map f).rows.isEmpty = (s.map g).rows.isEmpty := by simp [map]
  simp only [render, hcolumns, hrows]
  simp only [map]
  cases s.deferred with
  | some e => exact Except.le_refl _
  | none =>
    cases s.target with
    | none => exact Except.le_refl _
    | some source =>
      simp only [Option.map_some, Source.asTarget_map, Source.recordType?_map, orderRows_map]
      refine Except.bind_mono (Except.le_refl _) fun target => ?_
      split
      · exact Except.le_refl _
      · refine Except.bind_mono (Except.le_refl _) fun columns => ?_
        cases orderRows source.recordType? columns 1 s.rows with
        | error e => exact Except.le_refl _
        | ok rows =>
          simp only [Except.map_ok, Except.ok_bind]
          exact Except.bind_mono (rowsSql_mono h _ columns 1 rows) fun _ => Except.le_refl _

end Insert

namespace Update

theorem render_mono (s : Update σ) : Except.Le ((s.map f).render d) ((s.map g).render d') := by
  simp only [render, merged_map]
  simp only [map]
  cases s.deferred with
  | some e => exact Except.le_refl _
  | none =>
    simp only [Condition.check_map]
    refine Except.bind_mono (Except.le_refl _) fun _ => ?_
    cases s.target with
    | none => exact Except.le_refl _
    | some source =>
      simp only [Option.map_some, Source.asTarget_map, Source.recordType?_map]
      refine Except.bind_mono (Except.le_refl _) fun target => ?_
      cases s.merged source.recordType? with
      | error e => exact Except.le_refl _
      | ok m =>
        simp only [Except.map_ok, Except.ok_bind, OrderedMap.entries_map, Entries.map,
          List.mapM_map]
        refine Except.bind_mono (Except.mapM_mono (fun p => ?_) m.entries) fun _ => ?_
        · exact Except.bind_mono (Operand.render_mono h _ p.2) fun _ => Except.le_refl _
        · exact Except.bind_mono (Condition.renderClause_mono h hd _ " WHERE" s.filter) fun _ =>
            Except.le_refl _

end Update

theorem Delete.render_mono (s : Delete σ) :
    Except.Le ((s.map f).render d) ((s.map g).render d') := by
  simp only [render, map, Condition.check_map]
  refine Except.bind_mono (Except.le_refl _) fun _ => ?_
  cases s.target with
  | none => exact Except.le_refl _
  | some source =>
    simp only [Option.map_some, Source.asTarget_map, Source.recordType?_map]
    refine Except.bind_mono (Except.le_refl _) fun target => ?_
    exact Except.bind_mono (Condition.renderClause_mono h hd _ " WHERE" s.filter) fun _ =>
      Except.le_refl _

/-! ### Statements at any depth -/

omit h

/-- A query that can be rendered has the same SQL in every dialect that covers the first. -/
theorem Query.render_mono (q : Query) : Except.Le (q.render d) (q.render d') :=
  fold_rel Except.Le (fun s => Select.render_mono (fun p => p.2) hd s) q

theorem Statement.render_mono (s : Statement) : Except.Le (s.render d) (s.render d') := by
  have hq := fun q => Query.render_mono hd q
  cases s with
  | select s => exact hq (.of s)
  | insert s => exact Insert.render_mono hq s
  | update s => exact Update.render_mono hq hd s
  | delete s => exact Delete.render_mono hq hd s
  | literal sql => exact Except.le_refl _

theorem CommonTable.render_mono (t : CommonTable) : Except.Le (t.render d) (t.render d') := by
  refine Except.bind_mono (Except.le_refl _) fun _ => ?_
  refine Except.bind_mono (Except.le_refl _) fun _ => ?_
  exact Except.bind_mono (Statement.render_mono hd t.statement) fun _ => Except.le_refl _

theorem With.render_mono (s : With) : Except.Le (s.render d) (s.render d') := by
  simp only [render]
  cases s.tables.isEmpty with
  | true =>
    intro _ hs
    cases hs
  | false =>
    cases s.statement with
    | none =>
      intro _ hs
      cases hs
    | some statement =>
      refine Except.bind_mono (Except.mapM_mono (CommonTable.render_mono hd) s.tables) fun _ => ?_
      exact Except.bind_mono (Statement.render_mono hd statement) fun _ => Except.le_refl _

/-- A command that can be rendered has the same SQL in every dialect that covers the first. -/
theorem Command.render_mono (c : Command) : Except.Le (c.render d) (c.render d') := by
  cases c with
  | select s => exact Statement.render_mono hd (.select s)
  | insert s => exact Statement.render_mono hd (.insert s)
  | update s => exact Statement.render_mono hd (.update s)
  | delete s => exact Statement.render_mono hd (.delete s)
  | commonTables s => exact With.render_mono hd s

end SqlAssembly
