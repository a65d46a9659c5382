import SqlAssembly.Proofs.Clauses
import SqlAssembly.Proofs.InsertRows
import SqlAssembly.Proofs.Query.Rows
import SqlAssembly.Proofs.Traversal
import SqlAssembly.Proofs.Writing.Statement

/-!
# Bound values

The values of a command that assembles are those that its structure contributes, in the order of
`Command.bound`: none is lost, none is repeated and none changes its place. Rendering follows the
traversal part by part, provided that rendering the queries inside follows traversing them.
-/

namespace SqlAssembly

variable {σ : Type} {f : σ → Rendered} {g : σ → List Value}
  (h : ∀ q sql, f q = .ok sql → sql.values = g q) {d : Dialect} {owner : Option RecordType}

include h

/-! ### Conditions -/

theorem Operand.values_render {o : Operand σ} {sql : Option Sql}
    (hsql : (o.map f).render owner = .ok sql) : sql.elim [] Sql.values = (o.map g).bound := by
  cases o with
  | absent =>
    cases hsql
    rfl
  | value v =>
    cases hsql
    rfl
  | literal s =>
    cases hsql
    rfl
  | field c =>
    obtain ⟨field, hfield, hsql⟩ := Except.bind_eq_ok.1 hsql
    cases hsql
    exact Field.values_sql hfield
  | subquery q =>
    obtain ⟨inner, hinner, hsql⟩ := Except.bind_eq_ok.1 hsql
    cases hsql
    simpa [Sql.parenthesized, map, bound] using h q inner hinner

theorem Predicate.values_render {p : Predicate σ} {sql : Sql}
    (hsql : (p.map f).render d owner = .ok sql) : sql.values = (p.map g).operand.bound := by
  obtain ⟨_, _, hsql⟩ := Except.bind_eq_ok.1 hsql
  obtain ⟨field, hfield, hsql⟩ := Except.bind_eq_ok.1 hsql
  obtain ⟨operand, hoperand, hsql⟩ := Except.bind_eq_ok.1 hsql
  have hoperand := Operand.values_render h hoperand
  cases hsql
  have hmap : (p.map g).operand = p.operand.map g := rfl
  rw [hmap, ← hoperand]
  cases operand <;> split <;> simp [Field.values_sql hfield, spaced]

namespace Node

omit h

mutual

theorem values_render (h : ∀ q sql, f q = .ok sql → sql.values = g q) {style : ConditionStyle}
    {n : Node σ} {sql : Option Sql}
    (hsql : (n.map f).render d owner style = .ok sql) :
    sql.elim [] Sql.values = (n.map g).bound := by
  match n with
  | leaf c p =>
    obtain ⟨inner, hinner, hsql⟩ :=
      Except.bind_eq_ok.1 (by simpa only [Node.map, render] using hsql)
    cases hsql
    simpa [Sql.enclosed, Node.map, bound] using Predicate.values_render h hinner
  | group c ns =>
    obtain ⟨parts, hparts, hsql⟩ :=
      Except.bind_eq_ok.1 (by simpa only [Node.map, render] using hsql)
    have hvalues := values_renderAll h hparts
    rw [← values_joinSiblings] at hvalues
    rw [Node.map, bound, ← hvalues]
    split at hsql
    · rename_i hblank
      cases hsql
      exact (Sql.values_eq_nil_of_isBlank hblank).symm
    · cases hsql
      simp [Sql.enclosed]

theorem values_renderAll (h : ∀ q sql, f q = .ok sql → sql.values = g q) {style : ConditionStyle}
    {ns : List (Node σ)} {parts : List (Connector × Sql)}
    (hparts : renderAll d owner style (mapAll f ns) = .ok parts) :
    siblingValues parts = boundAll (mapAll g ns) := by
  match ns with
  | [] =>
    cases hparts
    rfl
  | n :: ns =>
    obtain ⟨first, hfirst, hparts⟩ :=
      Except.bind_eq_ok.1 (by simpa only [mapAll, renderAll] using hparts)
    obtain ⟨rest, hrest, hparts⟩ := Except.bind_eq_ok.1 hparts
    have hfirst := values_render h hfirst
    have hrest := values_renderAll h hrest
    cases hparts
    rw [mapAll, boundAll, ← hfirst, ← hrest]
    cases first <;> simp [siblingValues]

end

end Node

theorem Condition.values_renderClause {keyword : String} {c : Condition σ} {sql : Sql}
    (hsql : (c.map f).renderClause keyword d owner = .ok sql) :
    sql.values = (c.map g).bound := by
  obtain ⟨condition, hcondition, hsql⟩ := Except.bind_eq_ok.1 hsql
  obtain ⟨_, _, hcondition⟩ := Except.bind_eq_ok.1 hcondition
  obtain ⟨parts, hparts, hcondition⟩ := Except.bind_eq_ok.1 hcondition
  have hvalues := Node.values_renderAll h hparts
  rw [← Node.values_joinSiblings] at hvalues
  cases hcondition
  rw [bound, map, ← hvalues]
  split at hsql
  · rename_i hblank
    cases hsql
    exact (Sql.values_eq_nil_of_isBlank hblank).symm
  · cases hsql
    simp

/-! ### Selects -/

/-- The values of a bound source. -/
def Binding.bound (b : Binding (List Value)) : List Value :=
  match b.body with
  | .table _ _ => []
  | .query values => values

theorem Binding.values_sql {b : Binding σ} {sql : Sql} (hsql : (b.map f).sql = .ok sql) :
    sql.values = (b.map g).bound := by
  obtain ⟨qualifier, alias?, schema, qualifies, record, body⟩ := b
  cases body with
  | table table schema =>
    cases hsql
    simp [values_tableSql, values_aliasSql, map, SourceBody.map, bound]
  | query q =>
    obtain ⟨inner, hinner, hsql⟩ := Except.bind_eq_ok.1 hsql
    cases hsql
    simp [Sql.parenthesized, values_aliasSql, map, SourceBody.map, bound, h q inner hinner]

omit h

theorem Binding.bound_eq (b : Binding (List Value)) : b.bound = b.body.queries.flatten := by
  unfold bound SourceBody.queries
  cases b.body <;> simp

theorem Binding.bound_ofSource {taken : List String} {s : Source (List Value)}
    {b : Binding (List Value)} (hb : ofSource taken s = .ok b) :
    b.bound = s.queries.flatten := by
  have hof : b.IsOf s := ⟨taken, hb⟩
  rw [bound_eq, hof.spec.2]

theorem SourceItem.bound_bindAll (lateral : Bool) {taken : List String}
    {items : List (SourceItem (List Value))} {bs : List (BoundItem (List Value))}
    (hbs : bindAll taken items = .ok bs) :
    (BoundItem.sources lateral bs).flatMap Binding.bound
      = items.flatMap (SourceItem.bound lateral) := by
  induction items generalizing taken bs with
  | nil =>
    cases hbs
    rfl
  | cons i is ih =>
    match i with
    | .plain s _ | .lateral s _ =>
      obtain ⟨b, hb, hbs⟩ := Except.bind_eq_ok.1 (by simpa only [bindAll] using hbs)
      obtain ⟨rest, hrest, hbs⟩ := Except.bind_eq_ok.1 hbs
      cases hbs
      rw [List.flatMap_cons, ← ih hrest]
      cases lateral <;> simp [BoundItem.sources, SourceItem.bound, Binding.bound_ofSource hb]
    | .expressions _ =>
      obtain ⟨rest, hrest, hbs⟩ := Except.bind_eq_ok.1 (by simpa only [bindAll] using hbs)
      cases hbs
      rw [List.flatMap_cons, ← ih hrest]
      simp [BoundItem.sources, SourceItem.bound]

theorem Join.bound_bindAll {taken : List String} {joins : List (Join (List Value))}
    {bs : List (BoundJoin (List Value))} (hbs : bindAll taken joins = .ok bs) :
    bs.flatMap (fun j => j.binding.bound)
      = joins.flatMap fun j => j.source.queries.flatten := by
  induction joins generalizing taken bs with
  | nil =>
    cases hbs
    rfl
  | cons j js ih =>
    obtain ⟨b, hb, hbs⟩ := Except.bind_eq_ok.1 (by simpa only [bindAll] using hbs)
    obtain ⟨rest, hrest, hbs⟩ := Except.bind_eq_ok.1 hbs
    cases hbs
    simp [ih hrest, Binding.bound_ofSource hb]

include h

namespace Select

theorem values_fromSql {items : List (BoundItem σ)} {sql : Sql}
    (hsql : fromSql (items.map (BoundItem.map f)) = .ok sql) :
    sql.values
      = (BoundItem.sources false (items.map (BoundItem.map g))).flatMap Binding.bound
        ++ (BoundItem.sources true (items.map (BoundItem.map g))).flatMap Binding.bound := by
  obtain ⟨plain, hplain, hsql⟩ := Except.bind_eq_ok.1 hsql
  obtain ⟨lateral, hlateral, hsql⟩ := Except.bind_eq_ok.1 hsql
  rw [BoundItem.sources_map, List.mapM_map] at hplain hlateral
  have hplain := Sql.valuesAll_mapM (fun b _ hb => Binding.values_sql h (b := b) hb) hplain
  have hlateral := Sql.valuesAll_mapM (g := fun b : Binding σ => (b.map g).bound)
    (fun b sql hb => by
      obtain ⟨source, hsource, hb⟩ := Except.bind_eq_ok.1 hb
      cases hb
      simpa using Binding.values_sql h hsource) hlateral
  rw [BoundItem.sources_map, BoundItem.sources_map, List.flatMap_map, List.flatMap_map,
    ← hplain, ← hlateral, ← Sql.valuesAll_append]
  cases htables : plain ++ lateral with
  | nil =>
    rw [htables] at hsql
    cases hsql
    rfl
  | cons t ts =>
    rw [htables] at hsql
    cases hsql
    simp

theorem values_joinsSql {prior : List (Binding σ)} {joins : List (BoundJoin σ)}
    {clauses : List Sql}
    (hclauses : joinsSql (prior.map (Binding.map f)) (joins.map (BoundJoin.map f)) = .ok clauses) :
    Sql.valuesAll clauses = (joins.map (BoundJoin.map g)).flatMap fun j => j.binding.bound := by
  induction joins generalizing prior clauses with
  | nil =>
    cases hclauses
    rfl
  | cons j js ih =>
    obtain ⟨first, hfirst, hclauses⟩ :=
      Except.bind_eq_ok.1 (by simpa only [List.map_cons, joinsSql] using hclauses)
    obtain ⟨rest, hrest, hclauses⟩ := Except.bind_eq_ok.1 hclauses
    obtain ⟨source, hsource, hfirst⟩ := Except.bind_eq_ok.1 hfirst
    obtain ⟨condition, hcondition, hfirst⟩ := Except.bind_eq_ok.1 hfirst
    have hrest : joinsSql ((prior ++ [j.binding]).map (Binding.map f))
        (js.map (BoundJoin.map f)) = .ok rest := by
      simpa [BoundJoin.map] using hrest
    have hrest := ih hrest
    cases hfirst
    cases hclauses
    simp [hrest, Binding.values_sql h hsource, values_joinOnSql hcondition, BoundJoin.map]

theorem values_unionsSql {bare : Bool} {unions : List (UnionPart σ)} {members : List Sql}
    (hmembers : unionsSql bare (unions.map (UnionPart.map f)) = .ok members) :
    Sql.valuesAll members
      = (unions.map (UnionPart.map g)).flatMap fun u => u.member.queries.flatten := by
  induction unions generalizing bare members with
  | nil =>
    cases hmembers
    rfl
  | cons u us ih =>
    obtain ⟨first, hfirst, hmembers⟩ :=
      Except.bind_eq_ok.1 (by simpa only [List.map_cons, unionsSql] using hmembers)
    obtain ⟨rest, hrest, hmembers⟩ := Except.bind_eq_ok.1 hmembers
    have hfirst : first.values = (u.member.map g).queries.flatten := by
      obtain ⟨m, kind⟩ := u
      cases m with
      | query q => simpa [UnionMember.map, UnionMember.queries] using h q first hfirst
      | literal sql =>
        cases hfirst
        rfl
      | refused kind => cases hfirst
    cases hmembers
    cases bare <;> simp [ih hrest, hfirst, UnionPart.map]

theorem values_headSql {s : Select σ} {clauses : List Sql}
    (hclauses : (s.map f).headSql = .ok clauses) :
    Sql.valuesAll clauses
      = (s.map g).items.flatMap (SourceItem.bound false)
        ++ (s.map g).items.flatMap (SourceItem.bound true)
        ++ (s.map g).joins.flatMap fun j => j.source.queries.flatten := by
  obtain ⟨bound, hbound, hclauses⟩ := Except.bind_eq_ok.1 hclauses
  rw [Scope.bind_map] at hbound
  obtain ⟨scope, hscope, hbound⟩ := Except.map_eq_ok.1 hbound
  subst hbound
  have hscope : Scope.bind (s.map g) = .ok (scope.map g) := by rw [Scope.bind_map, hscope]; rfl
  obtain ⟨items, hitems, hscope⟩ := Except.bind_eq_ok.1 hscope
  obtain ⟨joins, hjoins, hscope⟩ := Except.bind_eq_ok.1 hscope
  obtain ⟨rfl, rfl⟩ : items = scope.items.map (BoundItem.map g)
      ∧ joins = scope.joins.map (BoundJoin.map g) := by
    simpa [Scope.map] using hscope
  obtain ⟨columns, hcolumns, hclauses⟩ := Except.bind_eq_ok.1 hclauses
  obtain ⟨sources, hsources, hclauses⟩ := Except.bind_eq_ok.1 hclauses
  obtain ⟨joined, hjoined, hclauses⟩ := Except.bind_eq_ok.1 hclauses
  rw [Scope.fromBindings_map] at hjoined
  have hsources := values_fromSql h hsources
  have hjoined := values_joinsSql h hjoined
  rw [SourceItem.bound_bindAll false hitems, SourceItem.bound_bindAll true hitems] at hsources
  rw [Join.bound_bindAll hjoins] at hjoined
  cases hclauses
  simp [values_listSql _ hcolumns, hsources, hjoined]

theorem values_filterSql {s : Select σ} {clauses : List Sql}
    (hclauses : (s.map f).filterSql d = .ok clauses) :
    Sql.valuesAll clauses = (s.map g).filter.bound ++ (s.map g).having.bound := by
  obtain ⟨filter, hfilter, hclauses⟩ := Except.bind_eq_ok.1 hclauses
  obtain ⟨groupBy, hgroupBy, hclauses⟩ := Except.bind_eq_ok.1 hclauses
  obtain ⟨having, hhaving, hclauses⟩ := Except.bind_eq_ok.1 hclauses
  have hfilter := Condition.values_renderClause h hfilter
  have hhaving := Condition.values_renderClause h hhaving
  cases hclauses
  simp [hfilter, hhaving, values_groupBySql hgroupBy, map]

theorem values_render {s : Select σ} {sql : Sql} (hsql : (s.map f).render d = .ok sql) :
    sql.values = (s.map g).bound := by
  have hitems : (s.map f).items.isEmpty = (s.map g).items.isEmpty := by simp [map]
  obtain ⟨_, hsql⟩ := render_eq_ok.1 hsql
  rw [hitems] at hsql
  cases hempty : (s.map g).items.isEmpty with
  | true =>
    rw [hempty, if_pos rfl] at hsql
    obtain ⟨members, tail, hmembers, htail, rfl⟩ := hsql
    have hmembers : Sql.valuesAll members = (s.map g).unions.flatMap _ :=
      values_unionsSql h hmembers
    rw [bound, hempty, if_pos rfl, ← hmembers]
    simp [values_tailSql htail]
  | false =>
    rw [hempty, if_neg Bool.false_ne_true] at hsql
    obtain ⟨head, filter, tail, members, hhead, hfilter, htail, hmembers, rfl⟩ := hsql
    have hhead := values_headSql h hhead
    have hfilter := values_filterSql h hfilter
    have hmembers : Sql.valuesAll members = (s.map g).unions.flatMap _ :=
      values_unionsSql h hmembers
    rw [bound, hempty, if_neg Bool.false_ne_true, ← hmembers]
    simp [hhead, hfilter, values_tailSql htail]

end Select

omit h

/-- A query that can be rendered binds the values of its traversal. -/
theorem Query.values_render {q : Query} {sql : Sql} (hsql : q.render d = .ok sql) :
    sql.values = q.bound := by
  let R (r : Rendered) (vs : List Value) : Prop := ∀ sql, r = .ok sql → sql.values = vs
  have hR : R (q.render d) q.bound :=
    fold_rel R (fun s _ hs => Select.values_render (fun p => p.2) hs) q
  exact hR sql hsql

/-! ### Inserts -/

theorem Assignment.resolved_eq {assignments : List (Assignment σ)} {es : List (String × Operand σ)}
    (hes : resolveAll owner assignments = .ok es) : resolved owner assignments = es := by
  rw [resolveAll, Except.mapM_eq_ok] at hes
  induction hes with
  | nil => rfl
  | cons hab _ ih =>
    obtain ⟨column, hcolumn, hab⟩ := Except.bind_eq_ok.1 hab
    cases hab
    rw [resolved, List.filterMap_cons, hcolumn]
    exact congrArg (_ :: ·) ih

theorem Operand.flatMap_bound {columns : List String} {operands : List (Operand (List Value))}
    {row : List (String × Operand (List Value))}
    (hcolumns : List.Forall₂ (fun c o => row.filter (fun e => e.1 == c) = [(c, o)])
      columns operands) :
    operands.flatMap bound
      = columns.flatMap fun c => (row.filter fun e => e.1 == c).flatMap fun e => e.2.bound := by
  induction hcolumns with
  | nil => rfl
  | cons hco _ ih => simp [hco, ih]

/-- Ordering a row keeps its values. -/
theorem Insert.bound_orderRow {columns : List String} (hnodup : columns.Nodup) {number : Nat}
    {r : Row (List Value)} {operands : List (Operand (List Value))}
    (hoperands : orderRow owner columns number r = .ok operands) :
    operands.flatMap Operand.bound = r.bound owner columns := by
  cases r with
  | positional values =>
    simp only [orderRow] at hoperands
    split at hoperands
    · cases hoperands
      rfl
    · cases hoperands
  | named assignments =>
    obtain ⟨row, hrow, hoperands⟩ := Except.bind_eq_ok.1 hoperands
    split at hoperands
    · cases hoperands
    · rename_i hlength
      rw [Row.bound, Assignment.resolved_eq hrow]
      exact Operand.flatMap_bound (filter_column hnodup (not_not.1 hlength) hoperands)

include h

namespace Insert

theorem values_valuesSql {number : Nat} {columns : List String} {operands : List (Operand σ)}
    {parts : List Sql} (hlength : operands.length = columns.length)
    (hparts : valuesSql owner number columns (operands.map (Operand.map f)) = .ok parts) :
    Sql.valuesAll parts = (operands.map (Operand.map g)).flatMap Operand.bound := by
  induction columns generalizing operands parts with
  | nil =>
    obtain rfl : operands = [] := List.length_eq_zero_iff.1 hlength
    cases hparts
    rfl
  | cons column columns ih =>
    cases operands with
    | nil => simp at hlength
    | cons o os =>
      obtain ⟨operand, hoperand, hparts⟩ :=
        Except.bind_eq_ok.1 (by simpa only [List.map_cons, valuesSql] using hparts)
      have hoperand := Operand.values_render h hoperand
      cases operand with
      | none => cases hparts
      | some sql =>
        obtain ⟨rest, hrest, hparts⟩ := Except.bind_eq_ok.1 hparts
        have hrest := ih (by simpa using hlength) hrest
        cases hparts
        simp only [Option.elim_some] at hoperand
        simp [hoperand, hrest]

theorem values_rowsSql {columns : List String} (hnodup : columns.Nodup) {number : Nat}
    {rs : List (Row σ)} {rows : List (List (Operand σ))}
    (hrows : orderRows owner columns number rs = .ok rows) {parts : List Sql}
    (hparts : rowsSql owner columns number (rows.map (List.map (Operand.map f))) = .ok parts) :
    Sql.valuesAll parts = (rs.map (Row.map g)).flatMap (Row.bound owner columns) := by
  induction rs generalizing number rows parts with
  | nil =>
    cases hrows
    cases hparts
    rfl
  | cons r rs ih =>
    obtain ⟨operands, hoperands, hrows⟩ :=
      Except.bind_eq_ok.1 (by simpa only [orderRows] using hrows)
    obtain ⟨rest, hrest, hrows⟩ := Except.bind_eq_ok.1 hrows
    cases hrows
    obtain ⟨first, hfirst, hparts⟩ :=
      Except.bind_eq_ok.1 (by simpa only [List.map_cons, rowsSql] using hparts)
    obtain ⟨others, hothers, hparts⟩ := Except.bind_eq_ok.1 hparts
    cases hparts
    have hvalues := values_valuesSql h (length_orderRow hoperands) hfirst
    have hrow : orderRow owner columns number (r.map g) = .ok (operands.map (Operand.map g)) := by
      rw [orderRow_map, hoperands]
      rfl
    rw [bound_orderRow hnodup hrow] at hvalues
    simp [Sql.parenthesized, hvalues, ih hrest hothers]

theorem values_render {s : Insert σ} {sql : Sql} (hsql : (s.map f).render = .ok sql) :
    sql.values = (s.map g).bound := by
  obtain ⟨_, source, target, columns, mapped, parts, returning, htarget, _, _, hcolumns, hmapped,
    hparts, hreturning, rfl⟩ := render_eq_ok.1 hsql
  obtain ⟨source, hsource, rfl⟩ := Option.map_eq_some_iff.1 htarget
  have howner : (s.map g).target.bind Source.recordType? = source.recordType? := by
    simp [map, hsource]
  rw [Source.recordType?_map] at hcolumns hmapped hparts hreturning
  rw [columns_map] at hcolumns
  obtain ⟨ordered, hordered, rfl⟩ := Except.map_eq_ok.1 ((orderRows_map ..).symm.trans hmapped)
  have hvalues := values_rowsSql h (nodup_columns hcolumns) hordered hparts
  have hbound : (s.map g).bound
      = (s.rows.map (Row.map g)).flatMap (Row.bound source.recordType? columns) := by
    simp only [bound, howner, columns_map, hcolumns]
    rfl
  rw [hbound, ← hvalues]
  simp [values_returningClause hreturning]

end Insert

/-! ### Updates and deletes -/

omit h in
theorem Update.positionalAssignments_eq {s : Update σ} {assignments : List (Assignment σ)}
    (hs : s.positionalAssignments = .ok assignments) :
    s.fields.zipWith Assignment.mk (s.positional.getD []) = assignments := by
  unfold positionalAssignments at hs
  split at hs
  · rename_i hnone
    cases hs
    simp [hnone]
  · rename_i operands hsome
    split at hs
    · cases hs
      simp [hsome]
    · cases hs

omit h in
/-- What an update assigns are the latest of its assignments. -/
theorem Update.entries_merged {s : Update σ} {m : OrderedMap (Operand σ)}
    (hm : s.merged owner = .ok m) :
    m.entries = Entries.latest (Assignment.resolved owner
      (s.fields.zipWith Assignment.mk (s.positional.getD []) ++ s.assignments)) := by
  obtain ⟨positional, es, hpositional, hes, _, rfl⟩ := merged_eq_ok.1 hm
  rw [positionalAssignments_eq hpositional, Assignment.resolved_eq hes,
    OrderedMap.entries_ofEntries]

theorem Update.values_assignmentSql {column : String} {operand : Operand σ} {sql : Sql}
    (hsql : assignmentSql owner column (operand.map f) = .ok sql) :
    sql.values = (operand.map g).bound := by
  obtain ⟨inner, hinner, hsql⟩ := Except.bind_eq_ok.1 hsql
  have hinner := Operand.values_render h hinner
  cases inner with
  | none => cases hsql
  | some inner =>
    cases hsql
    simpa [Piece.values] using hinner

theorem Update.values_render {s : Update σ} {sql : Sql} (hsql : (s.map f).render d = .ok sql) :
    sql.values = (s.map g).bound := by
  obtain ⟨_, _, source, target, mapped, assignments, filter, returning, htarget, _, hmapped,
    hassignments, hfilter, hreturning, rfl⟩ := render_eq_ok.1 hsql
  obtain ⟨source, hsource, rfl⟩ := Option.map_eq_some_iff.1 htarget
  have howner : (s.map g).target.bind Source.recordType? = source.recordType? := by
    simp [map, hsource]
  rw [Source.recordType?_map] at hmapped hassignments hfilter hreturning
  obtain ⟨m, hm, rfl⟩ := Except.map_eq_ok.1 ((merged_map ..).symm.trans hmapped)
  have hmg : (s.map g).merged source.recordType? = .ok (m.map (Operand.map g)) := by
    rw [merged_map, hm]
    rfl
  have hassigned : Sql.valuesAll assignments
      = (m.map (Operand.map g)).entries.flatMap fun e => e.2.bound := by
    rw [OrderedMap.entries_map, Entries.map, List.mapM_map] at hassignments
    have hentry (e : String × Operand σ) (sql : Sql)
        (he : assignmentSql source.recordType? e.1 (e.2.map f) = .ok sql) :
        sql.values = (e.2.map g).bound :=
      values_assignmentSql h he
    rw [Sql.valuesAll_mapM hentry hassignments]
    simp [Entries.map, List.flatMap_map]
  rw [entries_merged hmg] at hassigned
  rw [bound, howner, ← hassigned]
  simp [Condition.values_renderClause h hfilter, values_returningClause hreturning, map]

theorem Delete.values_render {s : Delete σ} {sql : Sql} (hsql : (s.map f).render d = .ok sql) :
    sql.values = (s.map g).bound := by
  obtain ⟨_, source, target, filter, returning, _, _, hfilter, hreturning, rfl⟩ :=
    render_eq_ok.1 hsql
  simp [Condition.values_renderClause h hfilter, values_returningClause hreturning, bound, map]

/-! ### Statements at any depth -/

omit h

theorem Statement.values_render {s : Statement} {sql : Sql} (hsql : s.render d = .ok sql) :
    sql.values = s.bound := by
  have hq (q : Query) (sql : Sql) (hsql : q.render d = .ok sql) : sql.values = q.bound :=
    Query.values_render hsql
  cases s with
  | select s => exact hq (.of s) sql hsql
  | insert s => exact Insert.values_render hq hsql
  | update s => exact Update.values_render hq hsql
  | delete s => exact Delete.values_render hq hsql
  | literal s =>
    cases hsql
    rfl

theorem CommonTable.values_render {t : CommonTable} {sql : Sql} (hsql : t.render d = .ok sql) :
    sql.values = t.statement.bound := by
  obtain ⟨_, _, hsql⟩ := Except.bind_eq_ok.1 hsql
  obtain ⟨_, _, hsql⟩ := Except.bind_eq_ok.1 hsql
  obtain ⟨body, hbody, hsql⟩ := Except.bind_eq_ok.1 hsql
  cases hsql
  have hbody := Statement.values_render hbody
  cases t.columns.isEmpty <;> simp [Piece.values, Sql.parenthesized, hbody]

theorem With.values_render {s : With} {sql : Sql} (hsql : s.render d = .ok sql) :
    sql.values = s.bound := by
  obtain ⟨_, statement, tables, body, hstatement, htables, hbody, rfl⟩ := render_eq_ok.1 hsql
  have htables := Sql.valuesAll_mapM (fun t _ ht => CommonTable.values_render (t := t) ht) htables
  simp [bound, hstatement, htables, Statement.values_render hbody]

/-- A command that can be rendered binds the values of its traversal. -/
theorem Command.values_render {c : Command} {sql : Sql} (hsql : c.render d = .ok sql) :
    sql.values = c.bound := by
  cases c with
  | select s => exact Statement.values_render (s := .select s) hsql
  | insert s => exact Statement.values_render (s := .insert s) hsql
  | update s => exact Statement.values_render (s := .update s) hsql
  | delete s => exact Statement.values_render (s := .delete s) hsql
  | commonTables s => exact With.values_render hsql

/-! ### Commands -/

/-- No value is lost, repeated or moved: a command that assembles binds the values of its traversal.
There the conditions of a select, an update or a delete, once their groups are balanced, have the
values of the calls that built them, in call order. -/
theorem Command.values_assemble :
    (∀ (c : Command) (a : Assembled), c.assemble = .ok a → a.values = c.bound)
    ∧ (∀ (style : ConditionStyle) (calls : List (ConditionCall Query)),
        (Condition.build style calls).check = .ok () →
        ((Condition.build style calls).map Query.bound).bound
          = calls.flatMap ConditionCall.bound)
    ∧ (∀ (d : Dialect) (calls : List (SelectCall Query)),
        (Select.build d calls).filter
            = .build .parenthesized (calls.filterMap SelectCall.filterCall?)
          ∧ (Select.build d calls).having
            = .build .parenthesized (calls.filterMap SelectCall.havingCall?))
    ∧ (∀ (d : Dialect) (calls : List (UpdateCall Query)),
        (Update.build d calls).filter = .build .bare (calls.filterMap UpdateCall.filterCall?))
    ∧ ∀ (d : Dialect) (calls : List (DeleteCall Query)),
        (Delete.build d calls).filter = .build .bare (calls.filterMap DeleteCall.filterCall?) := by
  refine ⟨fun c a ha => ?_, fun _ _ h => Condition.bound_build h,
    fun d calls => ⟨Select.filter_build d calls, Select.having_build d calls⟩,
    Update.filter_build, Delete.filter_build⟩
  rw [assemble_eq] at ha
  obtain ⟨sql, hsql, rfl⟩ := Except.map_eq_ok.1 ha
  exact values_render hsql

/-- An update that assigns one column twice, reads another from a query and compares with a null and
with a list. -/
def Update.sample : Update Query :=
  .build .generic
    [.target (.table (.name "t") none),
      .assign [⟨"a", .value (.int 1)⟩, ⟨"b", .subquery (.of (Select.build .generic
        [.source (.table (.name "u") none) .all,
          .filter (.add .and { name := .name "x" } "=" (.value (.int 3)))]))⟩],
      .assign [⟨"a", .value (.int 2)⟩],
      .filter (.add .and { name := .name "c" } "IS NULL" (.value .null)),
      .filter (.add .and { name := .name "d" } "=" (.value (.list [.int 4, .int 5])))]

set_option maxRecDepth 10000 in
/-- The sample assembles and binds the values of its traversal; those of its condition are those of
its calls. -/
theorem Update.values_assemble_sample :
    (∃ a, (Command.update sample).assemble = .ok a
      ∧ a.values = (Command.update sample).bound
      ∧ a.values = [.int 2, .int 3, .list [.int 4, .int 5]])
    ∧ ∃ calls : List (ConditionCall Query), (Condition.build .bare calls).check = .ok ()
      ∧ sample.filter = .build .bare calls
      ∧ ((Condition.build .bare calls).map Query.bound).bound = [.list [.int 4, .int 5]] := by
  obtain ⟨hvalues, hcalls, -, hupdate, -⟩ := Command.values_assemble
  constructor
  · obtain ⟨sql, hsql⟩ : ∃ sql, (Command.update sample).render .generic = .ok sql := ⟨_, rfl⟩
    have ha : (Command.update sample).assemble = .ok ⟨sql.spell .generic 0, sql.values⟩ := by
      rw [Command.assemble_eq]
      exact congrArg _ hsql
    have hbound := hvalues _ _ ha
    exact ⟨_, ha, hbound, hbound.trans rfl⟩
  · exact ⟨_, rfl, hupdate _ _, (hcalls .bare _ rfl).trans rfl⟩

end SqlAssembly
