import SqlAssembly.Proofs.SourceNames
import SqlAssembly.Proofs.Wildcards

/-!
# Joins that are added at the end

A join is bound behind the sources before it, and its condition can name these alone. So further
joins at the end leave the names of all sources before them as they are (`Scope.bind_joining`), and
with the names the select list, the `FROM` list and the joins before them: up to its last join the
select is written as it was, the further joins follow, and their values are numbered behind those
before them (`Select.assemble_joining`).
-/

namespace SqlAssembly

variable {σ τ : Type} {d : Dialect}

/-! ### Binding further joins -/

/-- Joins are bound one after the other, so that those in front do not depend on those behind. -/
theorem Join.bindAll_append {taken : List String} {js ks : List (Join σ)}
    {bound : List (BoundJoin σ)} (h : bindAll taken (js ++ ks) = .ok bound) :
    ∃ front behind, bindAll taken js = .ok front
      ∧ bindAll (taken ++ (front.map BoundJoin.binding).map Binding.qualifier) ks = .ok behind
      ∧ bound = front ++ behind := by
  induction js generalizing taken bound with
  | nil => exact ⟨[], bound, rfl, by simpa using h, rfl⟩
  | cons j js ih =>
    obtain ⟨b, hb, h⟩ := Except.bind_eq_ok.1 h
    obtain ⟨rest, hrest, h⟩ := Except.bind_eq_ok.1 h
    cases h
    obtain ⟨front, behind, hfront, hbehind, rfl⟩ := ih hrest
    refine ⟨⟨j, b⟩ :: front, behind, ?_, by simpa using hbehind, rfl⟩
    rw [bindAll, hb, Except.ok_bind, hfront]
    rfl

namespace Select

/-- The select with further joins at the end. -/
def joining (js : List (Join σ)) (s : Select σ) : Select σ :=
  (js.map SelectCall.join).foldl apply s

theorem joining_eq (js : List (Join σ)) (s : Select σ) :
    s.joining js = { s with joins := s.joins ++ js } := by
  induction js generalizing s with
  | nil => simp [joining]
  | cons j js ih =>
    have happly := ih (s.apply (.join j))
    simp only [apply, List.append_assoc, List.singleton_append] at happly
    exact happly

theorem map_joining (f : σ → τ) (js : List (Join σ)) (s : Select σ) :
    (s.joining js).map f = (s.map f).joining (js.map (Join.map f)) := by
  simp only [joining_eq, map, List.map_append]

/-- The select with its entries and its joins, and with nothing behind them. -/
def headOnly (s : Select σ) : Select σ :=
  { dialect := s.dialect, distinct := s.distinct, items := s.items, joins := s.joins }

end Select

namespace Scope

/-- The scope with further joins at the end. -/
def joining (bound : List (BoundJoin σ)) (s : Scope σ) : Scope σ :=
  { s with joins := s.joins ++ bound }

theorem bindings_map (f : σ → τ) (s : Scope σ) :
    (s.map f).bindings = s.bindings.map (Binding.map f) := by
  rw [bindings, bindings, fromBindings_map, List.map_append, map, List.map_map, List.map_map]
  rfl

theorem map_joining (f : σ → τ) (bound : List (BoundJoin σ)) (s : Scope σ) :
    (s.joining bound).map f = (s.map f).joining (bound.map (BoundJoin.map f)) := by
  simp only [joining, map, List.map_append]

/-- Further joins are bound behind the sources of the select, which keep their names. -/
theorem bind_joining {s : Select σ} {js : List (Join σ)} {scope' : Scope σ}
    (h : bind (s.joining js) = .ok scope') :
    ∃ scope bound, bind s = .ok scope ∧ bound.map BoundJoin.join = js
      ∧ scope' = scope.joining bound := by
  rw [Select.joining_eq] at h
  obtain ⟨hitems, hjoins⟩ := bind_eq_ok.1 h
  obtain ⟨front, behind, hfront, hbehind, hsplit⟩ := Join.bindAll_append hjoins
  refine ⟨⟨scope'.items, front⟩, behind, bind_eq_ok.2 ⟨hitems, hfront⟩,
    BoundJoin.map_join (Join.forall₂_bindAll hbehind), ?_⟩
  rw [joining, ← hsplit]

/-- Joins that add no columns leave the select list as it is. -/
theorem selectList_joining (s : Scope σ) {bound : List (BoundJoin σ)}
    (h : ∀ j ∈ bound, j.join.columns = none) : (s.joining bound).selectList = s.selectList := by
  have hbound : bound.mapM BoundJoin.listSql = .ok (bound.map fun _ => []) := by
    refine Except.mapM_eq_ok.2 (List.forall₂_map_right_iff.2 (List.forall₂_same.2 fun j hj => ?_))
    rw [BoundJoin.listSql, h j hj]
    rfl
  rw [selectList_eq, selectList_eq, joining, List.mapM_append, hbound]
  cases s.items.mapM BoundItem.listSql with
  | error e => rfl
  | ok items =>
    cases s.joins.mapM BoundJoin.listSql with
    | error e => rfl
    | ok joins => simp [List.map_const']

end Scope

/-! ### Rendering further joins -/

namespace Select

theorem joinsSql_append {prior : List (Binding Rendered)} {front behind : List (BoundJoin Rendered)}
    {parts : List Sql} (h : joinsSql prior (front ++ behind) = .ok parts) :
    ∃ before after, joinsSql prior front = .ok before
      ∧ joinsSql (prior ++ front.map BoundJoin.binding) behind = .ok after
      ∧ parts = before ++ after := by
  induction front generalizing prior parts with
  | nil => exact ⟨[], parts, rfl, by simpa using h, rfl⟩
  | cons j front ih =>
    obtain ⟨first, hfirst, h⟩ := Except.bind_eq_ok.1 h
    obtain ⟨rest, hrest, h⟩ := Except.bind_eq_ok.1 h
    cases h
    obtain ⟨before, after, hbefore, hafter, rfl⟩ := ih hrest
    refine ⟨first :: before, after, ?_, by simpa using hafter, rfl⟩
    rw [joinsSql, hfirst, Except.ok_bind, hbefore]
    rfl

/-- Up to its last join a select is rendered as it is without further joins, and these follow. -/
theorem headSql_joining {s : Select Rendered} {js : List (Join Rendered)} {scope : Scope Rendered}
    {bound : List (BoundJoin Rendered)} {head' : List Sql} (hbind : Scope.bind s = .ok scope)
    (hbind' : Scope.bind (s.joining js) = .ok (scope.joining bound))
    (hcolumns : ∀ j ∈ bound, j.join.columns = none) (h : (s.joining js).headSql = .ok head') :
    ∃ head joined, s.headSql = .ok head ∧ joinsSql scope.bindings bound = .ok joined
      ∧ head' = head ++ joined := by
  rw [headSql, hbind', Except.ok_bind, Scope.selectList_joining scope hcolumns] at h
  obtain ⟨columns, hlist, h⟩ := Except.bind_eq_ok.1 h
  obtain ⟨sources, hsources, h⟩ := Except.bind_eq_ok.1 h
  obtain ⟨joins, hjoins, h⟩ := Except.bind_eq_ok.1 h
  cases h
  obtain ⟨before, joined, hbefore, hjoined, rfl⟩ := joinsSql_append hjoins
  refine ⟨listSql s.distinct columns :: sources :: before, joined, ?_, hjoined, ?_⟩
  · have hsources : fromSql scope.items = .ok sources := hsources
    have hbefore : joinsSql scope.fromBindings scope.joins = .ok before := hbefore
    simp [headSql, hbind, hlist, hsources, hbefore]
  · rw [joining_eq]
    rfl

/-- The clauses up to the last join stand in front of all others. -/
theorem exists_render_head {s : Select Rendered} {sql : Sql} (hitems : s.items ≠ [])
    (h : s.render d = .ok sql) :
    ∃ head rest, s.headSql = .ok head ∧ sql = Sql.join " " (present head ++ rest) := by
  obtain ⟨-, h⟩ := render_eq_ok.1 h
  rw [if_neg (by simpa using hitems)] at h
  obtain ⟨head, filter, tail, members, hhead, -, -, -, rfl⟩ := h
  refine ⟨head, present filter ++ present tail ++ members, hhead, ?_⟩
  rw [present_append, present_append, List.append_assoc, List.append_assoc, List.append_assoc]

theorem check_headOnly {s : Select σ} (hitems : s.items ≠ []) (h : s.check = .ok ()) :
    s.headOnly.check = .ok () := by
  obtain ⟨-, -, -, -, hjoins, -⟩ := check_eq_ok.1 h
  exact check_eq_ok.2 ⟨rfl, rfl, rfl, fun hnone => absurd hnone hitems, hjoins, nofun⟩

/-- Without other clauses the clauses up to the last join are all of the select. -/
theorem render_headOnly {s : Select Rendered} {head : List Sql} (hitems : s.items ≠ [])
    (hcheck : s.check = .ok ()) (hhead : s.headSql = .ok head) :
    s.headOnly.render d = .ok (Sql.join " " (present head)) := by
  refine render_eq_ok.2 ⟨check_headOnly hitems hcheck, ?_⟩
  have hsame : ¬ s.headOnly.items.isEmpty = true := mt List.isEmpty_iff.1 hitems
  rw [if_neg hsame]
  exact ⟨head, [[], [], []], [[], [], []], [], hhead, rfl, rfl, rfl, by simp⟩

theorem present_headSql_ne_nil {s : Select Rendered} {head : List Sql}
    (h : s.headSql = .ok head) : present head ≠ [] := by
  obtain ⟨_, _, h⟩ := Except.bind_eq_ok.1 h
  obtain ⟨_, _, h⟩ := Except.bind_eq_ok.1 h
  obtain ⟨_, _, h⟩ := Except.bind_eq_ok.1 h
  obtain ⟨_, _, h⟩ := Except.bind_eq_ok.1 h
  cases h
  exact List.cons_ne_nil _ _

end Select

/-- The text of parts is that of those in front, and then of the others behind their values. -/
theorem Sql.spell_join_append {front : List Sql} (hfront : front ≠ []) (rest : List Sql) :
    d.spell (join " " (front ++ rest)) = " ".intercalate
      (d.spell (join " " front) :: spellAll d (valuesAll front).length rest) := by
  rw [Dialect.spell, spell_join, spellAll_append, Dialect.spell, spell_join, Nat.zero_add]
  cases hrest : spellAll d (valuesAll front).length rest with
  | nil => simp
  | cons text texts =>
    have htexts := List.cons_ne_nil text texts
    rw [String.intercalate_append_of_ne_nil (mt (spellAll_eq_nil front).1 hfront) htexts,
      String.intercalate_cons_of_ne_nil htexts]

namespace Select

/-- Render joins behind sources that their conditions can name. -/
def renderJoins (d : Dialect) (prior : List (Binding Query)) (bound : List (BoundJoin Query)) :
    Except SqlError (List Sql) :=
  joinsSql (prior.map (Binding.map (Query.render d))) (bound.map (BoundJoin.map (Query.render d)))

/-- A select that is joined with something has entries. -/
theorem items_ne_nil_of_joining {s : Select σ} {js : List (Join σ)} (hjs : js ≠ [])
    (hcheck : (s.joining js).check = .ok ()) : s.items ≠ [] := by
  rw [joining_eq] at hcheck
  have hclause : ({ s with joins := s.joins ++ js } : Select σ).hasSourceClause = true := by
    simp [hasSourceClause, hjs]
  have hitems := items_ne_nil hcheck hclause
  exact hitems

/-- Up to its last join a select is rendered as it is without further joins, and these follow,
behind its sources. -/
theorem exists_render_joining {s : Select Query} {js : List (Join Query)} (hjs : js ≠ [])
    (hcolumns : ∀ j ∈ js, j.columns = none) {sql sql' : Sql}
    (h : (s.map (Query.render d)).render d = .ok sql)
    (h' : ((s.joining js).map (Query.render d)).render d = .ok sql') :
    ∃ scope bound head joined rest rest', Scope.bind s = .ok scope
      ∧ Scope.bind (s.joining js) = .ok (scope.joining bound) ∧ bound.map BoundJoin.join = js
      ∧ head ≠ [] ∧ (s.headOnly.map (Query.render d)).render d = .ok (Sql.join " " head)
      ∧ renderJoins d scope.bindings bound = .ok joined
      ∧ sql = Sql.join " " (head ++ rest) ∧ sql' = Sql.join " " (head ++ (joined ++ rest')) := by
  rw [map_joining] at h'
  have hitems : (s.map (Query.render d)).items ≠ [] :=
    items_ne_nil_of_joining (by simpa using hjs) (render_eq_ok.1 h').1
  obtain ⟨head, rest, hhead, rfl⟩ := exists_render_head hitems h
  obtain ⟨head', rest', hhead', rfl⟩ := exists_render_head (by rwa [joining_eq]) h'
  obtain ⟨scope', hbind', -⟩ := Except.bind_eq_ok.1 hhead'
  -- binding does not look into the queries, so the rendered scope comes from one of them
  obtain ⟨scope', hscope', rfl⟩ : ∃ scope, Scope.bind (s.joining js) = .ok scope
      ∧ scope.map (Query.render d) = scope' := by
    rw [← Except.map_eq_ok, ← Scope.bind_map, map_joining]
    exact hbind'
  obtain ⟨scope, bound, hscope, hbound, rfl⟩ := Scope.bind_joining hscope'
  have hbind : Scope.bind (s.map (Query.render d)) = .ok (scope.map (Query.render d)) := by
    rw [Scope.bind_map, hscope, Except.map_ok]
  have hnone : ∀ j ∈ bound.map (BoundJoin.map (Query.render d)), j.join.columns = none := by
    rw [List.forall_mem_map]
    exact fun j hj => hcolumns _ (hbound ▸ List.mem_map_of_mem hj)
  rw [Scope.map_joining] at hbind'
  obtain ⟨front, joined, hfront, hjoined, rfl⟩ := headSql_joining hbind hbind' hnone hhead'
  obtain rfl : head = front := Except.ok.inj (hhead.symm.trans hfront)
  refine ⟨scope, bound, present head, joined, rest, rest', hscope, hscope', hbound,
    present_headSql_ne_nil hhead, ?_, ?_, rfl, ?_⟩
  · exact render_headOnly hitems (render_eq_ok.1 h).1 hhead
  · rwa [renderJoins, ← Scope.bindings_map]
  · rw [present_append, present_joinsSql hjoined, List.append_assoc]

/-- Joins without columns of their own are added to a select that can be assembled without them and
with them. Then all sources of the select keep their names. Its text from `SELECT` to its last join,
or to the `FROM` list if it has none, is that of the select without all that stands behind, and it
is the same with the further joins, whose texts follow at once. What it binds comes first, and then
what the further joins bind. -/
theorem assemble_joining {s : Select Query} {js : List (Join Query)} (hjs : js ≠ [])
    (hcolumns : ∀ j ∈ js, j.columns = none) {a a' : Assembled}
    (ha : (Command.select s).assemble = .ok a)
    (ha' : (Command.select (s.joining js)).assemble = .ok a') :
    ∃ scope bound head joined, Scope.bind s = .ok scope
      ∧ Scope.bind (s.joining js) = .ok (scope.joining bound) ∧ bound.map BoundJoin.join = js
      ∧ (Command.select s.headOnly).assemble = .ok head
      ∧ renderJoins s.dialect scope.bindings bound = .ok joined
      ∧ (∃ rest, a.sql = " ".intercalate (head.sql :: rest)) ∧ head.values <+: a.values
      ∧ (∃ rest, a'.sql = " ".intercalate
          (head.sql :: Sql.spellAll s.dialect head.values.length joined ++ rest))
      ∧ head.values ++ Sql.valuesAll joined <+: a'.values := by
  obtain ⟨sql, hsql, rfl⟩ := (assemble_eq_ok rfl).1 ha
  have hdialect : (s.joining js).dialect = s.dialect := by rw [joining_eq]
  obtain ⟨sql', hsql', rfl⟩ := (assemble_eq_ok hdialect).1 ha'
  obtain ⟨scope, bound, head, joined, rest, rest', hbind, hbind', hbound, hne, hhead, hjoined, rfl,
    rfl⟩ := exists_render_joining hjs hcolumns hsql hsql'
  refine ⟨scope, bound, _, joined, hbind, hbind', hbound,
    (assemble_eq_ok rfl).2 ⟨_, hhead, rfl⟩, hjoined, ⟨_, Sql.spell_join_append hne rest⟩,
    ?_, ?_, ?_⟩
  · simp
  · refine ⟨Sql.spellAll s.dialect ((Sql.valuesAll head).length + (Sql.valuesAll joined).length)
      rest', ?_⟩
    show s.dialect.spell _ = _
    rw [Sql.spell_join_append hne, Sql.spellAll_append, Sql.values_join]
    rfl
  · simp

/-- The loans of a year. -/
def yearLoans : Source Query :=
  .subquery (.of (.build .generic [.source (.table (.name "loan") none) .all,
    .filter (.add .and { name := .name "year" } "=" (.value (.int 3)))])) none

/-- A table in a schema, which is joined with the table of that name. -/
def archivedBooks : Select Query :=
  .build .postgres [.source (.table (.name "book") (some "archive")) .all, .source yearLoans .all,
    .join { kind := .cross, source := .table (.name "book") none },
    .filter (.add .and { name := .name "id" } "=" (.value (.int 5)))]

/-- The same sources once more, as joins. -/
def furtherJoins : List (Join Query) :=
  [{ kind := .cross, source := .table (.name "book") none },
    { kind := .left, source := yearLoans
      condition := some (.columns (.name "book") (.name "book_3") (.name "id") "=") }]

set_option maxRecDepth 10000 in
/-- The further joins get aliases that are still free. Of the placeholders that were there, only the
one behind them gets another number. -/
theorem assemble_joining_archivedBooks :
    furtherJoins ≠ [] ∧ (∀ j ∈ furtherJoins, j.columns = none)
    ∧ (Command.select archivedBooks).assemble = .ok
      ⟨"SELECT \"archive\".\"book\".*,\"t\".* FROM \"archive\".\"book\", "
          ++ "(SELECT \"loan\".* FROM \"loan\" WHERE (\"year\" = $1)) AS \"t\" "
          ++ "CROSS JOIN \"book\" AS \"book_2\" WHERE (\"id\" = $2)", [.int 3, .int 5]⟩
    ∧ (Command.select (archivedBooks.joining furtherJoins)).assemble = .ok
      ⟨"SELECT \"archive\".\"book\".*,\"t\".* FROM \"archive\".\"book\", "
          ++ "(SELECT \"loan\".* FROM \"loan\" WHERE (\"year\" = $1)) AS \"t\" "
          ++ "CROSS JOIN \"book\" AS \"book_2\" CROSS JOIN \"book\" AS \"book_3\" "
          ++ "LEFT JOIN (SELECT \"loan\".* FROM \"loan\" WHERE (\"year\" = $2)) AS \"t_2\" "
          ++ "ON \"book_3\".\"id\"=\"t_2\".\"book\" WHERE (\"id\" = $3)",
        [.int 3, .int 3, .int 5]⟩
    ∧ ∃ scope bound, Scope.bind archivedBooks = .ok scope
      ∧ Scope.bind (archivedBooks.joining furtherJoins) = .ok (scope.joining bound)
      ∧ scope.bindings.map Binding.qualifier = ["book", "t", "book_2"]
      ∧ (scope.joining bound).bindings.map Binding.qualifier
        = ["book", "t", "book_2", "book_3", "t_2"]
      ∧ ∃ head, (Command.select archivedBooks.headOnly).assemble = .ok head
        ∧ head.values <+: [.int 3, .int 5] ∧ head.values = [.int 3] := by
  have hjs : furtherJoins ≠ [] := List.cons_ne_nil _ _
  have hcolumns : ∀ j ∈ furtherJoins, j.columns = none := by simp [furtherJoins]
  have ha : (Command.select archivedBooks).assemble = .ok ⟨_, [.int 3, .int 5]⟩ := rfl
  have ha' : (Command.select (archivedBooks.joining furtherJoins)).assemble
      = .ok ⟨_, [.int 3, .int 3, .int 5]⟩ := rfl
  refine ⟨hjs, hcolumns, ha, ha', ?_⟩
  obtain ⟨scope, bound, head, joined, hbind, hbind', -, hhead, -, -, hvalues, -⟩ :=
    assemble_joining hjs hcolumns ha ha'
  have hscope : Scope.bind (archivedBooks.joining furtherJoins) = .ok _ := rfl
  have hsame := Except.ok.inj (hscope.symm.trans hbind')
  refine ⟨scope, bound, hbind, hbind', ?_, ?_, head, hhead, hvalues, ?_⟩
  · cases hbind
    rfl
  · rw [← hsame]
    rfl
  · cases hhead
    rfl

end Select

end SqlAssembly
