import SqlAssembly.Proofs.Clauses
import SqlAssembly.Proofs.Query.Rows
import SqlAssembly.Proofs.Writing.Statement

/-!
# Lists without columns

For a source, for a join and behind `RETURNING` a list without columns means all of them, in every
statement and in all that are nested in it (`Command.assemble_of_withAll_eq`).
-/

namespace SqlAssembly

variable {σ τ : Type}

/-! ### All columns in place of none -/

/-- All columns in the place of an empty list. -/
def Columns.withAll : Columns → Columns
  | .list [] => .all
  | columns => columns

@[simp] theorem Columns.listed_withAll (columns : Columns) :
    columns.withAll.listed = columns.listed := by
  match columns with
  | .all | .list [] | .list (_ :: _) => rfl

/-- The item with all columns of its source where none are listed. -/
def SourceItem.withAll : SourceItem σ → SourceItem σ
  | plain source columns => plain source columns.withAll
  | lateral source columns => lateral source columns.withAll
  | expressions columns => expressions columns

/-- The join with all columns of its source where an empty list is given. -/
def Join.withAll (j : Join σ) : Join σ := { j with columns := j.columns.map Columns.withAll }

/-- The select with all columns of each source for which an empty list is given. -/
def Select.withAll (s : Select σ) : Select σ :=
  { s with items := s.items.map SourceItem.withAll, joins := s.joins.map Join.withAll }

/-- The query with all columns of each source, in it or in a query inside it, for which an empty
list is given. -/
def Query.withAll : Query → Query := fold fun s => .of s.withAll

/-- The statement with all columns wherever an empty list is given. -/
def Statement.withAll : Statement → Statement
  | select s => .select (Query.of s).withAll.select
  | insert s =>
    .insert { s.map Query.withAll with returning := s.returning.map Columns.withAll }
  | update s =>
    .update { s.map Query.withAll with returning := s.returning.map Columns.withAll }
  | delete s =>
    .delete { s.map Query.withAll with returning := s.returning.map Columns.withAll }
  | literal sql => .literal sql

/-- The common table with all columns wherever its statement is given an empty list. -/
def CommonTable.withAll (t : CommonTable) : CommonTable :=
  { t with statement := t.statement.withAll }

/-- The command with all columns wherever an empty list is given, at any depth. Two commands that
this makes the same differ at most in whether they were given an empty list or none. -/
def Command.withAll : Command → Command
  | select s => .select (Query.of s).withAll.select
  | insert s =>
    .insert { s.map Query.withAll with returning := s.returning.map Columns.withAll }
  | update s =>
    .update { s.map Query.withAll with returning := s.returning.map Columns.withAll }
  | delete s =>
    .delete { s.map Query.withAll with returning := s.returning.map Columns.withAll }
  | commonTables s =>
    .commonTables
      { s with
        tables := s.tables.map CommonTable.withAll
        statement := s.statement.map Statement.withAll }

/-! ### Scopes -/

def BoundItem.withAll : BoundItem σ → BoundItem σ
  | source binding lateral columns => source binding lateral columns.withAll
  | expressions columns => expressions columns

def BoundJoin.withAll (j : BoundJoin σ) : BoundJoin σ := { j with join := j.join.withAll }

def Scope.withAll (s : Scope σ) : Scope σ :=
  ⟨s.items.map BoundItem.withAll, s.joins.map BoundJoin.withAll⟩

@[simp] theorem Binding.listSql_withAll (b : Binding σ) (qualify : Bool) (columns : Columns) :
    b.listSql qualify columns.withAll = b.listSql qualify columns := by
  rw [listSql, listSql, Columns.listed_withAll]

namespace BoundItem

@[simp] theorem listSql_withAll (i : BoundItem σ) : i.withAll.listSql = i.listSql := by
  cases i <;> simp [withAll, listSql]

@[simp] theorem binding?_withAll (i : BoundItem σ) : i.withAll.binding? = i.binding? := by
  cases i <;> rfl

@[simp] theorem sources_map_withAll (lateral : Bool) (items : List (BoundItem σ)) :
    sources lateral (items.map withAll) = sources lateral items := by
  rw [sources, sources, List.filterMap_map]
  refine List.filterMap_congr fun i _ => ?_
  cases i <;> rfl

end BoundItem

theorem SourceItem.bindAll_map_withAll (taken : List String) (items : List (SourceItem σ)) :
    bindAll taken (items.map withAll) = (bindAll taken items).map (List.map BoundItem.withAll) := by
  induction items generalizing taken with
  | nil => rfl
  | cons i items ih =>
    cases i with
    | plain source columns | lateral source columns =>
      simp only [List.map_cons, withAll, bindAll, ih]
      cases Binding.ofSource taken source with
      | error e => rfl
      | ok b =>
        simp only [Except.ok_bind]
        cases bindAll (taken ++ [b.qualifier]) items <;> rfl
    | expressions columns =>
      simp only [List.map_cons, withAll, bindAll, ih]
      cases bindAll taken items <;> rfl

theorem Join.bindAll_map_withAll (taken : List String) (joins : List (Join σ)) :
    bindAll taken (joins.map withAll) = (bindAll taken joins).map (List.map BoundJoin.withAll) := by
  induction joins generalizing taken with
  | nil => rfl
  | cons j joins ih =>
    simp only [List.map_cons, bindAll, ih, withAll]
    cases Binding.ofSource taken j.source with
    | error e => rfl
    | ok b =>
      simp only [Except.ok_bind]
      cases bindAll (taken ++ [b.qualifier]) joins <;> rfl

namespace Scope

theorem fromBindings_withAll (s : Scope σ) : s.withAll.fromBindings = s.fromBindings := by
  simp [fromBindings, withAll, List.filterMap_map]

/-- An empty list does not change what sources are bound to. -/
theorem bind_withAll (s : Select σ) : bind s.withAll = (bind s).map withAll := by
  simp only [bind, Select.withAll, SourceItem.bindAll_map_withAll]
  cases SourceItem.bindAll [] s.items with
  | error e => rfl
  | ok items =>
    simp only [Except.map_ok, Except.ok_bind, List.filterMap_map, Join.bindAll_map_withAll,
      Function.comp_def, BoundItem.binding?_withAll]
    cases Join.bindAll ((items.filterMap BoundItem.binding?).map Binding.qualifier) s.joins <;> rfl

/-- A select list, which may not be empty. -/
def listed : List Sql → Except SqlError (List Sql)
  | [] => throw .emptySelectList
  | columns => return columns

/-- The select list: the columns of the items, then those of the joins. -/
theorem selectList_eq (s : Scope σ) :
    s.selectList
      = (do
        let items ← s.items.mapM BoundItem.listSql
        let joins ← s.joins.mapM BoundJoin.listSql
        listed (items ++ joins).flatten) := rfl

theorem selectList_withAll (s : Scope σ) : s.withAll.selectList = s.selectList := by
  have hjoin (j : BoundJoin σ) : j.withAll.listSql = j.listSql := by
    unfold BoundJoin.listSql
    cases hcolumns : j.join.columns <;> simp [BoundJoin.withAll, Join.withAll, hcolumns]
  rw [selectList_eq, selectList_eq]
  simp only [withAll, List.mapM_map, Function.comp_def, BoundItem.listSql_withAll, hjoin]

end Scope

/-! ### Rendering -/

namespace Select

theorem check_withAll (s : Select σ) : s.withAll.check = s.check := by
  have hsource (i : SourceItem σ) : i.withAll.isSource = i.isSource := by cases i <;> rfl
  simp only [check, checkBareUnion, hasSourceClause, withAll, List.isEmpty_map, List.any_map,
    Function.comp_def, hsource]
  rfl

theorem target_withAll (s : Select σ) : s.withAll.target = s.target := by
  obtain ⟨_, _, items, joins⟩ := s
  match items, joins with
  | [], _ | [.lateral _ _], _ | [.expressions _], _ => rfl
  | i :: _ :: _, _ => cases i <;> rfl
  | [.plain source columns], [] => rfl
  | [.plain source columns], _ :: _ => rfl

theorem joinsSql_withAll (prior : List (Binding Rendered)) (joins : List (BoundJoin Rendered)) :
    joinsSql prior (joins.map BoundJoin.withAll) = joinsSql prior joins := by
  induction joins generalizing prior with
  | nil => rfl
  | cons j joins ih =>
    rw [List.map_cons, joinsSql, joinsSql, ← ih]
    rfl

theorem headSql_withAll (s : Select Rendered) : s.withAll.headSql = s.headSql := by
  rw [headSql, headSql, Scope.bind_withAll]
  cases Scope.bind s with
  | error e => rfl
  | ok scope =>
    have hfrom : fromSql scope.withAll.items = fromSql scope.items := by
      rw [fromSql, fromSql, Scope.withAll, BoundItem.sources_map_withAll,
        BoundItem.sources_map_withAll]
    have hjoins : joinsSql scope.withAll.fromBindings scope.withAll.joins
        = joinsSql scope.fromBindings scope.joins := by
      rw [Scope.fromBindings_withAll]
      exact joinsSql_withAll _ _
    simp only [Except.map_ok, Except.ok_bind, Scope.selectList_withAll, hfrom, hjoins]
    rfl

theorem render_withAll (d : Dialect) (s : Select Rendered) : s.withAll.render d = s.render d := by
  have hitems : s.withAll.items.isEmpty = s.items.isEmpty := List.isEmpty_map
  have hfilter : s.withAll.filterSql d = s.filterSql d := by
    rw [filterSql, target_withAll]
    rfl
  rw [render, render, check_withAll, headSql_withAll, hfilter, hitems]
  rfl

theorem map_withAll (f : σ → τ) (s : Select σ) : s.withAll.map f = (s.map f).withAll := by
  have hitem (i : SourceItem σ) : i.withAll.map f = (i.map f).withAll := by cases i <;> rfl
  simp only [map, withAll, List.map_map, Function.comp_def, hitem]
  rfl

end Select

theorem returningClause_withAll (owner : Option RecordType) (columns : Option Columns) :
    returningClause owner (columns.map Columns.withAll) = returningClause owner columns := by
  cases columns with
  | none => rfl
  | some columns =>
    simp only [Option.map_some, returningClause, Columns.returningSql, Columns.listed_withAll]

/-! ### Statements -/

section Statements

variable (d : Dialect)

theorem Query.render_withAll (q : Query) : q.withAll.render d = q.render d := by
  refine fold_fusion (render d) ?_ q
  intro s
  rw [render_of, Select.map_withAll, Select.render_withAll]

theorem Query.render_comp_withAll : render d ∘ withAll = render d := funext (render_withAll d)

theorem Insert.render_withAll (s : Insert Rendered) :
    { s with returning := s.returning.map Columns.withAll }.render = s.render := by
  simp only [render, returningClause_withAll]
  rfl

theorem Update.render_withAll (s : Update Rendered) :
    { s with returning := s.returning.map Columns.withAll }.render d = s.render d := by
  simp only [render, returningClause_withAll]
  rfl

theorem Delete.render_withAll (s : Delete Rendered) :
    { s with returning := s.returning.map Columns.withAll }.render d = s.render d := by
  simp only [render, returningClause_withAll]

theorem Statement.render_withAll (s : Statement) : s.withAll.render d = s.render d := by
  have hqueries := Query.render_comp_withAll d
  cases s with
  | select s => exact Query.render_withAll d (.of s)
  | insert s =>
    refine (Insert.render_withAll ((s.map Query.withAll).map (Query.render d))).trans ?_
    rw [Insert.map_map, hqueries]
    rfl
  | update s =>
    refine (Update.render_withAll d ((s.map Query.withAll).map (Query.render d))).trans ?_
    rw [Update.map_map, hqueries]
    rfl
  | delete s =>
    refine (Delete.render_withAll d ((s.map Query.withAll).map (Query.render d))).trans ?_
    rw [Delete.map_map, hqueries]
    rfl
  | literal sql => rfl

theorem CommonTable.render_withAll (t : CommonTable) : t.withAll.render d = t.render d := by
  unfold render
  simp only [withAll, Statement.render_withAll]
  rfl

end Statements

namespace Command

variable (d : Dialect)

theorem dialect_withAll (c : Command) : c.withAll.dialect = c.dialect := by
  cases c with
  | select s => simp [withAll, Query.withAll, Query.select, Select.withAll, dialect, Select.map]
  | _ => rfl

/-- An empty list of columns is rendered like all columns. -/
theorem render_withAll (c : Command) : c.withAll.render d = c.render d := by
  cases c with
  | select s => exact Statement.render_withAll d (.select s)
  | insert s => exact Statement.render_withAll d (.insert s)
  | update s => exact Statement.render_withAll d (.update s)
  | delete s => exact Statement.render_withAll d (.delete s)
  | commonTables s =>
    have htables : (s.tables.map CommonTable.withAll).mapM (CommonTable.render d)
        = s.tables.mapM (CommonTable.render d) := by
      rw [List.mapM_map]
      exact Except.mapM_congr fun t _ => CommonTable.render_withAll d t
    simp only [render, withAll, With.render, List.isEmpty_map, htables]
    cases s.statement with
    | none => rfl
    | some statement => simp only [Option.map_some, Statement.render_withAll]

theorem assemble_eq_of_withAll_eq {c c' : Command} (h : c.withAll = c'.withAll) :
    c.assemble = c'.assemble := by
  have hdialect : c.dialect = c'.dialect := by rw [← dialect_withAll c, h, dialect_withAll]
  have hrender : c.render c.dialect = c'.render c.dialect := by
    rw [← render_withAll c.dialect c, h, render_withAll]
  rw [assemble_eq, assemble_eq, hrender, hdialect]

end Command

/-! ### Lists of expressions -/

/-- The columns that a call adds as expressions: all of them are the column `*`. -/
def Columns.expressions : Columns → List Column
  | .all => [{ name := .name "*" }]
  | .list columns => columns

/-- The entries that a call adds to a select. -/
def SelectCall.items : SelectCall σ → List (SourceItem σ)
  | source s columns => [.plain s columns]
  | lateral s aliasName columns => [.lateral (s.withAlias aliasName) columns]
  | expressions columns => [.expressions columns.expressions]
  | _ => []

namespace Select

theorem items_apply (s : Select σ) (call : SelectCall σ) :
    (s.apply call).items = s.items ++ call.items := by
  cases call with
  | expressions columns => cases columns <;> rfl
  | groupBy fields =>
    have hgroup (s : Select σ) (f : Field) : (s.group f).items = s.items := by
      unfold group
      split <;> rfl
    exact (foldl_unchanged items hgroup s fields).trans (List.append_nil _).symm
  | page page rows =>
    rw [apply, paginate]
    split
    · exact (List.append_nil _).symm
    · dsimp only
      split <;> exact (List.append_nil _).symm
  | source _ _ | lateral _ _ _ => rfl
  | _ => exact (List.append_nil _).symm

/-- The select without its entries. -/
def unsourced (s : Select σ) : Select σ := { s with items := [] }

theorem unsourced_apply (s : Select σ) (call : SelectCall σ) :
    (s.apply call).unsourced = (s.unsourced.apply call).unsourced := by
  cases call with
  | expressions columns => cases columns <;> rfl
  | groupBy fields =>
    have hgroup (s : Select σ) (f : Field) : (s.group f).unsourced = s.unsourced.group f := by
      unfold group
      split <;> split <;> first | rfl | contradiction
    have hfields (s : Select σ) : (fields.foldl group s).unsourced
        = fields.foldl group s.unsourced :=
      (List.foldl_hom unsourced fun s f => (hgroup s f).symm).symm
    exact (hfields s).trans (hfields s.unsourced).symm
  | page page rows =>
    rw [apply, apply, paginate, paginate]
    split
    · rfl
    · dsimp only
      split <;> rfl
  | _ => rfl

theorem unsourced_foldl_apply {s s' : Select σ} (h : s.unsourced = s'.unsourced)
    (calls : List (SelectCall σ)) :
    (calls.foldl apply s).unsourced = (calls.foldl apply s').unsourced := by
  induction calls generalizing s s' with
  | nil => exact h
  | cons call calls ih => exact ih (by rw [unsourced_apply, h, ← unsourced_apply])

/-- The select with expressions among other entries. -/
def withExpressions (s : Select σ) (is js : List (SourceItem σ)) (columns : List Column) :
    Select σ :=
  { s with items := is ++ .expressions columns :: js }

/-- A call that adds expressions puts them between the entries of the calls around it. -/
theorem build_expressions (d : Dialect) (before after : List (SelectCall σ)) (columns : Columns) :
    build d (before ++ .expressions columns :: after)
      = (build d (before ++ after)).withExpressions (build d before).items
        (after.flatMap SelectCall.items) columns.expressions := by
  have hcall : ((build d before).apply (.expressions columns)).unsourced
      = (build d before).unsourced := by cases columns <;> rfl
  have hrest := unsourced_foldl_apply hcall after
  have hitems := foldl_append items items_apply ((build d before).apply (.expressions columns))
    after
  rw [items_apply] at hitems
  simp only [build, List.foldl_append, List.foldl_cons] at hrest hitems ⊢
  generalize List.foldl apply (apply _ (.expressions columns)) after = s at *
  generalize List.foldl apply _ after = s' at *
  cases s
  cases s'
  simp only [unsourced, withExpressions, mk.injEq] at hrest hitems ⊢
  simp_all [SelectCall.items]

end Select

/-- What stands around expressions is bound alike whatever these are. -/
theorem SourceItem.bindAll_expressions (taken : List String) (is js : List (SourceItem σ)) :
    ∃ bound : Except SqlError (List (BoundItem σ) × List (BoundItem σ)), ∀ columns,
      bindAll taken (is ++ .expressions columns :: js)
        = bound.map fun p => p.1 ++ .expressions columns :: p.2 := by
  induction is generalizing taken with
  | nil =>
    refine ⟨(bindAll taken js).map fun bs => ([], bs), fun columns => ?_⟩
    rw [List.nil_append, bindAll]
    cases bindAll taken js <;> rfl
  | cons i is ih =>
    choose bound hbound using ih
    cases i with
    | plain source listed =>
      refine ⟨do
        let b ← Binding.ofSource taken source
        (bound (taken ++ [b.qualifier])).map fun p => (.source b false listed :: p.1, p.2), ?_⟩
      intro columns
      simp only [List.cons_append, bindAll, hbound]
      cases Binding.ofSource taken source with
      | error e => rfl
      | ok b => simp only [Except.ok_bind]; cases bound (taken ++ [b.qualifier]) <;> rfl
    | lateral source listed =>
      refine ⟨do
        let b ← Binding.ofSource taken source
        (bound (taken ++ [b.qualifier])).map fun p => (.source b true listed :: p.1, p.2), ?_⟩
      intro columns
      simp only [List.cons_append, bindAll, hbound]
      cases Binding.ofSource taken source with
      | error e => rfl
      | ok b => simp only [Except.ok_bind]; cases bound (taken ++ [b.qualifier]) <;> rfl
    | expressions listed =>
      refine ⟨(bound taken).map fun p => (.expressions listed :: p.1, p.2), fun columns => ?_⟩
      simp only [List.cons_append, bindAll, hbound]
      cases bound taken <;> rfl

/-- The scope of a select with expressions is that of the other entries and the expressions. -/
theorem Scope.bind_withExpressions (s : Select σ) (is js : List (SourceItem σ)) :
    ∃ bound : Except SqlError (List (BoundItem σ) × List (BoundItem σ) × List (BoundJoin σ)),
      ∀ columns, bind (s.withExpressions is js columns)
        = bound.map fun p => ⟨p.1 ++ .expressions columns :: p.2.1, p.2.2⟩ := by
  obtain ⟨bound, hbound⟩ := SourceItem.bindAll_expressions [] is js
  refine ⟨do
    let p ← bound
    let taken := ((p.1 ++ p.2).filterMap BoundItem.binding?).map Binding.qualifier
    (Join.bindAll taken s.joins).map fun joins => (p.1, p.2, joins), fun columns => ?_⟩
  simp only [bind, Select.withExpressions, hbound]
  cases bound with
  | error e => rfl
  | ok p =>
    have hsources : (p.1 ++ .expressions columns :: p.2).filterMap BoundItem.binding?
        = (p.1 ++ p.2).filterMap BoundItem.binding? := by
      rw [List.filterMap_append, List.filterMap_append]
      rfl
    simp only [Except.map_ok, Except.ok_bind, hsources]
    generalize ((p.1 ++ p.2).filterMap BoundItem.binding?).map Binding.qualifier = taken
    cases Join.bindAll taken s.joins <;> rfl

/-- The columns around those of expressions, which bind nothing. -/
theorem Scope.selectList_expressions (is js : List (BoundItem σ)) (joins : List (BoundJoin σ)) :
    ∃ around : Except SqlError (List Sql × List Sql),
      (∀ p, around = .ok p → Sql.valuesAll (p.1 ++ p.2) = [])
      ∧ ∀ columns sqls, columns.mapM (Column.sql none none none) = .ok sqls →
        (⟨is ++ .expressions columns :: js, joins⟩ : Scope σ).selectList
          = around >>= fun p => listed (p.1 ++ sqls ++ p.2) := by
  let around : Except SqlError (List Sql × List Sql) := do
    let before ← is.mapM BoundItem.listSql
    let after ← js.mapM BoundItem.listSql
    let joins ← joins.mapM BoundJoin.listSql
    return (before.flatten, after.flatten ++ joins.flatten)
  have haround (columns : List Column) (sqls : List Sql)
      (hsqls : columns.mapM (Column.sql none none none) = .ok sqls) :
      (⟨is ++ .expressions columns :: js, joins⟩ : Scope σ).selectList
        = around >>= fun p => listed (p.1 ++ sqls ++ p.2) := by
    have hitem : (BoundItem.expressions columns : BoundItem σ).listSql = .ok sqls := hsqls
    rw [selectList_eq, List.mapM_append, List.mapM_cons, hitem]
    simp only [around, bind_assoc, pure_bind, Except.ok_bind, List.flatten_append,
      List.flatten_cons, List.append_assoc]
  refine ⟨around, fun p hp => ?_, haround⟩
  have hlist := haround Columns.all.expressions [[.column (.path [] "*") none]] rfl
  rw [hp, Except.ok_bind] at hlist
  obtain ⟨before, after⟩ := p
  have hcolumns : listed (before ++ [[.column (.path [] "*") none]] ++ after)
      = .ok (before ++ [[.column (.path [] "*") none]] ++ after) := by cases before <;> rfl
  have hvalues := values_selectList (hlist.trans hcolumns)
  simpa [Piece.values] using hvalues

namespace Select

variable {is js : List (SourceItem σ)}

theorem check_withExpressions (s : Select σ) (columns columns' : List Column) :
    (s.withExpressions is js columns).check = (s.withExpressions is js columns').check := by
  have hsources (columns : List Column) :
      (s.withExpressions is js columns).items.any SourceItem.isSource
        = (is.any SourceItem.isSource || js.any SourceItem.isSource) := by
    simp [withExpressions, SourceItem.isSource]
  have hitems (columns : List Column) :
      (s.withExpressions is js columns).items.isEmpty = false := by
    simp [withExpressions]
  rw [check, check, hsources, hsources, hitems, hitems]
  rfl

/-- Expressions are no source that unqualified fields could belong to. -/
theorem target_withExpressions (s : Select σ) (columns : List Column) :
    (s.withExpressions is js columns).target = none := by
  match is with
  | [] => rfl
  | .plain _ _ :: [] | .lateral _ _ :: _ | .expressions _ :: _ => rfl
  | .plain _ _ :: _ :: _ => rfl

/-- The head of a select with expressions: a list with their columns among others, and clauses that
do not depend on them. -/
theorem headSql_withExpressions (s : Select Rendered) (is js : List (SourceItem Rendered)) :
    ∃ (around : Except SqlError (List Sql × List Sql)) (rest : Except SqlError (List Sql)),
      (∀ p, around = .ok p → Sql.valuesAll (p.1 ++ p.2) = [])
      ∧ ∀ columns sqls, columns.mapM (Column.sql none none none) = .ok sqls →
        (s.withExpressions is js columns).headSql = do
          let p ← around
          let list ← Scope.listed (p.1 ++ sqls ++ p.2)
          return listSql s.distinct list :: (← rest) := by
  obtain ⟨bound, hbound⟩ := Scope.bind_withExpressions s is js
  cases bound with
  | error e =>
    refine ⟨.error e, .error e, fun p hp => (by cases hp), fun columns sqls _ => ?_⟩
    rw [headSql, hbound]
    rfl
  | ok p =>
    obtain ⟨is', js', joins⟩ := p
    obtain ⟨around, hvalues, haround⟩ := Scope.selectList_expressions is' js' joins
    refine ⟨around, do
      let sources ← fromSql (is' ++ js')
      return sources :: (← joinsSql (Scope.fromBindings ⟨is' ++ js', joins⟩) joins), hvalues,
      fun columns sqls hsqls => ?_⟩
    have hfrom : fromSql (is' ++ .expressions columns :: js') = fromSql (is' ++ js') := by
      have hsources (lateral : Bool) :
          BoundItem.sources lateral (is' ++ .expressions columns :: js')
            = BoundItem.sources lateral (is' ++ js') := by
        rw [BoundItem.sources, BoundItem.sources, List.filterMap_append, List.filterMap_append]
        rfl
      rw [fromSql, fromSql, hsources, hsources]
    have hbindings : (⟨is' ++ .expressions columns :: js', joins⟩ : Scope Rendered).fromBindings
        = Scope.fromBindings ⟨is' ++ js', joins⟩ := by
      rw [Scope.fromBindings, Scope.fromBindings, List.filterMap_append, List.filterMap_append]
      rfl
    rw [headSql, hbound, Except.map_ok, Except.ok_bind, haround columns sqls hsqls]
    simp only [hfrom, hbindings, bind_assoc, pure_bind]
    rfl

/-- A select with expressions: a list with their columns among others, and clauses that do not
depend on them. -/
theorem render_withExpressions (d : Dialect) (s : Select Rendered)
    (is js : List (SourceItem Rendered)) :
    ∃ (around : Except SqlError (List Sql × List Sql)) (rest : Except SqlError (List Sql)),
      (∀ p, around = .ok p → Sql.valuesAll (p.1 ++ p.2) = [])
      ∧ ∀ columns sqls, columns.mapM (Column.sql none none none) = .ok sqls →
        (s.withExpressions is js columns).render d = do
          let p ← around
          let list ← Scope.listed (p.1 ++ sqls ++ p.2)
          return Sql.join " " (listSql s.distinct list :: (← rest)) := by
  obtain ⟨around, rest, hvalues, hhead⟩ := headSql_withExpressions s is js
  refine ⟨do
    (s.withExpressions is js []).check
    around, do
    let joins ← rest
    let filter ← (s.withExpressions is js []).filterSql d
    let tail ← s.tailSql
    let members ← unionsSql false s.unions
    return present (joins ++ filter ++ tail) ++ members, ?_, fun columns sqls hsqls => ?_⟩
  · intro p hp
    obtain ⟨_, _, hp⟩ := Except.bind_eq_ok.1 hp
    exact hvalues p hp
  · have hfilter : (s.withExpressions is js columns).filterSql d
        = (s.withExpressions is js []).filterSql d := by
      rw [filterSql, filterSql, target_withExpressions, target_withExpressions]
      rfl
    have hitems : (s.withExpressions is js columns).items.isEmpty = false := by
      simp [withExpressions]
    have htail : (s.withExpressions is js columns).tailSql = s.tailSql := rfl
    have hunions : (s.withExpressions is js columns).unions = s.unions := rfl
    rw [render, check_withExpressions s columns [], hhead columns sqls hsqls, hfilter, hitems,
      htail, hunions]
    simp only [bind_assoc, pure_bind]
    rfl

end Select

/-! ### The star among the columns -/

/-- Joined texts are the same as without one part, but for this part and a separator. -/
theorem exists_intercalate_insert (separator part : String) {before after : List String}
    (h : before ++ after ≠ []) :
    ∃ left mark right, (mark = part ++ separator ∨ mark = separator ++ part)
      ∧ String.intercalate separator (before ++ after) = left ++ right
      ∧ String.intercalate separator (before ++ part :: after) = left ++ mark ++ right := by
  by_cases hbefore : before = []
  · have hafter : after ≠ [] := by simpa [hbefore] using h
    refine ⟨"", part ++ separator, String.intercalate separator after, .inl rfl, ?_, ?_⟩
    · simp [hbefore]
    · rw [hbefore, List.nil_append, String.intercalate_cons_of_ne_nil hafter]
      simp [String.append_assoc]
  · by_cases hafter : after = []
    · refine ⟨String.intercalate separator before, separator ++ part, "", .inr rfl, ?_, ?_⟩
      · simp [hafter]
      · rw [hafter, String.intercalate_append_of_ne_nil hbefore (List.cons_ne_nil _ _)]
        simp [String.append_assoc]
    · refine ⟨String.intercalate separator before, separator ++ part,
        separator ++ String.intercalate separator after, .inr rfl, ?_, ?_⟩
      · rw [String.intercalate_append_of_ne_nil hbefore hafter, String.append_assoc]
      · rw [String.intercalate_append_of_ne_nil hbefore (List.cons_ne_nil _ _),
          String.intercalate_cons_of_ne_nil hafter]
        simp [String.append_assoc]

/-- What is joined behind a first text does not depend on it. -/
theorem exists_intercalate_cons (separator : String) (parts : List String) :
    ∃ behind, ∀ first, String.intercalate separator (first :: parts) = first ++ behind := by
  cases parts with
  | nil => exact ⟨"", fun first => by simp⟩
  | cons part parts =>
    exact ⟨separator ++ String.intercalate separator (part :: parts), fun first => by
      rw [String.intercalate_cons_cons, String.append_assoc]⟩

/-- In the list of a select with more columns a `*` is told by itself and a comma. -/
theorem Select.spell_listSql_star (d : Dialect) (distinct : Bool) (rest : List Sql)
    {before after : List Sql} (hne : before ++ after ≠ [])
    (hvalues : Sql.valuesAll (before ++ after) = []) :
    ∃ left mark right, (mark = "*," ∨ mark = ",*")
      ∧ d.spell (Sql.join " " (listSql distinct (before ++ after) :: rest)) = left ++ right
      ∧ d.spell (Sql.join " "
          (listSql distinct (before ++ [.column (.path [] "*") none] :: after) :: rest))
        = left ++ mark ++ right := by
  have hbefore : Sql.valuesAll before = [] := by simp_all
  have hafter : Sql.valuesAll after = [] := by simp_all
  have hstar : d.spell [.column (.path [] "*") none] = "*" := by
    simp [Dialect.spell, Piece.spell, ColumnExpr.spell, String.join]
  have hspelled : before.map d.spell ++ after.map d.spell ≠ [] := by simpa using hne
  obtain ⟨left, mark, right, hmark, hnone, hall⟩ := exists_intercalate_insert "," "*" hspelled
  obtain ⟨behind, hbehind⟩ := exists_intercalate_cons " " (Sql.spellAll d 0 rest)
  have hspell (columns : List Sql) (hcolumns : Sql.valuesAll columns = []) :
      d.spell (Sql.join " " (listSql distinct columns :: rest))
        = (if distinct then "SELECT DISTINCT " else "SELECT ")
          ++ String.intercalate "," (columns.map d.spell) ++ behind := by
    have hlist : (listSql distinct columns).values = [] := by simp [listSql, hcolumns]
    rw [Dialect.spell, Sql.spell_join, Sql.spellAll_cons, hlist, List.length_nil, hbehind]
    simp [listSql, Sql.spellAll_of_valuesAll_eq_nil hcolumns]
  refine ⟨(if distinct then "SELECT DISTINCT " else "SELECT ") ++ left, mark, right ++ behind,
    hmark, ?_, ?_⟩
  · rw [hspell _ hvalues, List.map_append, hnone]
    simp [String.append_assoc]
  · rw [hspell _ (by simp [hbefore, hafter, Piece.values]), List.map_append, List.map_cons, hstar,
      hall]
    simp [String.append_assoc]

namespace Command

/-- One outcome is that there is no column; or the other one is the same, but for a `*` and a comma
in its text. -/
def AddsStar (none all : Except SqlError Assembled) : Prop :=
  none = .error .emptySelectList
    ∨ ∃ (result : Except SqlError (String × String × List Value)) (mark : String),
      (mark = "*," ∨ mark = ",*")
      ∧ none = result.map (fun p => ⟨p.1 ++ p.2.1, p.2.2⟩)
      ∧ all = result.map fun p => ⟨p.1 ++ mark ++ p.2.1, p.2.2⟩

/-- Among expressions an empty list adds nothing where all columns add a `*`. -/
theorem addsStar_assemble (d : Dialect) (before after : List (SelectCall Query)) :
    AddsStar (select (.build d (before ++ .expressions (.list []) :: after))).assemble
      (select (.build d (before ++ .expressions .all :: after))).assemble := by
  rw [Select.build_expressions, Select.build_expressions]
  generalize Select.build d (before ++ after) = s
  generalize (Select.build d before).items = is
  generalize after.flatMap SelectCall.items = js
  let f := Query.render s.dialect
  obtain ⟨around, rest, hvalues, hrender⟩ := Select.render_withExpressions s.dialect (s.map f)
    (is.map (SourceItem.map f)) (js.map (SourceItem.map f))
  have hassemble (columns : List Column) (sqls : List Sql)
      (hsqls : columns.mapM (Column.sql none none none) = .ok sqls) :
      (select (s.withExpressions is js columns)).assemble
        = (do
          let p ← around
          let list ← Scope.listed (p.1 ++ sqls ++ p.2)
          return Sql.join " " (Select.listSql s.distinct list :: (← rest))).map
            fun sql => ⟨s.dialect.spell sql, sql.values⟩ := by
    have hmap : (s.withExpressions is js columns).map f
        = (s.map f).withExpressions (is.map (SourceItem.map f)) (js.map (SourceItem.map f))
          columns := by
      simp [Select.map, Select.withExpressions, SourceItem.map]
    have hquery : (Query.of (s.withExpressions is js columns)).render s.dialect = _ :=
      (Query.render_of _ _).trans
        ((congrArg (Select.render s.dialect) hmap).trans (hrender columns sqls hsqls))
    rw [assemble_eq]
    exact congrArg (Except.map _) hquery
  rw [hassemble _ [] rfl, hassemble _ [[.column (.path [] "*") none]] rfl]
  cases around with
  | error e => exact .inr ⟨.error e, "*,", .inl rfl, rfl, rfl⟩
  | ok p =>
    obtain ⟨before, after⟩ := p
    simp only [Except.ok_bind, List.append_nil, List.append_assoc, List.singleton_append]
    have hall : Scope.listed (before ++ [.column (.path [] "*") none] :: after)
        = .ok (before ++ [.column (.path [] "*") none] :: after) := by cases before <;> rfl
    rw [hall]
    by_cases hne : before ++ after = []
    · left
      rw [hne]
      rfl
    · have hnone : Scope.listed (before ++ after) = .ok (before ++ after) := by
        obtain ⟨c, cs, hcs⟩ := List.exists_cons_of_ne_nil hne
        rw [hcs]
        rfl
      rw [hnone]
      right
      cases rest with
      | error e => exact ⟨.error e, "*,", .inl rfl, rfl, rfl⟩
      | ok clauses =>
        have hbound : Sql.valuesAll (before ++ after) = [] := hvalues (before, after) rfl
        obtain ⟨left, mark, right, hmark, hwithout, hwith⟩ :=
          Select.spell_listSql_star s.dialect s.distinct clauses hne hbound
        obtain ⟨hbefore, hafter⟩ : Sql.valuesAll before = [] ∧ Sql.valuesAll after = [] := by
          simpa using hbound
        have hclauses (columns : List Sql) (hcolumns : Sql.valuesAll columns = []) :
            (Sql.join " " (Select.listSql s.distinct columns :: clauses)).values
              = Sql.valuesAll clauses := by
          simp [Select.listSql, hcolumns]
        refine ⟨.ok (left, right, Sql.valuesAll clauses), mark, hmark, ?_, ?_⟩
        · simp only [Except.ok_bind, Except.pure_eq, Except.map_ok, hwithout, hclauses _ hbound]
        · have hstar : Sql.valuesAll (before ++ [.column (.path [] "*") none] :: after) = [] := by
            simp [hbefore, hafter, Piece.values]
          simp only [Except.ok_bind, Except.pure_eq, Except.map_ok, hwith, hclauses _ hstar]

/-- For sources, for joins and behind `RETURNING` it is all the same, at any depth, whether all
columns or an empty list are given. Among expressions it is not: only all columns add a `*`. -/
theorem assemble_of_withAll_eq (c c' : Command) (h : c.withAll = c'.withAll) :
    c.assemble = c'.assemble
      ∧ ∀ (d : Dialect) (before after : List (SelectCall Query)),
        c = select (.build d (before ++ .expressions .all :: after)) →
        AddsStar (select (.build d (before ++ .expressions (.list []) :: after))).assemble
          c'.assemble := by
  have heq := assemble_eq_of_withAll_eq h
  refine ⟨heq, fun d before after hc => ?_⟩
  rw [← heq, hc]
  exact addsStar_assemble d before after

/-- A select of no column. -/
def noColumns : List (SelectCall Query) := [.expressions (.list [])]

/-- The select of all columns. -/
def allColumns : List (SelectCall Query) := [.expressions .all]

/-- Where all columns are a `*`, an empty list is an error. -/
theorem assemble_noColumns :
    (select (.build .generic allColumns)).assemble = .ok ⟨"SELECT *", []⟩
      ∧ (select (.build .generic noColumns)).assemble = .error .emptySelectList
      ∧ SqlError.emptySelectList.message = "Assembly error: SELECT list is empty" :=
  ⟨rfl, rfl, rfl⟩

/-- Rows are deleted and returned, and looked up in a query that joins a table. The given columns
are those of the table, of the rows and of the join. -/
def returned (columns : Columns) : Command :=
  .commonTables (.build .postgres
    [.table
      { name := "gone"
        statement := .delete (.build .generic
          [.target (.table (.name "guest") none), .returning columns]) },
      .statement (.select (.build .generic
        [.lateral (.subquery (.of (.build .generic
          [.source (.table (.name "gone") none) columns,
            .join { kind := .natural, source := .table (.name "room") none,
                    columns := some columns }])) none) "g" columns]))])

/-- The given columns of a table and, beside them, the given expressions. -/
def guestColumns (listed columns : Columns) : Command :=
  .select (.build .generic [.source (.table (.name "guest") none) listed, .expressions columns])

set_option maxRecDepth 10000 in
theorem assemble_of_withAll_eq_returned :
    (returned (.list [])).assemble = (returned .all).assemble
      ∧ (returned .all).assemble = .ok
        ⟨"WITH \"gone\" AS (DELETE FROM \"guest\" RETURNING *) SELECT \"g\".* FROM LATERAL "
          ++ "(SELECT \"gone\".*,\"room\".* FROM \"gone\" NATURAL JOIN \"room\") AS \"g\"", []⟩
      ∧ AddsStar (guestColumns .all (.list [])).assemble
        (guestColumns (.list []) .all).assemble
      ∧ (guestColumns .all (.list [])).assemble
        = .ok ⟨"SELECT \"guest\".* FROM \"guest\"", []⟩
      ∧ (guestColumns (.list []) .all).assemble
        = .ok ⟨"SELECT \"guest\".*,* FROM \"guest\"", []⟩ := by
  obtain ⟨hreturned, -⟩ := assemble_of_withAll_eq (returned (.list [])) (returned .all) rfl
  obtain ⟨-, hexpressions⟩ :=
    assemble_of_withAll_eq (guestColumns .all .all) (guestColumns (.list []) .all) rfl
  exact ⟨hreturned, rfl,
    hexpressions .generic [.source (.table (.name "guest") none) .all] [] rfl, rfl, rfl⟩

end Command

end SqlAssembly
