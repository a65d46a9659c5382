import SqlAssembly.Proofs.References
import SqlAssembly.Proofs.Rendering
import SqlAssembly.Proofs.Writing.Statement

/-!
# The table that the condition of a join names

A condition can name the table of a record. The source that it then speaks of is looked up by the
name of the table alone, although the record has a schema too. So the condition speaks of the
record's table exactly if no other source that can be named has that name
(`Select.joinsTableOf_iff`): the table of a record in one schema can be taken for a table in another
one (`Select.not_joinsTableOf_crossed`). If no source has the name, the select fails.
-/

namespace SqlAssembly

variable {σ τ : Type} {d : Dialect}

/-- Whether a source is the table of a record type, under its own name or under an alias. -/
def Binding.IsTableOf (b : Binding σ) (r : RecordType) : Prop :=
  b.body = .table (.name r.table) r.schema

/-! ### Another condition -/

/-- A join with another condition. -/
def Join.withCondition (condition : JoinCondition) (j : Join σ) : Join σ :=
  { j with condition := some condition }

/-- A bound join with another condition. -/
def BoundJoin.withCondition (condition : JoinCondition) (j : BoundJoin σ) : BoundJoin σ :=
  ⟨j.join.withCondition condition, j.binding⟩

theorem mapM_modify {α β : Type} {m : Type → Type} [Monad m] [LawfulMonad m]
    {g : α → m β} {f : α → α}
    (h : ∀ a, g (f a) = g a) (as : List α) (i : Nat) : (as.modify i f).mapM g = as.mapM g := by
  induction as generalizing i with
  | nil => simp
  | cons a as ih =>
    cases i with
    | zero => simp only [List.modify_zero_cons, List.mapM_cons, h]
    | succ i => simp only [List.modify_succ_cons, List.mapM_cons, ih]

namespace Select

/-- A select with another condition of one of its joins. -/
def withCondition (s : Select σ) (i : Nat) (condition : JoinCondition) : Select σ :=
  { s with joins := s.joins.modify i (Join.withCondition condition) }

theorem withCondition_map (f : σ → τ) (s : Select σ) (i : Nat) (condition : JoinCondition) :
    (s.withCondition i condition).map f = (s.map f).withCondition i condition := by
  have hjoins : (s.joins.modify i (Join.withCondition condition)).map (Join.map f)
      = (s.joins.map (Join.map f)).modify i (Join.withCondition condition) := by
    induction s.joins generalizing i with
    | nil => simp
    | cons j joins ih =>
      cases i with
      | zero => rfl
      | succ i => simp [ih]
  simp only [withCondition, map, hjoins]

theorem check_withCondition (s : Select σ) (i : Nat) (condition : JoinCondition) :
    (s.withCondition i condition).check = s.check := by
  have hempty : (s.joins.modify i (Join.withCondition condition)).isEmpty = s.joins.isEmpty := by
    rw [Bool.eq_iff_iff, List.isEmpty_iff, List.isEmpty_iff, List.modify_eq_nil_iff]
  simp only [check, checkBareUnion, hasSourceClause, withCondition, hempty]
  rfl

end Select

/-- The condition of a join does not change what its source is bound to. -/
theorem Join.bindAll_modify (taken : List String) (joins : List (Join σ)) (i : Nat)
    (condition : JoinCondition) :
    bindAll taken (joins.modify i (withCondition condition))
      = (bindAll taken joins).map
          (List.modify · i (BoundJoin.withCondition condition)) := by
  induction joins generalizing taken i with
  | nil => simp [bindAll]
  | cons j joins ih =>
    cases i with
    | zero =>
      simp only [List.modify_zero_cons, bindAll, withCondition]
      cases Binding.ofSource taken j.source with
      | error e => rfl
      | ok b =>
        simp only [Except.ok_bind]
        cases bindAll (taken ++ [b.qualifier]) joins <;> rfl
    | succ i =>
      simp only [List.modify_succ_cons, bindAll, ih]
      cases Binding.ofSource taken j.source with
      | error e => rfl
      | ok b =>
        simp only [Except.ok_bind]
        cases bindAll (taken ++ [b.qualifier]) joins <;> rfl

namespace Scope

/-- A scope with another condition of one of its joins. -/
def withCondition (s : Scope σ) (i : Nat) (condition : JoinCondition) : Scope σ :=
  { s with joins := s.joins.modify i (BoundJoin.withCondition condition) }

theorem bind_withCondition (s : Select σ) (i : Nat) (condition : JoinCondition) :
    bind (s.withCondition i condition) = (bind s).map (withCondition · i condition) := by
  simp only [bind, Select.withCondition, Join.bindAll_modify]
  cases SourceItem.bindAll [] s.items with
  | error e => rfl
  | ok items =>
    simp only [Except.ok_bind]
    cases Join.bindAll ((items.filterMap BoundItem.binding?).map Binding.qualifier) s.joins <;> rfl

theorem earlier_map (f : σ → τ) (s : Scope σ) (i : Nat) :
    (s.map f).earlier i = (s.earlier i).map (Binding.map f) := by
  rw [earlier, earlier, fromBindings_map, map, List.map_append, ← List.map_take, List.map_map,
    List.map_map]
  rfl

@[simp] theorem selectList_withCondition (s : Scope σ) (i : Nat) (condition : JoinCondition) :
    (s.withCondition i condition).selectList = s.selectList := by
  simp only [selectList, withCondition]
  rw [mapM_modify (f := BoundJoin.withCondition condition) fun _ => rfl]

end Scope

namespace Select

/-- If joins can be rendered with another condition of one of them, then with its own condition they
fail as this condition does. -/
theorem joinsSql_eq_error {prior : List (Binding Rendered)} {joins : List (BoundJoin Rendered)}
    {i : Nat} {j : BoundJoin Rendered} {condition other : JoinCondition} {e : SqlError}
    {parts : List Sql} (hj : joins[i]? = some j) (hcondition : j.join.condition = some condition)
    (herror : joinConditionSql (prior ++ (joins.take i).map BoundJoin.binding) j.binding condition
      = .error e)
    (h : joinsSql prior (joins.modify i (BoundJoin.withCondition other)) = .ok parts) :
    joinsSql prior joins = .error e := by
  induction joins generalizing prior i parts with
  | nil => cases hj
  | cons first joins ih =>
    cases i with
    | zero =>
      cases hj
      obtain ⟨part, hpart, -⟩ := Except.bind_eq_ok.1 h
      obtain ⟨source, hsource, hpart⟩ := Except.bind_eq_ok.1 hpart
      obtain ⟨on, hon, -⟩ := Except.bind_eq_ok.1 hpart
      have htakes : j.join.kind.takesCondition = true := by
        cases htakes : j.join.kind.takesCondition with
        | true => rfl
        | false => simp [joinOnSql, BoundJoin.withCondition, Join.withCondition, htakes] at hon
      have hfail : joinOnSql prior j = .error e := by
        simpa [joinOnSql, hcondition, htakes] using herror
      have hsource : j.binding.sql = .ok source := hsource
      rw [joinsSql, joinSql, hsource, hfail]
      rfl
    | succ i =>
      obtain ⟨part, hpart, h⟩ := Except.bind_eq_ok.1 h
      obtain ⟨rest, hrest, -⟩ := Except.bind_eq_ok.1 h
      have hfail : joinsSql (prior ++ [first.binding]) joins = .error e :=
        ih hj (by simpa using herror) hrest
      rw [joinsSql, hpart, hfail]
      rfl

theorem hasSourceClause_of_join {s : Select σ} {scope : Scope σ} {i : Nat} {j : BoundJoin σ}
    (hbind : Scope.bind s = .ok scope) (hj : scope.joins[i]? = some j) :
    s.hasSourceClause = true := by
  have hjoins : s.joins ≠ [] := by
    intro hjoins
    have hbound := (Scope.bind_eq_ok.1 hbind).2
    rw [hjoins] at hbound
    rw [← Except.ok.inj hbound] at hj
    cases hj
  simp [hasSourceClause, hjoins]

theorem render_eq_error {s : Select Rendered} {scope : Scope Rendered} {i : Nat}
    {j : BoundJoin Rendered} {condition other : JoinCondition} {e : SqlError} {sql : Sql}
    (hbind : Scope.bind s = .ok scope) (hj : scope.joins[i]? = some j)
    (hcondition : j.join.condition = some condition)
    (herror : joinConditionSql (scope.earlier i) j.binding condition = .error e)
    (h : (s.withCondition i other).render d = .ok sql) : s.render d = .error e := by
  obtain ⟨hcheck, h⟩ := render_eq_ok.1 h
  rw [check_withCondition] at hcheck
  have hitems : s.items.isEmpty = false := by
    simpa using items_ne_nil hcheck (hasSourceClause_of_join hbind hj)
  have hsame : (s.withCondition i other).items.isEmpty = false := hitems
  rw [if_neg (by simp [hsame])] at h
  obtain ⟨head, -, -, -, hhead, -⟩ := h
  obtain ⟨scope', hscope, hhead⟩ := Except.bind_eq_ok.1 hhead
  rw [Scope.bind_withCondition, hbind] at hscope
  cases hscope
  obtain ⟨columns, hcolumns, hhead⟩ := Except.bind_eq_ok.1 hhead
  obtain ⟨sources, hsources, hhead⟩ := Except.bind_eq_ok.1 hhead
  obtain ⟨joins, hjoins, -⟩ := Except.bind_eq_ok.1 hhead
  rw [Scope.selectList_withCondition] at hcolumns
  have hsources : fromSql scope.items = .ok sources := hsources
  have hfail : joinsSql scope.fromBindings scope.joins = .error e :=
    joinsSql_eq_error hj hcondition herror hjoins
  have hhead : s.headSql = .error e := by
    simp [headSql, hbind, hcolumns, hsources, hfail]
  simp [render, hcheck, hitems, hhead]

theorem joinConditionSql_eq_error {prior : List (Binding σ)} {joined : Binding σ}
    {field other otherField : Identifier} {operator : String} {q : Qualifier}
    (hother : other.asQualifier = .ok q) (hfree : ∀ b ∈ prior, b.qualifier ≠ q.name) :
    joinConditionSql prior joined (.columns field other otherField operator)
      = .error (.unknownJoinTable q.name) := by
  have hfind : (prior.find? fun b => b.qualifier == q.name) = none := by
    rw [List.find?_eq_none]
    intro b hb
    simpa using hfree b hb
  simp [joinConditionSql, hother, hfind]

theorem exists_intercalate_of_mem (separator : String) {part : String} {parts : List String}
    (h : part ∈ parts) :
    ∃ before behind, String.intercalate separator parts = before ++ part ++ behind := by
  obtain ⟨first, rest, rfl⟩ := List.append_of_mem h
  obtain ⟨behind, hbehind⟩ : ∃ behind,
      String.intercalate separator (part :: rest) = part ++ behind := by
    by_cases hrest : rest = []
    · exact ⟨"", by simp [hrest]⟩
    · exact ⟨separator ++ String.intercalate separator rest,
        by rw [String.intercalate_cons_of_ne_nil hrest, String.append_assoc]⟩
  by_cases hfirst : first = []
  · exact ⟨"", behind, by simp [hfirst, hbehind]⟩
  · refine ⟨String.intercalate separator first ++ separator, behind, ?_⟩
    rw [String.intercalate_append_of_ne_nil hfirst (List.cons_ne_nil _ _), hbehind,
      ← String.append_assoc]

/-- The text of a join stands in the text of a select that is written. -/
theorem exists_joinText {s : Select Query} {scope : Scope Query} {i : Nat} {j : BoundJoin Query}
    (hbind : Scope.bind s = .ok scope) (hj : scope.joins[i]? = some j) {bound after : List Value}
    {text : String} (h : ((Query.of s).write d).run bound = .ok (text, after)) :
    ∃ condition, joinOnSql (scope.earlier i) j = .ok condition
      ∧ ∃ source before behind, j.binding.WrittenAs d source
        ∧ text = before ++ (j.join.kind.keyword ++ " " ++ source ++ d.spell condition)
            ++ behind := by
  have hcheck : s.check = .ok () := by
    rw [Query.write_of] at h
    obtain ⟨_, _, hcheck, _⟩ := Except.run_bind_eq_ok.1 h
    have hcheck := (Except.run_liftM_eq_ok.1 hcheck).1
    rwa [check_map] at hcheck
  have hitems := items_ne_nil hcheck (hasSourceClause_of_join hbind hj)
  obtain ⟨scope', columns, plain, lateral, joins, rest, hbind', -, -, -, -, hjoins, rfl⟩ :=
    exists_clauses hitems h
  rw [hbind] at hbind'
  cases hbind'
  obtain ⟨source, condition, hcondition, hsource, htext⟩ := hjoins i j hj
  obtain ⟨before, behind, hjoin⟩ := exists_intercalate_of_mem " "
    (List.mem_cons_of_mem (d.spell (listSql s.distinct columns))
      (List.mem_append_left rest
        (List.mem_append_right (fromTexts plain lateral) (List.mem_of_getElem? htext))))
  exact ⟨condition, hcondition, source, before, behind, hsource, hjoin⟩

/-- In a select that is written, the condition of a join that names the table of a record speaks of
the source that has the name of this table. That source is the record's table, in the record's
schema, exactly if no source that can be named is another table under that name. If no source that
can be named has that name, the select fails by this condition. -/
theorem joinsTableOf_iff {s : Select Query} {scope : Scope Query} (hbind : Scope.bind s = .ok scope)
    {i : Nat} {j : BoundJoin Query} (hj : scope.joins[i]? = some j) {r : RecordType}
    {field otherField : Identifier} {operator : String}
    (hcondition : j.join.condition = some (.columns field (.record ⟨r, none⟩) otherField operator))
    (d : Dialect) (bound : List Value) :
    (∀ text after, ((Query.of s).write d).run bound = .ok (text, after) →
      ∃ b ∈ scope.earlier i, b.qualifier = r.table
        ∧ (∃ left right source before behind,
          (otherField.asColumn (some r)).map Prod.fst = .ok left
          ∧ (field.asColumn j.binding.record).map Prod.fst = .ok right
          ∧ j.binding.WrittenAs d source
          ∧ text = before ++ (j.join.kind.keyword ++ " " ++ source
              ++ (" ON " ++ left.textBehind d (some (b.place d)) ++ Text.trim operator
                ++ right.textBehind d (some (j.binding.place d)))) ++ behind)
        ∧ (b.IsTableOf r ↔
          ∀ b' ∈ scope.earlier i, b'.qualifier = r.table → b'.IsTableOf r))
    ∧ ((∀ b ∈ scope.earlier i, b.qualifier ≠ r.table) →
      ∀ other text after,
        ((Query.of (s.withCondition i other)).write d).run bound = .ok (text, after) →
        ((Query.of s).write d).run bound = .error (.unknownJoinTable r.table)
          ∧ (SqlError.unknownJoinTable r.table).kind = .identifier) := by
  have hnamed : ∀ b ∈ scope.earlier i, b.Named := fun b hb =>
    Scope.named_of_mem hbind (scope.earlier_subset i hb)
  have hbinding : j.binding.Named := Scope.named_of_mem hbind
    (List.mem_append_right _ (List.mem_map_of_mem (List.mem_of_getElem? hj)))
  constructor
  · intro text after h
    obtain ⟨condition, hon, source, before, behind, hsource, rfl⟩ := exists_joinText hbind hj h
    have hconditionText := BoundJoin.conditionText_of_joinOnSql (d := d) hnamed hbinding hon
    generalize d.spell condition = conditionText at hconditionText
    cases hconditionText with
    | none h' => simp [hcondition] at h'
    | raw h' => simp [hcondition] at h'
    | @columns _ _ _ _ q b left right h' hother hb hname hleft hright =>
      rw [hcondition] at h'
      cases h'
      cases hother
      refine ⟨b, hb, hname, ⟨left, right, source, before, behind, hleft, hright, hsource, rfl⟩, ?_⟩
      have hunique : ∀ b' ∈ scope.earlier i, b'.qualifier = r.table → b' = b := by
        intro b' hb' hname'
        exact List.inj_on_of_nodup_map (Scope.nodup_qualifiers hbind)
          (scope.earlier_subset i hb') (scope.earlier_subset i hb) (hname'.trans hname.symm)
      constructor
      · intro htable b' hb' hname'
        rw [hunique b' hb' hname']
        exact htable
      · intro hall
        exact hall b hb hname
  · intro hfree other text after h
    refine ⟨?_, rfl⟩
    rw [Query.write_eq, Writer.run_ofRendered] at h ⊢
    obtain ⟨sql, hsql, -⟩ := Except.bind_eq_ok.1 h
    rw [Query.render_of, withCondition_map] at hsql
    have herror : joinConditionSql ((scope.map (Query.render d)).earlier i)
        (j.map (Query.render d)).binding (.columns field (.record ⟨r, none⟩) otherField operator)
          = .error (.unknownJoinTable r.table) := by
      refine joinConditionSql_eq_error (q := ⟨r.table, r.schema, some r⟩) rfl fun b hb => ?_
      rw [Scope.earlier_map] at hb
      obtain ⟨b', hb', rfl⟩ := List.mem_map.1 hb
      exact hfree b' hb'
    have hbind' : Scope.bind (s.map (Query.render d)) = .ok (scope.map (Query.render d)) := by
      rw [Scope.bind_map, hbind]
      rfl
    have hj' : (scope.map (Query.render d)).joins[i]? = some (j.map (Query.render d)) := by
      simp [Scope.map, hj]
    rw [Query.render_of, render_eq_error hbind' hj' hcondition herror hsql]
    rfl

/-- The books of a library. -/
def libraryBook : RecordType :=
  { table := "book", schema := some "library", fields := .ofEntries [("author", "fk_author")] }

/-- A table that is joined with the authors, by a condition on the books of the library. -/
def withAuthors (source : Source Query) : Select Query :=
  .build .generic
    [.source source .all,
      .join { kind := .inner, source := .table (.name "author") none
              condition := some (.columns (.name "id") (.record ⟨libraryBook, none⟩)
                (.name "author") "=") }]

/-- The condition speaks of the books of the library if these are there, and fails if no source is
named like them. -/
theorem joinsTableOf_iff_withAuthors :
    (∃ scope, Scope.bind (withAuthors (.table (.record ⟨libraryBook, none⟩) none)) = .ok scope
      ∧ ∃ b ∈ scope.earlier 0, b.qualifier = "book" ∧ b.IsTableOf libraryBook)
    ∧ ((Query.of (withAuthors (.table (.name "shelf") none))).write .generic).run []
        = .error (.unknownJoinTable "book") := by
  constructor
  · have hbind : Scope.bind (withAuthors (.table (.record ⟨libraryBook, none⟩) none)) = .ok _ := rfl
    have hrun : ((Query.of (withAuthors (.table (.record ⟨libraryBook, none⟩) none))).write
        .generic).run [] = .ok (_, []) := rfl
    obtain ⟨b, hb, hname, -, htable⟩ :=
      (joinsTableOf_iff hbind (i := 0) rfl rfl .generic []).1 _ _ hrun
    refine ⟨_, hbind, b, hb, hname, htable.2 fun b' hb' _ => ?_⟩
    obtain rfl := List.mem_singleton.1 hb'
    rfl
  · have hbind : Scope.bind (withAuthors (.table (.name "shelf") none)) = .ok _ := rfl
    refine ((joinsTableOf_iff hbind (i := 0) rfl rfl .generic []).2 (fun b hb => ?_)
      (.raw "TRUE") _ [] rfl).1
    obtain rfl := List.mem_singleton.1 hb
    decide

/-- The books of an archive are taken for the books of the library. -/
theorem not_joinsTableOf_crossed :
    (Command.select (withAuthors (.table (.name "book") (some "archive")))).assemble
      = .ok ⟨"SELECT \"archive\".\"book\".* FROM \"archive\".\"book\" INNER JOIN \"author\" "
          ++ "ON \"archive\".\"book\".\"fk_author\"=\"author\".\"id\"", []⟩
    ∧ ∃ scope, Scope.bind (withAuthors (.table (.name "book") (some "archive"))) = .ok scope
      ∧ ∀ b ∈ scope.bindings, ¬ b.IsTableOf libraryBook := by
  have hbind : Scope.bind (withAuthors (.table (.name "book") (some "archive"))) = .ok _ := rfl
  refine ⟨rfl, _, hbind, fun b hb htable => ?_⟩
  have hbody := List.mem_map_of_mem (f := Binding.body) hb
  rw [htable] at hbody
  have hbodies : SourceBody.table (.name "book") (some "library")
      ∈ [SourceBody.table (.name "book") (some "archive"), .table (.name "author") none] :=
    hbody
  simp at hbodies

end Select

end SqlAssembly
