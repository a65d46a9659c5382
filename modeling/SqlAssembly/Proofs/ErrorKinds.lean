import SqlAssembly.Proofs.Building
import SqlAssembly.Proofs.Query.Nested
import SqlAssembly.Proofs.Query.Rows

/-!
# Errors about the dialect

Where a dialect supports `ILIKE`, a built statement does not fail with an error about the dialect
(`Command.sparesDialect_render`). A cast always gets its arguments from a column, and what a call
keeps for later is the error of a select, or the one that a record brings along.
-/

namespace SqlAssembly

variable {σ : Type}

/-- If the computation fails, then not with an error about the dialect. -/
abbrev SparesDialect {α : Type} (x : Except SqlError α) : Prop :=
  Except.FailsWith (fun e => e.kind ≠ .dialect) x

/-- The kind of a thrown error is computed. -/
theorem sparesDialect_throw {α : Type} {e : SqlError} (h : decide (e.kind = .dialect) = false) :
    SparesDialect (throw e : Except SqlError α) :=
  Except.failsWith_error.2 (of_decide_eq_false h)

/-! ### Names -/

theorem sparesDialect_checkName (role : NameRole) (name : String) :
    SparesDialect (checkName role name) := by
  unfold checkName
  split
  · exact sparesDialect_throw rfl
  · split
    · exact sparesDialect_throw rfl
    · exact Except.failsWith_ok _

theorem RecordType.sparesDialect_column (r : RecordType) (name : String) :
    SparesDialect (r.column name) := by
  unfold column
  split
  · exact Except.failsWith_ok _
  · exact sparesDialect_throw rfl

namespace Identifier

theorem sparesDialect_asTable (schema : Option String) (i : Identifier) :
    SparesDialect (i.asTable schema) := by
  induction i with
  | name s =>
    refine (sparesDialect_checkName _ _).bind fun _ => ?_
    cases schema with
    | none => exact Except.failsWith_ok _
    | some schema => exact (sparesDialect_checkName _ _).bind fun _ => Except.failsWith_ok _
  | aliased base aliasName ih =>
    exact (sparesDialect_checkName _ _).bind fun _ => ih.bind fun _ => Except.failsWith_ok _
  | literal sql => exact Except.failsWith_ok _
  | record t =>
    obtain ⟨type, alias?⟩ := t
    cases alias? with
    | none => exact Except.failsWith_ok _
    | some aliasName => exact (sparesDialect_checkName _ _).bind fun _ => Except.failsWith_ok _

theorem sparesDialect_asColumn (owner : Option RecordType) (i : Identifier) :
    SparesDialect (i.asColumn owner) := by
  induction i with
  | name s =>
    refine (sparesDialect_checkName _ _).bind fun _ => ?_
    cases owner with
    | none => exact Except.failsWith_ok _
    | some r =>
      dsimp only
      split
      · exact Except.failsWith_ok _
      · exact (r.sparesDialect_column s).bind fun _ => Except.failsWith_ok _
  | aliased base aliasName ih =>
    exact (sparesDialect_checkName _ _).bind fun _ => ih.bind fun _ => Except.failsWith_ok _
  | literal sql => exact Except.failsWith_ok _
  | record t => exact sparesDialect_throw rfl

theorem sparesDialect_asQualifier (i : Identifier) : SparesDialect i.asQualifier := by
  cases i with
  | name s => exact (sparesDialect_checkName _ _).bind fun _ => Except.failsWith_ok _
  | aliased base aliasName =>
    exact (sparesDialect_checkName _ _).bind fun _ => Except.failsWith_ok _
  | literal sql => exact sparesDialect_throw rfl
  | record t => exact Except.failsWith_ok _

end Identifier

theorem sparesDialect_columnName (owner : Option RecordType) (name : String) :
    SparesDialect (columnName owner name) :=
  (Identifier.sparesDialect_asColumn owner _).bind fun (column, _) => by
    cases column <;> exact Except.failsWith_ok _

/-! ### Columns -/

/-- The form of a column has the arguments that a cast takes. -/
theorem sparesDialect_columnSql (column : SqlName) (cast alias? table schema : Option String) :
    SparesDialect (columnSql column (ColumnForm.of cast alias?) table schema) := by
  cases cast <;> cases alias? <;> exact Except.failsWith_ok _

theorem Field.sparesDialect_sql (owner : Option RecordType) (f : Field) :
    SparesDialect (f.sql owner) := by
  have hsql (r : FieldRef) : SparesDialect r.sql := by
    cases hr : r.alias? <;> simp [FieldRef.sql, columnSql, hr]
  obtain ⟨table, name⟩ := f
  refine Except.FailsWith.bind ?_ hsql
  cases table with
  | none => exact (name.sparesDialect_asColumn owner).bind fun _ => Except.failsWith_ok _
  | some table =>
    exact table.sparesDialect_asQualifier.bind fun q =>
      (name.sparesDialect_asColumn q.record).bind fun _ => Except.failsWith_ok _

theorem Column.sparesDialect_sql (owner : Option RecordType) (table schema : Option String)
    (c : Column) : SparesDialect (c.sql owner table schema) := by
  refine (c.name.sparesDialect_asColumn owner).bind fun (name, identAlias) => ?_
  dsimp only
  cases c.alias?.or identAlias with
  | none => exact sparesDialect_columnSql name c.cast none table schema
  | some aliasName =>
    exact (sparesDialect_checkName _ _).bind fun _ =>
      sparesDialect_columnSql name c.cast (some aliasName) table schema

theorem sparesDialect_returningClause (owner : Option RecordType) (columns : Option Columns) :
    SparesDialect (returningClause owner columns) := by
  cases columns with
  | none => exact Except.failsWith_ok _
  | some columns =>
    refine Except.FailsWith.bind ?_ fun _ => Except.failsWith_ok _
    unfold Columns.returningSql
    split
    · exact Except.failsWith_ok _
    · exact (Except.failsWith_mapM fun c _ => c.sparesDialect_sql owner none none).bind
        fun _ => Except.failsWith_ok _

/-! ### Conditions -/

theorem Condition.sparesDialect_check (c : Condition σ) : SparesDialect c.check := by
  unfold check
  split
  · exact sparesDialect_throw rfl
  · split
    · exact sparesDialect_throw rfl
    · exact Except.failsWith_ok _

section Queries

-- The queries in a part are given by a function, so that a source keeps one when it is bound.
variable {f : σ → Rendered} {d : Dialect} (owner : Option RecordType)

theorem Operand.sparesDialect_render (hf : ∀ q, SparesDialect (f q)) (o : Operand σ) :
    SparesDialect ((o.map f).render owner) := by
  cases o with
  | absent | value v | literal sql => exact Except.failsWith_ok _
  | field g => exact (g.sparesDialect_sql owner).bind fun _ => Except.failsWith_ok _
  | subquery q => exact (hf q).bind fun _ => Except.failsWith_ok _

theorem Predicate.sparesDialect_render (hf : ∀ q, SparesDialect (f q))
    (hilike : d.supportsIlike = true) (p : Predicate σ) :
    SparesDialect ((p.map f).render d owner) := by
  have hcheck : checkIlike d p.operator = .ok () := by simp [checkIlike, hilike]
  unfold render map
  rw [hcheck, Except.ok_bind]
  exact (p.field.sparesDialect_sql owner).bind fun _ =>
    (p.operand.sparesDialect_render owner hf).bind fun _ => Except.failsWith_ok _

mutual

theorem Node.sparesDialect_render (hf : ∀ q, SparesDialect (f q))
    (hilike : d.supportsIlike = true) (style : ConditionStyle) (n : Node σ) :
    SparesDialect ((n.map f).render d owner style) := by
  match n with
  | .leaf c p =>
    exact (p.sparesDialect_render owner hf hilike).bind fun _ => Except.failsWith_ok _
  | .group c ns =>
    exact (Node.sparesDialect_renderAll hf hilike style ns).bind fun _ => Except.failsWith_ok _

theorem Node.sparesDialect_renderAll (hf : ∀ q, SparesDialect (f q))
    (hilike : d.supportsIlike = true) (style : ConditionStyle) (ns : List (Node σ)) :
    SparesDialect (renderAll d owner style (mapAll f ns)) := by
  match ns with
  | [] => exact Except.failsWith_ok _
  | n :: ns =>
    exact (Node.sparesDialect_render hf hilike style n).bind fun _ =>
      (Node.sparesDialect_renderAll hf hilike style ns).bind fun _ => Except.failsWith_ok _

end

theorem Condition.sparesDialect_renderClause (hf : ∀ q, SparesDialect (f q))
    (hilike : d.supportsIlike = true) (keyword : String) (c : Condition σ) :
    SparesDialect ((c.map f).renderClause keyword d owner) := by
  refine Except.FailsWith.bind ?_ fun _ => Except.failsWith_ok _
  exact (sparesDialect_check _).bind fun _ =>
    (Node.sparesDialect_renderAll owner hf hilike c.style c.root).bind fun _ =>
      Except.failsWith_ok _

end Queries

/-! ### Sources -/

theorem sparesDialect_claimAlias (aliasName : String) (taken : List String) :
    SparesDialect (claimAlias aliasName taken) := by
  unfold claimAlias
  split
  · exact sparesDialect_throw rfl
  · split
    · exact sparesDialect_throw rfl
    · exact Except.failsWith_ok _

namespace Binding

theorem sparesDialect_ofTable (taken : List String) (record : Option RecordType) (t : TableRef) :
    SparesDialect (ofTable taken record t : Except SqlError (Binding σ)) := by
  obtain ⟨schema, table, alias?⟩ := t
  cases alias? with
  | some aliasName =>
    exact (sparesDialect_claimAlias aliasName taken).bind fun _ => Except.failsWith_ok _
  | none => cases table <;> exact Except.failsWith_ok _

theorem sparesDialect_ofSource (taken : List String) (s : Source σ) :
    SparesDialect (ofSource taken s) := by
  cases s with
  | table name schema =>
    exact (name.sparesDialect_asTable schema).bind fun t => sparesDialect_ofTable taken _ t
  | subquery q alias? =>
    cases alias? with
    | none => exact Except.failsWith_ok _
    | some aliasName =>
      exact (sparesDialect_claimAlias aliasName taken).bind fun _ => Except.failsWith_ok _

theorem sparesDialect_columnSql (b : Binding σ) (column : SqlName) :
    SparesDialect (b.columnSql column) :=
  Except.failsWith_ok _

theorem sparesDialect_listSql (b : Binding σ) (qualify : Bool) (columns : Columns) :
    SparesDialect (b.listSql qualify columns) := by
  unfold listSql
  split
  · exact Except.failsWith_ok _
  · split <;> exact Except.failsWith_mapM fun c _ => c.sparesDialect_sql _ _ _

theorem sparesDialect_sql {f : σ → Rendered} (hf : ∀ q, SparesDialect (f q)) (b : Binding σ) :
    SparesDialect (b.map f).sql := by
  obtain ⟨_, _, _, _, _, body⟩ := b
  cases body with
  | table table schema => exact Except.failsWith_ok _
  | query q => exact (hf q).bind fun _ => Except.failsWith_ok _

end Binding

theorem SourceItem.sparesDialect_bindAll (taken : List String) (items : List (SourceItem σ)) :
    SparesDialect (bindAll taken items) := by
  induction items generalizing taken with
  | nil => exact Except.failsWith_ok _
  | cons i is ih =>
    match i with
    | .plain s columns | .lateral s columns =>
      exact (Binding.sparesDialect_ofSource taken s).bind fun _ =>
        (ih _).bind fun _ => Except.failsWith_ok _
    | .expressions columns => exact (ih _).bind fun _ => Except.failsWith_ok _

theorem Join.sparesDialect_bindAll (taken : List String) (joins : List (Join σ)) :
    SparesDialect (bindAll taken joins) := by
  induction joins generalizing taken with
  | nil => exact Except.failsWith_ok _
  | cons j js ih =>
    exact (Binding.sparesDialect_ofSource taken j.source).bind fun _ =>
      (ih _).bind fun _ => Except.failsWith_ok _

namespace Scope

theorem sparesDialect_bind (s : Select σ) : SparesDialect (bind s) :=
  (SourceItem.sparesDialect_bindAll [] s.items).bind fun _ =>
    (Join.sparesDialect_bindAll _ s.joins).bind fun _ => Except.failsWith_ok _

theorem sparesDialect_selectList (s : Scope σ) : SparesDialect s.selectList := by
  refine (Except.failsWith_mapM fun i _ => ?_).bind fun _ =>
    (Except.failsWith_mapM fun j _ => ?_).bind fun _ => ?_
  · cases i with
    | source b lateral columns => exact b.sparesDialect_listSql _ columns
    | expressions columns => exact Except.failsWith_mapM fun c _ => c.sparesDialect_sql _ _ _
  · split
    · exact Except.failsWith_ok _
    · exact j.binding.sparesDialect_listSql _ _
  · split
    · exact sparesDialect_throw rfl
    · exact Except.failsWith_ok _

end Scope

/-! ### Selects -/

namespace Select

theorem sparesDialect_checkMembers (us : List (UnionPart σ)) :
    SparesDialect (checkMembers us) := by
  induction us with
  | nil => exact Except.failsWith_ok _
  | cons u us ih =>
    unfold checkMembers
    split
    · exact sparesDialect_throw rfl
    · exact ih

theorem sparesDialect_checkBareUnion (s : Select σ) : SparesDialect s.checkBareUnion := by
  unfold checkBareUnion
  split
  · exact sparesDialect_throw rfl
  · split
    · exact sparesDialect_throw rfl
    · split
      · exact sparesDialect_throw rfl
      · exact Except.failsWith_ok _

theorem sparesDialect_check {s : Select σ} (hs : ∀ e ∈ s.deferred, e.kind ≠ .dialect) :
    SparesDialect s.check := by
  unfold check
  cases hdeferred : s.deferred with
  | some e => simpa using hs e hdeferred
  | none =>
    refine s.filter.sparesDialect_check.bind fun _ => s.having.sparesDialect_check.bind fun _ => ?_
    have hjoins : SparesDialect (if (!s.joins.isEmpty && !s.items.any SourceItem.isSource) = true
        then throw .joinWithoutSource else checkMembers s.unions) := by
      split
      · exact sparesDialect_throw rfl
      · exact sparesDialect_checkMembers s.unions
    by_cases hitems : s.items.isEmpty = true
    · simp only [hitems, if_true]
      exact s.sparesDialect_checkBareUnion.bind fun _ => by simpa using hjoins
    · simpa [hitems] using hjoins

theorem sparesDialect_joinConditionSql (prior : List (Binding σ)) (joined : Binding σ)
    (condition : JoinCondition) : SparesDialect (joinConditionSql prior joined condition) := by
  cases condition with
  | raw sql => exact Except.failsWith_ok _
  | columns field other otherField operator =>
    refine other.sparesDialect_asQualifier.bind fun q => ?_
    dsimp only
    split
    · exact sparesDialect_throw rfl
    · exact (otherField.sparesDialect_asColumn _).bind fun _ =>
        (Binding.sparesDialect_columnSql _ _).bind fun _ =>
          (field.sparesDialect_asColumn _).bind fun _ =>
            (Binding.sparesDialect_columnSql _ _).bind fun _ => Except.failsWith_ok _

theorem sparesDialect_joinOnSql (prior : List (Binding σ)) (j : BoundJoin σ) :
    SparesDialect (joinOnSql prior j) := by
  unfold joinOnSql
  split
  · exact Except.failsWith_ok _
  · exact sparesDialect_throw rfl
  · exact sparesDialect_throw rfl
  · exact sparesDialect_joinConditionSql prior j.binding _

theorem sparesDialect_groupBySql (fields : List Field) : SparesDialect (groupBySql fields) := by
  cases fields with
  | nil => exact Except.failsWith_ok _
  | cons f fs =>
    exact (Except.failsWith_mapM fun g _ => g.sparesDialect_sql none).bind fun _ =>
      Except.failsWith_ok _

theorem sparesDialect_tailSql (s : Select σ) : SparesDialect s.tailSql := by
  refine Except.FailsWith.bind ?_ fun _ => Except.failsWith_ok _
  cases s.orderBy with
  | nil => exact Except.failsWith_ok _
  | cons f fs =>
    refine Except.FailsWith.bind ?_ fun _ => Except.failsWith_ok _
    exact Except.failsWith_mapM fun g _ => (g.1.sparesDialect_sql none).bind fun _ =>
      Except.failsWith_ok _

variable {f : σ → Rendered} {d : Dialect}

theorem sparesDialect_joinsSql (hf : ∀ q, SparesDialect (f q)) (prior : List (Binding σ))
    (js : List (BoundJoin σ)) :
    SparesDialect (joinsSql (prior.map (Binding.map f)) (js.map (BoundJoin.map f))) := by
  induction js generalizing prior with
  | nil => exact Except.failsWith_ok _
  | cons j js ih =>
    have hfirst : SparesDialect (joinSql (prior.map (Binding.map f)) (j.map f)) := by
      refine (j.binding.sparesDialect_sql hf).bind fun _ => ?_
      rw [joinOnSql_map]
      exact (sparesDialect_joinOnSql prior j).bind fun _ => Except.failsWith_ok _
    refine hfirst.bind fun _ => Except.FailsWith.bind ?_ fun _ => Except.failsWith_ok _
    simpa [BoundJoin.map] using ih (prior ++ [j.binding])

theorem sparesDialect_fromSql (hf : ∀ q, SparesDialect (f q)) (items : List (BoundItem σ)) :
    SparesDialect (fromSql (items.map (BoundItem.map f))) := by
  have hsource (lateral : Bool) :
      ∀ b ∈ BoundItem.sources lateral (items.map (BoundItem.map f)), SparesDialect b.sql := by
    rw [BoundItem.sources_map]
    exact List.forall_mem_map.2 fun b _ => b.sparesDialect_sql hf
  refine (Except.failsWith_mapM (hsource false)).bind fun _ =>
    (Except.failsWith_mapM fun b hb =>
      (hsource true b hb).bind fun _ => Except.failsWith_ok _).bind fun _ => ?_
  split <;> exact Except.failsWith_ok _

theorem sparesDialect_unionsSql (hf : ∀ q, SparesDialect (f q)) (bare : Bool)
    (us : List (UnionPart σ)) : SparesDialect (unionsSql bare (us.map (UnionPart.map f))) := by
  induction us generalizing bare with
  | nil => exact Except.failsWith_ok _
  | cons u us ih =>
    obtain ⟨member, kind⟩ := u
    refine Except.FailsWith.bind ?_ fun _ => (ih false).bind fun _ => Except.failsWith_ok _
    cases member with
    | query q => exact hf q
    | literal sql => exact Except.failsWith_ok _
    | refused kind => exact sparesDialect_throw rfl

theorem sparesDialect_headSql (hf : ∀ q, SparesDialect (f q)) (s : Select σ) :
    SparesDialect (s.map f).headSql := by
  unfold headSql
  rw [Scope.bind_map]
  refine (Scope.sparesDialect_bind s).map_bind fun scope => ?_
  rw [Scope.selectList_map, Scope.fromBindings_map]
  exact scope.sparesDialect_selectList.bind fun _ =>
    (sparesDialect_fromSql hf scope.items).bind fun _ =>
      (sparesDialect_joinsSql hf scope.fromBindings scope.joins).bind fun _ =>
        Except.failsWith_ok _

/-- A select fails with no error about the dialect if neither the error that it keeps nor one of its
queries is about it. -/
theorem sparesDialect_render (hf : ∀ q, SparesDialect (f q)) (hilike : d.supportsIlike = true)
    {s : Select σ} (hs : ∀ e ∈ s.deferred, e.kind ≠ .dialect) :
    SparesDialect ((s.map f).render d) := by
  have hcheck : SparesDialect (s.map f).check := by
    rw [check_map]
    exact sparesDialect_check hs
  have hfilter : SparesDialect ((s.map f).filterSql d) :=
    (s.filter.sparesDialect_renderClause _ hf hilike _).bind fun _ =>
      (sparesDialect_groupBySql s.groupBy).bind fun _ =>
        (s.having.sparesDialect_renderClause _ hf hilike _).bind fun _ => Except.failsWith_ok _
  refine hcheck.bind fun _ => ?_
  split
  · exact (sparesDialect_unionsSql hf true s.unions).bind fun _ =>
      (sparesDialect_tailSql _).bind fun _ => Except.failsWith_ok _
  · exact (sparesDialect_headSql hf s).bind fun _ => hfilter.bind fun _ =>
      (sparesDialect_tailSql _).bind fun _ =>
        (sparesDialect_unionsSql hf false s.unions).bind fun _ => Except.failsWith_ok _

end Select

/-! ### Inserts, updates and deletes -/

theorem Source.sparesDialect_asTarget (kind : StatementKind) (s : Source σ) :
    SparesDialect (s.asTarget kind) := by
  cases s with
  | table name schema => exact name.sparesDialect_asTable schema
  | subquery q alias? => exact sparesDialect_throw rfl

theorem Assignment.sparesDialect_resolveAll (owner : Option RecordType)
    (assignments : List (Assignment σ)) : SparesDialect (resolveAll owner assignments) :=
  Except.failsWith_mapM fun a _ =>
    (sparesDialect_columnName owner a.name).bind fun _ => Except.failsWith_ok _

namespace Insert

variable (owner : Option RecordType)

theorem sparesDialect_columns (s : Insert σ) : SparesDialect (s.columns owner) := by
  have hgiven : SparesDialect (s.givenColumns owner) := by
    unfold givenColumns
    split <;> exact Except.failsWith_mapM fun _ _ => sparesDialect_columnName owner _
  refine hgiven.bind fun columns => ?_
  by_cases hempty : columns = []
  · rw [if_pos (List.isEmpty_iff.2 hempty)]
    exact sparesDialect_throw rfl
  · simp only [List.isEmpty_iff, hempty, if_false]
    split
    · exact sparesDialect_throw rfl
    · exact Except.failsWith_ok _

theorem sparesDialect_orderRow (columns : List String) (number : Nat) (r : Row σ) :
    SparesDialect (orderRow owner columns number r) := by
  cases r with
  | positional values =>
    simp only [orderRow]
    split
    · exact Except.failsWith_ok _
    · exact sparesDialect_throw rfl
  | named values =>
    refine (Assignment.sparesDialect_resolveAll owner values).bind fun row => ?_
    have hoperands : SparesDialect (columns.mapM (operandFor number row)) := by
      refine Except.failsWith_mapM fun column _ => ?_
      unfold operandFor
      split
      · exact Except.failsWith_ok _
      · exact sparesDialect_throw rfl
    split
    · exact sparesDialect_throw rfl
    · exact hoperands

theorem sparesDialect_orderRows (columns : List String) (number : Nat) (rs : List (Row σ)) :
    SparesDialect (orderRows owner columns number rs) := by
  induction rs generalizing number with
  | nil => exact Except.failsWith_ok _
  | cons r rs ih =>
    exact (sparesDialect_orderRow owner columns number r).bind fun _ =>
      (ih _).bind fun _ => Except.failsWith_ok _

variable {f : σ → Rendered}

theorem sparesDialect_valuesSql (hf : ∀ q, SparesDialect (f q)) (number : Nat)
    (columns : List String) (operands : List (Operand σ)) :
    SparesDialect (valuesSql owner number columns (operands.map (Operand.map f))) := by
  induction columns generalizing operands with
  | nil => exact Except.failsWith_ok _
  | cons column columns ih =>
    cases operands with
    | nil => exact Except.failsWith_ok _
    | cons o os =>
      refine (o.sparesDialect_render owner hf).bind fun sql? => ?_
      cases sql? with
      | none => exact sparesDialect_throw rfl
      | some sql => exact (ih os).bind fun _ => Except.failsWith_ok _

theorem sparesDialect_rowsSql (hf : ∀ q, SparesDialect (f q)) (columns : List String)
    (number : Nat) (rs : List (List (Operand σ))) :
    SparesDialect (rowsSql owner columns number (rs.map (List.map (Operand.map f)))) := by
  induction rs generalizing number with
  | nil => exact Except.failsWith_ok _
  | cons r rs ih =>
    exact (sparesDialect_valuesSql owner hf number columns r).bind fun _ =>
      (ih _).bind fun _ => Except.failsWith_ok _

theorem sparesDialect_render (hf : ∀ q, SparesDialect (f q)) {s : Insert σ}
    (hs : ∀ e ∈ s.deferred, e.kind ≠ .dialect) : SparesDialect (s.map f).render := by
  have hdeferred : (s.map f).deferred = s.deferred := rfl
  have htarget : (s.map f).target = s.target.map (Source.map f) := rfl
  unfold render
  rw [hdeferred, htarget]
  cases hkept : s.deferred with
  | some e => simpa using hs e hkept
  | none =>
    cases s.target with
    | none => exact sparesDialect_throw rfl
    | some source =>
      simp only [Option.map_some, Source.asTarget_map, Source.recordType?_map, columns_map]
      refine (source.sparesDialect_asTarget .insert).bind fun _ => ?_
      split
      · exact sparesDialect_throw rfl
      · refine (sparesDialect_columns _ s).bind fun columns => ?_
        rw [show (s.map f).rows = s.rows.map (Row.map f) from rfl, orderRows_map]
        exact (sparesDialect_orderRows _ columns 1 s.rows).map_bind fun ordered =>
          (sparesDialect_rowsSql _ hf columns 1 ordered).bind fun _ =>
            (sparesDialect_returningClause _ _).bind fun _ => Except.failsWith_ok _

end Insert

namespace Update

variable (owner : Option RecordType)

theorem sparesDialect_merged (s : Update σ) : SparesDialect (s.merged owner) := by
  have hpositional : SparesDialect s.positionalAssignments := by
    unfold positionalAssignments
    cases s.positional with
    | none => exact Except.failsWith_ok _
    | some operands =>
      dsimp only
      split
      · exact Except.failsWith_ok _
      · exact sparesDialect_throw rfl
  refine hpositional.bind fun positional =>
    (Assignment.sparesDialect_resolveAll owner _).bind fun es => ?_
  dsimp only
  split
  · exact sparesDialect_throw rfl
  · exact Except.failsWith_ok _

variable {f : σ → Rendered} {d : Dialect}

theorem sparesDialect_assignmentSql (hf : ∀ q, SparesDialect (f q)) (column : String)
    (o : Operand σ) : SparesDialect (assignmentSql owner column (o.map f)) := by
  refine (o.sparesDialect_render owner hf).bind fun sql? => ?_
  cases sql? with
  | none => exact sparesDialect_throw rfl
  | some sql => exact Except.failsWith_ok _

theorem sparesDialect_render (hf : ∀ q, SparesDialect (f q)) (hilike : d.supportsIlike = true)
    {s : Update σ} (hs : ∀ e ∈ s.deferred, e.kind ≠ .dialect) :
    SparesDialect ((s.map f).render d) := by
  have hassignments (owner : Option RecordType) (es : List (String × Operand σ)) :
      SparesDialect ((Entries.map (Operand.map f) es).mapM fun e =>
        assignmentSql owner e.1 e.2) :=
    Except.failsWith_mapM (List.forall_mem_map.2 fun e _ =>
      sparesDialect_assignmentSql owner hf e.1 e.2)
  have hdeferred : (s.map f).deferred = s.deferred := rfl
  have htarget : (s.map f).target = s.target.map (Source.map f) := rfl
  unfold render
  rw [hdeferred, htarget]
  cases hkept : s.deferred with
  | some e => simpa using hs e hkept
  | none =>
    refine (Condition.sparesDialect_check _).bind fun _ => ?_
    cases s.target with
    | none => exact sparesDialect_throw rfl
    | some source =>
      simp only [Option.map_some, Source.asTarget_map, Source.recordType?_map, merged_map]
      exact (source.sparesDialect_asTarget .update).bind fun _ =>
        (sparesDialect_merged _ s).map_bind fun m =>
          (hassignments _ m.entries).bind fun _ =>
            (s.filter.sparesDialect_renderClause _ hf hilike _).bind fun _ =>
              (sparesDialect_returningClause _ _).bind fun _ => Except.failsWith_ok _

end Update

namespace Delete

variable {f : σ → Rendered} {d : Dialect}

theorem sparesDialect_render (hf : ∀ q, SparesDialect (f q)) (hilike : d.supportsIlike = true)
    (s : Delete σ) : SparesDialect ((s.map f).render d) := by
  refine (Condition.sparesDialect_check _).bind fun _ => ?_
  cases htarget : s.target with
  | none =>
    simp only [map, htarget, Option.map_none]
    exact sparesDialect_throw rfl
  | some source =>
    simp only [map, htarget, Option.map_some, Source.asTarget_map, Source.recordType?_map]
    exact (source.sparesDialect_asTarget .delete).bind fun _ =>
      (s.filter.sparesDialect_renderClause _ hf hilike _).bind fun _ =>
        (sparesDialect_returningClause _ _).bind fun _ => Except.failsWith_ok _

end Delete

/-! ### Errors that are kept -/

theorem Select.kind_deferred_defer {s : Select σ} (hs : ∀ e ∈ s.deferred, e.kind = .assembly)
    {e : SqlError} (he : e.kind = .assembly) :
    ∀ e' ∈ (s.defer e).deferred, e'.kind = .assembly := by
  intro e' he'
  rcases Option.or_eq_some_iff.1 he' with he' | ⟨-, he'⟩
  · exact hs e' he'
  · obtain rfl := Option.some.inj he'
    exact he

/-- A call of a select keeps no error but one about assembling. -/
theorem Select.kind_deferred_apply {s : Select σ} (hs : ∀ e ∈ s.deferred, e.kind = .assembly)
    (call : SelectCall σ) : ∀ e ∈ (s.apply call).deferred, e.kind = .assembly := by
  cases call with
  | expressions columns => cases columns <;> exact hs
  | groupBy fields =>
    show ∀ e ∈ (fields.foldl group s).deferred, e.kind = .assembly
    induction fields generalizing s with
    | nil => exact hs
    | cons field fields ih =>
      refine ih ?_
      unfold group
      split
      · exact kind_deferred_defer hs rfl
      · exact hs
  | page page rows =>
    show ∀ e ∈ (s.paginate page rows).deferred, e.kind = .assembly
    unfold paginate
    split
    · exact kind_deferred_defer hs rfl
    · dsimp only
      split
      · exact hs
      · exact kind_deferred_defer hs rfl
  | _ => exact hs

theorem Select.kind_deferred_build (d : Dialect) (calls : List (SelectCall σ)) :
    ∀ e ∈ (build d calls).deferred, e.kind = .assembly :=
  List.foldlRecOn (motive := fun s : Select σ => ∀ e ∈ s.deferred, e.kind = .assembly) calls apply
    (by simp) fun _ hs call _ => kind_deferred_apply hs call

/-- The error that a record brings along. -/
def InsertCall.error? : InsertCall σ → Option SqlError
  | record r => r.error
  | _ => none

/-- The error that a record brings along. -/
def UpdateCall.error? : UpdateCall σ → Option SqlError
  | record r => r.error
  | _ => none

/-- An insert keeps the first error that a record brought. -/
theorem Insert.deferred_build (d : Dialect) (calls : List (InsertCall σ)) :
    (build d calls).deferred = calls.findSome? InsertCall.error? :=
  foldl_first deferred (fun s call => by cases call <;> simp [apply, addRecord, InsertCall.error?])
    { dialect := d } calls

/-- An update keeps the first error that a record brought. -/
theorem Update.deferred_build (d : Dialect) (calls : List (UpdateCall σ)) :
    (build d calls).deferred = calls.findSome? UpdateCall.error? :=
  foldl_first deferred (fun s call => by cases call <;> simp [apply, addRecord, UpdateCall.error?])
    { dialect := d } calls

/-- The error of an instance whose attributes were set is about a name. -/
theorem RecordInstance.kind_error_foldl_set (type : RecordType) (members : List (String × Value)) :
    ∀ e ∈ (members.foldl (fun (r : RecordInstance) m => r.set m.1 m.2) { type }).row.error,
      e.kind = .identifier := by
  refine List.foldlRecOn (motive := fun r : RecordInstance => ∀ e ∈ r.error, e.kind = .identifier)
    members _ (by simp) fun r hr m _ e he => ?_
  unfold RecordInstance.set set? at he
  cases hname : r.type.attribute? m.1 with
  | some attr => exact hr e (by simpa [hname] using he)
  | none =>
    simp only [hname] at he
    rcases Option.or_eq_some_iff.1 he with he | ⟨-, he⟩
    · exact hr e he
    · obtain rfl := Option.some.inj he
      rfl

/-! ### Built statements -/

/-- A query that was built by calls, as were the queries in it. -/
inductive Query.IsBuilt : Query → Prop where
  | build (d : Dialect) (calls : List (SelectCall Query))
      (queries : ∀ q ∈ (Select.build d calls).queries, IsBuilt q) : IsBuilt (of (.build d calls))

/-- A statement that was built by calls, as were the queries in it, from records that bring no
error about the dialect. -/
inductive Statement.IsBuilt : Statement → Prop where
  | select (s : Select Query) (query : (Query.of s).IsBuilt) : IsBuilt (select s)
  | insert (d : Dialect) (calls : List (InsertCall Query))
      (records : ∀ call ∈ calls, ∀ e ∈ call.error?, e.kind ≠ .dialect)
      (queries : ∀ q ∈ (Insert.build d calls).queries, q.IsBuilt) :
      IsBuilt (insert (.build d calls))
  | update (d : Dialect) (calls : List (UpdateCall Query))
      (records : ∀ call ∈ calls, ∀ e ∈ call.error?, e.kind ≠ .dialect)
      (queries : ∀ q ∈ (Update.build d calls).queries, q.IsBuilt) :
      IsBuilt (update (.build d calls))
  | delete (d : Dialect) (calls : List (DeleteCall Query))
      (queries : ∀ q ∈ (Delete.build d calls).queries, q.IsBuilt) :
      IsBuilt (delete (.build d calls))
  | literal (sql : String) : IsBuilt (literal sql)

/-- The statements that a call gives to a `WITH` statement. -/
def WithCall.statements : WithCall → List Statement
  | recursive _ => []
  | table t => [t.statement]
  | recursiveTable _ base step _ => [base, step]
  | statement s => [s]

/-- A `WITH` statement that was built by calls, as were the statements in it. -/
inductive With.IsBuilt : With → Prop where
  | build (d : Dialect) (calls : List WithCall)
      (statements : ∀ call ∈ calls, ∀ s ∈ call.statements, s.IsBuilt) : IsBuilt (.build d calls)

/-- A command that was built by calls, as were the statements and queries in it. -/
def Command.IsBuilt : Command → Prop
  | select s => (Statement.select s).IsBuilt
  | insert s => (Statement.insert s).IsBuilt
  | update s => (Statement.update s).IsBuilt
  | delete s => (Statement.delete s).IsBuilt
  | commonTables s => s.IsBuilt

theorem Statement.IsBuilt.queries_asMember {s : Statement} (h : s.IsBuilt) :
    ∀ q ∈ s.asMember.queries, q.IsBuilt := by
  cases h with
  | select s query => simpa [asMember, UnionMember.queries] using query
  | _ => simp [asMember, UnionMember.queries]

/-- A call of a `WITH` statement whose statements are built leaves built statements only. -/
theorem With.isBuilt_statements_apply {s : With} (htables : ∀ t ∈ s.tables, t.statement.IsBuilt)
    (hstatement : ∀ last ∈ s.statement, last.IsBuilt) {call : WithCall}
    (hcall : ∀ s ∈ call.statements, s.IsBuilt) :
    (∀ t ∈ (s.apply call).tables, t.statement.IsBuilt)
      ∧ ∀ last ∈ (s.apply call).statement, last.IsBuilt := by
  cases call with
  | recursive b => exact ⟨htables, hstatement⟩
  | table t =>
    refine ⟨List.forall_mem_append.2 ⟨htables, ?_⟩, hstatement⟩
    simpa [WithCall.statements] using hcall
  | recursiveTable name base step kind =>
    refine ⟨List.forall_mem_append.2 ⟨htables, List.forall_mem_singleton.2 ?_⟩, hstatement⟩
    refine .select _ (.build _ _ fun q hq => ?_)
    have hq : q ∈ base.asMember.queries ∨ q ∈ step.asMember.queries := by
      simpa [Select.build, Select.apply, Select.queries, Condition.queries, Node.queriesAll]
        using hq
    rcases hq with hq | hq
    · exact (hcall base (by simp [WithCall.statements])).queries_asMember q hq
    · exact (hcall step (by simp [WithCall.statements])).queries_asMember q hq
  | statement last =>
    refine ⟨htables, fun last' hlast => ?_⟩
    obtain rfl := Option.some.inj hlast
    simpa [WithCall.statements] using hcall

theorem With.IsBuilt.statements {s : With} (h : s.IsBuilt) :
    (∀ t ∈ s.tables, t.statement.IsBuilt) ∧ ∀ last ∈ s.statement, last.IsBuilt := by
  obtain ⟨d, calls, statements⟩ := h
  refine List.foldlRecOn (motive := fun s : With =>
    (∀ t ∈ s.tables, t.statement.IsBuilt) ∧ ∀ last ∈ s.statement, last.IsBuilt) calls apply
    (by simp) fun s hs call hcall => ?_
  exact isBuilt_statements_apply hs.1 hs.2 (statements call hcall)

/-! ### Rendering -/

variable {d : Dialect}

theorem Query.sparesDialect_render (hilike : d.supportsIlike = true) {q : Query} (h : q.IsBuilt) :
    SparesDialect (q.render d) := by
  induction h with
  | build d' calls _ ih =>
    obtain ⟨f, hf, heq⟩ := Except.exists_failsWith [] ih
    rw [render_of, Select.map_congr heq]
    exact Select.sparesDialect_render hf hilike fun e he => by
      simp [Select.kind_deferred_build d' calls e he]

theorem Statement.sparesDialect_render (hilike : d.supportsIlike = true) {s : Statement}
    (h : s.IsBuilt) : SparesDialect (s.render d) := by
  cases h with
  | select s query => exact Query.sparesDialect_render hilike query
  | insert d' calls records queries =>
    obtain ⟨f, hf, heq⟩ := Except.exists_failsWith []
      fun q hq => Query.sparesDialect_render (d := d) hilike (queries q hq)
    rw [show (insert (.build d' calls)).render d = ((Insert.build d' calls).map f).render from
      congrArg Insert.render (Insert.map_congr heq)]
    refine Insert.sparesDialect_render hf fun e he => ?_
    rw [Insert.deferred_build] at he
    obtain ⟨call, hcall, he⟩ := List.exists_of_findSome?_eq_some he
    exact records call hcall e he
  | update d' calls records queries =>
    obtain ⟨f, hf, heq⟩ := Except.exists_failsWith []
      fun q hq => Query.sparesDialect_render (d := d) hilike (queries q hq)
    rw [show (update (.build d' calls)).render d = ((Update.build d' calls).map f).render d from
      congrArg (Update.render d) (Update.map_congr heq)]
    refine Update.sparesDialect_render hf hilike fun e he => ?_
    rw [Update.deferred_build] at he
    obtain ⟨call, hcall, he⟩ := List.exists_of_findSome?_eq_some he
    exact records call hcall e he
  | delete d' calls queries =>
    obtain ⟨f, hf, heq⟩ := Except.exists_failsWith []
      fun q hq => Query.sparesDialect_render (d := d) hilike (queries q hq)
    rw [show (delete (.build d' calls)).render d = ((Delete.build d' calls).map f).render d from
      congrArg (Delete.render d) (Delete.map_congr heq)]
    exact Delete.sparesDialect_render hf hilike _
  | literal sql => exact Except.failsWith_ok _

theorem CommonTable.sparesDialect_render (hilike : d.supportsIlike = true) {t : CommonTable}
    (h : t.statement.IsBuilt) : SparesDialect (t.render d) :=
  (sparesDialect_checkName _ _).bind fun _ =>
    (Except.failsWith_forM t.columns fun _ => sparesDialect_checkName _ _).bind fun _ =>
      (Statement.sparesDialect_render hilike h).bind fun _ => Except.failsWith_ok _

theorem With.sparesDialect_render (hilike : d.supportsIlike = true) {s : With} (h : s.IsBuilt) :
    SparesDialect (s.render d) := by
  obtain ⟨htables, hstatement⟩ := h.statements
  unfold render
  by_cases hnone : s.tables = []
  · rw [if_pos (List.isEmpty_iff.2 hnone)]
    exact sparesDialect_throw rfl
  · simp only [List.isEmpty_iff, hnone, if_false]
    cases hlast : s.statement with
    | none => exact sparesDialect_throw rfl
    | some last =>
      exact (Except.failsWith_mapM fun t ht =>
        CommonTable.sparesDialect_render hilike (htables t ht)).bind fun _ =>
          (Statement.sparesDialect_render hilike (hstatement last hlast)).bind fun _ =>
            Except.failsWith_ok _

/-- Where `ILIKE` is supported a built command does not fail with an error about the dialect. -/
theorem Command.sparesDialect_render (hilike : d.supportsIlike = true) {c : Command}
    (h : c.IsBuilt) : SparesDialect (c.render d) := by
  cases c with
  | commonTables s => exact With.sparesDialect_render hilike h
  | _ => exact Statement.sparesDialect_render hilike h

end SqlAssembly
