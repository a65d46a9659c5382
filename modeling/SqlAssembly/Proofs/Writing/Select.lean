import SqlAssembly.Proofs.Query.Fold
import SqlAssembly.Proofs.Writing.Condition

/-!
# Writing selects and queries

Writing a select follows rendering it: the clauses come in the same order, the first that fails is
the same, and the clauses that are left out are the same. `Query.write_eq` carries this to queries
of any depth.
-/

namespace SqlAssembly

variable {d : Dialect} {k : Nat}

/-! ### Lists of clauses -/

namespace Sql

@[simp] theorem valuesAll_present (clauses : List Sql) :
    valuesAll (Select.present clauses) = valuesAll clauses := by
  induction clauses with
  | nil => rfl
  | cons c cs ih =>
    cases c with
    | nil => simpa [Select.present] using ih
    | cons p ps => simpa [Select.present] using ih

end Sql

namespace Select

@[simp] theorem present_nil : present [] = [] := rfl

@[simp] theorem present_nil_cons (cs : List Sql) : present ([] :: cs) = present cs := rfl

@[simp] theorem present_text_append (s : String) (sql : Sql) (cs : List Sql) :
    present ((Sql.text s ++ sql) :: cs) = (Sql.text s ++ sql) :: present cs := rfl

@[simp] theorem present_append (as bs : List Sql) :
    present (as ++ bs) = present as ++ present bs :=
  List.filter_append as bs

theorem present_cons (c : Sql) (cs : List Sql) : present (c :: cs) = present [c] ++ present cs :=
  present_append [c] cs

end Select

namespace Writer

variable {α : Type}

/-- One writer for each element of a list, following one rendering for each. -/
theorem mapM_ofRendered (f : α → Rendered) (as : List α) :
    as.mapM (fun a => ofRendered d (f a)) = ofParts d (as.mapM f) := by
  induction as with
  | nil => ext bound; simp
  | cons a as ih =>
    ext bound
    simp only [List.mapM_cons, ih]
    cases f a with
    | error e => simp
    | ok sql => cases as.mapM f <;> simp

end Writer

/-! ### Sources -/

/-- The text of raw SQL as a table. -/
theorem Dialect.quoteTable_raw (sql : String) (alias? : Option String) :
    d.quoteTable (.raw sql) alias? none = "(" ++ sql ++ ")" ++ d.spell (aliasSql alias?) := by
  cases alias? <;>
    simp [quoteTable, spell, tableSql, aliasSql, Sql.parenthesized, Piece.spell, Piece.values,
      String.append_assoc]

theorem Binding.write_map (b : Binding Rendered) :
    (b.map (Writer.ofRendered d)).write d = Writer.ofRendered d b.sql := by
  ext bound
  obtain ⟨qualifier, alias?, schema, qualifies, record, body⟩ := b
  have ha (k : Nat) : Sql.spell d k (aliasSql alias?) = d.spell (aliasSql alias?) :=
    Sql.spell_of_values_eq_nil (values_aliasSql alias?)
  cases body with
  | table table schema =>
    have ht : Sql.spell d bound.length (tableSql table schema ++ aliasSql alias?)
        = d.quoteTable table alias? schema :=
      Sql.spell_of_values_eq_nil (by simp [values_tableSql, values_aliasSql])
    simp only [map, SourceBody.map, write, sql, ← ht]
    simp [values_tableSql, values_aliasSql]
  | query q =>
    simp only [map, SourceBody.map, write, sql, Dialect.quoteTable_raw]
    cases q with
    | error e => simp
    | ok inner => simp [Sql.parenthesized, values_aliasSql, ha, String.append_assoc]

namespace Select

theorem writeFrom_map (items : List (BoundItem Rendered)) :
    writeFrom d (items.map (BoundItem.map (Writer.ofRendered d)))
      = Writer.ofParts d ((fromSql items).map fun sql => present [sql]) := by
  have hlateral (b : Binding Rendered) :
      (do return "LATERAL " ++ (← Writer.ofRendered d b.sql) : Written)
        = Writer.ofRendered d (do return Sql.text "LATERAL " ++ (← b.sql)) := by
    ext bound
    cases b.sql <;> simp
  ext bound
  simp only [writeFrom, fromSql, BoundItem.sources_map, List.mapM_map, Function.comp_def,
    Binding.write_map, hlateral, Writer.mapM_ofRendered]
  cases (BoundItem.sources false items).mapM Binding.sql with
  | error e => simp
  | ok plain =>
    cases (BoundItem.sources true items).mapM fun b => do
        return Sql.text "LATERAL " ++ (← b.sql) with
    | error e => simp
    | ok lateral =>
      have hspell : Sql.spellAll d bound.length plain
            ++ Sql.spellAll d (bound ++ Sql.valuesAll plain).length lateral
          = Sql.spellAll d bound.length (plain ++ lateral) := by simp
      have hvalues : bound ++ Sql.valuesAll plain ++ Sql.valuesAll lateral
          = bound ++ Sql.valuesAll (plain ++ lateral) := by simp
      simp only [StateT.run_bind, Writer.run_ofParts, Except.ok_bind, StateT.run_pure, hspell,
        hvalues]
      cases plain ++ lateral with
      | nil => simp
      | cons s ss => simp

theorem writeFilter_map (keyword : String) (owner : Option RecordType) (c : Condition Rendered) :
    writeFilter d keyword owner (c.map (Writer.ofRendered d))
      = Writer.ofParts d ((c.renderClause keyword d owner).map fun sql => present [sql]) := by
  ext bound
  simp only [writeFilter, Condition.write_map, Condition.renderClause]
  cases h : c.render d owner with
  | error e => simp
  | ok sql =>
    have hblank : (sql.spell d bound.length).isEmpty = sql.isBlank d :=
      Condition.isDefinite_render h _
    simp only [StateT.run_bind, Writer.run_ofRendered, Except.ok_bind, hblank]
    cases hb : sql.isBlank d with
    | true => simp [Sql.values_eq_nil_of_isBlank hb]
    | false => simp [String.append_assoc]

theorem writePlain_eq {clauses : Except SqlError (List Sql)}
    (h : ∀ cs, clauses = .ok cs → Sql.valuesAll cs = []) :
    writePlain d clauses = Writer.ofParts d (clauses.map present) := by
  ext bound
  cases clauses with
  | error e => rfl
  | ok cs =>
    have hcs := h cs rfl
    have hp : Sql.valuesAll (present cs) = [] := by simpa using hcs
    simp [writePlain, Sql.spellAll_of_valuesAll_eq_nil hp, hcs]

theorem writePlain_singleton {clause : Rendered} (h : ∀ sql, clause = .ok sql → sql.values = []) :
    writePlain d (return [← clause]) = Writer.ofParts d (clause.map fun sql => present [sql]) := by
  cases clause with
  | error e => rfl
  | ok sql => exact writePlain_eq fun cs hcs => by cases hcs; simp [h sql rfl]

theorem writeJoins_map (prior : List (Binding Rendered)) (joins : List (BoundJoin Rendered)) :
    writeJoins d (prior.map (Binding.map (Writer.ofRendered d)))
        (joins.map (BoundJoin.map (Writer.ofRendered d)))
      = Writer.ofParts d (joinsSql prior joins) := by
  induction joins generalizing prior with
  | nil => ext bound; simp [writeJoins, joinsSql]
  | cons j js ih =>
    have hj : writeJoin d (prior.map (Binding.map (Writer.ofRendered d)))
          (j.map (Writer.ofRendered d))
        = Writer.ofRendered d (joinSql prior j) := by
      ext bound
      simp only [writeJoin, joinSql, joinOnSql_map]
      rw [Writer.plain_eq_ofRendered fun _ => values_joinOnSql]
      simp only [BoundJoin.map, Join.map, Binding.write_map]
      cases j.binding.sql with
      | error e => simp
      | ok source => cases joinOnSql prior j <;> simp [String.append_assoc]
    have ih := ih (prior ++ [j.binding])
    rw [List.map_append] at ih
    ext bound
    simp only [List.map_cons, writeJoins, joinsSql, hj]
    simp only [List.map_nil, List.map_cons] at ih
    simp only [BoundJoin.map, ih]
    cases joinSql prior j with
    | error e => simp
    | ok first => cases joinsSql (prior ++ [j.binding]) js <;> simp

theorem writeUnions_map (bare : Bool) (unions : List (UnionPart Rendered)) :
    writeUnions bare (unions.map (UnionPart.map (Writer.ofRendered d)))
      = Writer.ofParts d (unionsSql bare unions) := by
  induction unions generalizing bare with
  | nil => ext bound; simp [writeUnions, unionsSql]
  | cons u us ih =>
    have hu : writeMember (u.member.map (Writer.ofRendered d))
        = Writer.ofRendered d (memberSql u.member) := by
      ext bound
      cases u.member <;> simp [UnionMember.map, writeMember, memberSql]
    ext bound
    simp only [List.map_cons, writeUnions, unionsSql, UnionPart.map, hu, ih]
    cases memberSql u.member with
    | error e => simp
    | ok member =>
      cases unionsSql false us with
      | error e => simp
      | ok rest => cases bare <;> simp

theorem present_joinsSql {prior : List (Binding Rendered)} {joins : List (BoundJoin Rendered)}
    {clauses : List Sql} (h : joinsSql prior joins = .ok clauses) : present clauses = clauses := by
  induction joins generalizing prior clauses with
  | nil =>
    cases h
    rfl
  | cons j js ih =>
    obtain ⟨first, hfirst, h⟩ := Except.bind_eq_ok.1 (by simpa only [joinsSql] using h)
    obtain ⟨rest, hrest, h⟩ := Except.bind_eq_ok.1 h
    cases h
    obtain ⟨source, _, hfirst⟩ := Except.bind_eq_ok.1 hfirst
    obtain ⟨condition, _, hfirst⟩ := Except.bind_eq_ok.1 hfirst
    cases hfirst
    rw [List.append_assoc, present_text_append, ih hrest]

theorem values_listSql (distinct : Bool) {scope : Scope Rendered} {columns : List Sql}
    (h : scope.selectList = .ok columns) : (listSql distinct columns).values = [] := by
  simp [listSql, Scope.values_selectList h]

theorem writeHead_map (s : Select Rendered) :
    writeHead d (s.map (Writer.ofRendered d)) = Writer.ofParts d ((headSql s).map present) := by
  ext bound
  simp only [writeHead, headSql, Scope.bind_map]
  cases Scope.bind s with
  | error e => simp
  | ok scope =>
    have hfrom : writeFrom d (scope.map (Writer.ofRendered d)).items
        = Writer.ofParts d ((fromSql scope.items).map fun sql => present [sql]) :=
      writeFrom_map scope.items
    have hjoins : writeJoins d (scope.map (Writer.ofRendered d)).fromBindings
          (scope.map (Writer.ofRendered d)).joins
        = Writer.ofParts d (joinsSql scope.fromBindings scope.joins) := by
      rw [Scope.fromBindings_map]
      exact writeJoins_map scope.fromBindings scope.joins
    simp only [Except.map_ok, StateT.run_bind, Writer.run_liftM, Except.ok_bind,
      Scope.selectList_map, hfrom, hjoins]
    cases hc : scope.selectList with
    | error e => simp
    | ok columns =>
      have hvalues := values_listSql s.distinct hc
      have hlist (k : Nat) := Sql.spell_of_values_eq_nil (d := d) (k := k) hvalues
      cases fromSql scope.items with
      | error e => simp
      | ok sources =>
        cases hj : joinsSql scope.fromBindings scope.joins with
        | error e => simp
        | ok joins =>
          have hhead : present (listSql s.distinct columns :: sources :: joins)
              = listSql s.distinct columns :: (present [sources] ++ joins) := by
            rw [present_cons, present_cons sources, present_joinsSql hj]
            rfl
          have hdistinct : (s.map (Writer.ofRendered d)).distinct = s.distinct := rfl
          simp [hhead, hlist, hvalues, hdistinct]

theorem writeFilters_map (s : Select Rendered) :
    writeFilters d (s.map (Writer.ofRendered d))
      = Writer.ofParts d ((filterSql d s).map present) := by
  ext bound
  simp only [writeFilters, filterSql, target_map]
  simp only [map, writeFilter_map, writePlain_singleton fun _ => values_groupBySql]
  cases s.filter.renderClause "WHERE" d s.target with
  | error e => simp
  | ok filter =>
    cases groupBySql s.groupBy with
    | error e => simp
    | ok groupBy =>
      cases s.having.renderClause "HAVING" d none with
      | error e => simp
      | ok having =>
        have hpresent : present [filter, groupBy, having]
            = present [filter] ++ present [groupBy] ++ present [having] := by
          rw [present_cons, present_cons groupBy, List.append_assoc]
        simp [hpresent]

theorem write_map (s : Select Rendered) :
    (s.map (Writer.ofRendered d)).write d = Writer.ofRendered d (s.render d) := by
  have hitems : (s.map (Writer.ofRendered d)).items.isEmpty = s.items.isEmpty := by simp [map]
  have hunions (bare : Bool) : writeUnions bare (s.map (Writer.ofRendered d)).unions
      = Writer.ofParts d (unionsSql bare s.unions) :=
    writeUnions_map bare s.unions
  have htail := writePlain_eq (d := d) fun _ => values_tailSql (s := s)
  ext bound
  simp only [write, render, check_map, tailSql_map, hitems, writeHead_map, writeFilters_map,
    htail, hunions]
  cases s.check with
  | error e => simp
  | ok _ =>
    cases s.items.isEmpty with
    | true =>
      cases unionsSql true s.unions with
      | error e => simp
      | ok members => cases s.tailSql <;> simp
    | false =>
      cases headSql s with
      | error e => simp
      | ok head =>
        cases filterSql d s with
        | error e => simp
        | ok filter =>
          cases s.tailSql with
          | error e => simp
          | ok tail => cases unionsSql false s.unions <;> simp

end Select

/-! ### Queries -/

/-- Writing a query follows rendering it, whatever is nested in it. -/
theorem Query.write_eq (d : Dialect) (q : Query) : q.write d = Writer.ofRendered d (q.render d) :=
  (fold_fusion (Writer.ofRendered d) (fun s => (Select.write_map s).symm) q).symm

end SqlAssembly
