import SqlAssembly.Proofs.Building
import SqlAssembly.Proofs.Query.Rows
import SqlAssembly.Proofs.Rendering
import SqlAssembly.Proofs.Writing.Statement

/-!
# When a condition is left out

A statement leaves out the clause of a condition that shows nothing. In a select only a condition
without predicates shows nothing, since each predicate stands in parentheses. The predicates of an
update or a delete are not wrapped: a predicate with an empty literal as its field, a blank operator
and no operand shows nothing, and then the statement may lose its condition
(`Command.hasFilter_iff`).
-/

namespace SqlAssembly

variable {σ τ : Type} {d : Dialect} {owner : Option RecordType}

/-! ### Silent conditions -/

/-- Whether an operand is absent. -/
def Operand.isAbsent : Operand σ → Bool
  | absent => true
  | value _ | literal _ | field _ | subquery _ => false

/-- Whether a field shows nothing. -/
def Field.isSilent (d : Dialect) (owner : Option RecordType) (f : Field) : Bool :=
  match f.sql owner with
  | .ok sql => sql.isBlank d
  | .error _ => false

/-- Whether a predicate shows nothing unless it is wrapped. -/
def Predicate.isSilent (d : Dialect) (owner : Option RecordType) (p : Predicate σ) : Bool :=
  p.field.isSilent d owner && (Text.trim p.operator).isEmpty && p.operand.isAbsent

namespace Node

/-- Whether the node is a predicate. -/
def isLeaf : Node σ → Bool
  | leaf _ _ => true
  | group _ _ => false

mutual

/-- Whether a node shows nothing. -/
def isSilent (d : Dialect) (owner : Option RecordType) (style : ConditionStyle) : Node σ → Bool
  | leaf _ predicate => style = .bare && predicate.isSilent d owner
  | group _ children => isSilentAll d owner style children

/-- Whether siblings show nothing: each of them is silent, and at most one is a predicate, since two
predicates are joined by a connector whatever they show. -/
def isSilentAll (d : Dialect) (owner : Option RecordType) (style : ConditionStyle) :
    List (Node σ) → Bool
  | [] => true
  | n :: ns =>
    isSilent d owner style n && isSilentAll d owner style ns && !(n.isLeaf && ns.any isLeaf)

end

end Node

/-- Whether a condition shows nothing. -/
def Condition.isSilent (d : Dialect) (owner : Option RecordType) (c : Condition σ) : Bool :=
  Node.isSilentAll d owner c.style c.root

/-! ### Silence follows the predicates -/

namespace Node

mutual

/-- Each predicate of a silent node is silent, and stands in a condition that does not wrap it. -/
theorem isSilent_of_mem {style : ConditionStyle} {n : Node σ} (h : n.isSilent d owner style)
    {p : Predicate σ} (hp : p ∈ n.predicates) : style = .bare ∧ p.isSilent d owner := by
  match n with
  | leaf c q =>
    obtain rfl : p = q := by simpa [predicates] using hp
    simpa [isSilent] using h
  | group c ns => exact isSilent_of_memAll (by simpa only [isSilent] using h) hp

theorem isSilent_of_memAll {style : ConditionStyle} {ns : List (Node σ)}
    (h : isSilentAll d owner style ns) {p : Predicate σ} (hp : p ∈ predicatesAll ns) :
    style = .bare ∧ p.isSilent d owner := by
  match ns with
  | [] => simp [predicatesAll] at hp
  | n :: ns =>
    rw [isSilentAll, Bool.and_eq_true, Bool.and_eq_true] at h
    obtain hp | hp := List.mem_append.1 hp
    · exact isSilent_of_mem h.1.1 hp
    · exact isSilent_of_memAll h.1.2 hp

end

mutual

/-- A node without predicates is silent. -/
theorem isSilent_of_predicates_eq_nil (style : ConditionStyle) {n : Node σ}
    (h : n.predicates = []) : n.isSilent d owner style ∧ n.isLeaf = false := by
  match n with
  | leaf c p => simp [predicates] at h
  | group c ns =>
    rw [isSilent]
    exact ⟨(isSilentAll_of_predicates_eq_nil style h).1, rfl⟩

theorem isSilentAll_of_predicates_eq_nil (style : ConditionStyle) {ns : List (Node σ)}
    (h : predicatesAll ns = []) :
    isSilentAll d owner style ns ∧ ns.any isLeaf = false := by
  match ns with
  | [] => simp [isSilentAll]
  | n :: ns =>
    obtain ⟨hn, hns⟩ := List.append_eq_nil_iff.1 h
    obtain ⟨hsilent, hleaf⟩ := isSilent_of_predicates_eq_nil style hn
    obtain ⟨hsilents, hleaves⟩ := isSilentAll_of_predicates_eq_nil style hns
    simp [isSilentAll, hsilent, hleaf, hsilents, hleaves]

end

end Node

namespace Condition

/-- The predicates of a condition that shows nothing show nothing themselves. -/
theorem isSilent_of_mem_calls {style : ConditionStyle} {calls : List (ConditionCall σ)}
    (hcheck : (build style calls).check = .ok ()) (h : (build style calls).isSilent d owner)
    {p : Predicate σ} (hp : p ∈ calls.filterMap ConditionCall.predicate?) :
    p.isSilent d owner := by
  rw [← predicates_build hcheck] at hp
  exact (Node.isSilent_of_memAll h hp).2

/-- Where predicates are wrapped, a condition shows nothing only if no predicate was added. -/
theorem isSilent_parenthesized {calls : List (ConditionCall σ)}
    (hcheck : (build .parenthesized calls).check = .ok ()) :
    (build .parenthesized calls).isSilent d owner
      ↔ calls.filterMap ConditionCall.predicate? = [] := by
  rw [← predicates_build hcheck]
  constructor
  · intro h
    by_contra hne
    obtain ⟨p, hp⟩ := List.exists_mem_of_ne_nil _ hne
    have hstyle := (Node.isSilent_of_memAll h hp).1
    rw [style_build] at hstyle
    cases hstyle
  · exact fun h => (Node.isSilentAll_of_predicates_eq_nil _ h).1

end Condition

/-! ### What a silent condition shows -/

theorem Operand.isNone_render {o : Operand Rendered} {sql : Option Sql}
    (h : o.render owner = .ok sql) : sql.isNone = o.isAbsent := by
  cases o with
  | absent | value v | literal s =>
    cases h
    rfl
  | field f =>
    obtain ⟨_, _, h⟩ := Except.bind_eq_ok.1 h
    cases h
    rfl
  | subquery q =>
    obtain ⟨_, _, h⟩ := Except.bind_eq_ok.1 h
    cases h
    rfl

theorem Predicate.isBlank_render {p : Predicate Rendered} {sql : Sql}
    (h : p.render d owner = .ok sql) : sql.isBlank d = p.isSilent d owner := by
  obtain ⟨_, _, h⟩ := Except.bind_eq_ok.1 h
  obtain ⟨field, hfield, h⟩ := Except.bind_eq_ok.1 h
  obtain ⟨operand, hoperand, h⟩ := Except.bind_eq_ok.1 h
  have hsilent : p.field.isSilent d owner = field.isBlank d := by
    rw [Field.isSilent, hfield]
  have hblank (sql : Sql) : (spaced sql).isBlank d = false := by
    rw [spaced, Sql.isBlank_append, Sql.isBlank_text]
    rfl
  cases h
  rw [isSilent, hsilent, ← Operand.isNone_render hoperand, Sql.isBlank_append, Sql.isBlank_append]
  cases hoperator : (Text.trim p.operator).isEmpty <;> cases operand <;> simp [hblank]

namespace Node

theorem isBlank_joinSiblings_cons (p : Connector × Sql) (ps : List (Connector × Sql)) :
    (joinSiblings (p :: ps)).isBlank d = (p.2.isBlank d && ps.isEmpty) := by
  cases ps with
  | nil => simp [joinSiblings]
  | cons q qs =>
    have hconnector : (" " ++ q.1.keyword ++ " ").isEmpty = false := by
      simp [Sql.isEmpty_append]
    simp [joinSiblings, hconnector]

mutual

/-- A group is left out exactly if it is silent; what is not left out is blank exactly if it is
silent. -/
theorem isBlank_render {style : ConditionStyle} {n : Node Rendered} {sql : Option Sql}
    (h : n.render d owner style = .ok sql) :
    sql.isNone = (n.isSilent d owner style && !n.isLeaf)
      ∧ sql.all (Sql.isBlank d) = n.isSilent d owner style := by
  match n with
  | leaf c p =>
    obtain ⟨inner, hinner, h⟩ := Except.bind_eq_ok.1 (by simpa only [render] using h)
    cases h
    have hinner := Predicate.isBlank_render hinner
    have hempty : "".isEmpty = true := rfl
    cases style <;>
      simp [isSilent, isLeaf, Sql.enclosed, ConditionStyle.predicateMarks, hinner, hempty]
  | group c ns =>
    obtain ⟨parts, hparts, h⟩ := Except.bind_eq_ok.1 (by simpa only [render] using h)
    have hsilent := (isBlank_renderAll hparts).2
    rw [isSilent, ← hsilent]
    cases hblank : (joinSiblings parts).isBlank d with
    | true =>
      rw [if_pos hblank] at h
      cases h
      exact ⟨rfl, rfl⟩
    | false =>
      rw [if_neg (by simp [hblank])] at h
      cases h
      simp [Sql.enclosed, hblank]

theorem isBlank_renderAll {style : ConditionStyle} {ns : List (Node Rendered)}
    {parts : List (Connector × Sql)} (h : renderAll d owner style ns = .ok parts) :
    parts.isEmpty = (isSilentAll d owner style ns && !ns.any isLeaf)
      ∧ (joinSiblings parts).isBlank d = isSilentAll d owner style ns := by
  match ns with
  | [] =>
    cases h
    exact ⟨rfl, rfl⟩
  | n :: ns =>
    obtain ⟨first, hfirst, h⟩ := Except.bind_eq_ok.1 (by simpa only [renderAll] using h)
    obtain ⟨rest, hrest, h⟩ := Except.bind_eq_ok.1 h
    obtain ⟨hnone, hblank⟩ := isBlank_render hfirst
    obtain ⟨hempty, hjoined⟩ := isBlank_renderAll hrest
    cases h
    cases first with
    | none =>
      obtain ⟨hsilent, hleaf⟩ : n.isSilent d owner style = true ∧ n.isLeaf = false := by
        simpa using hnone.symm
      simp [isSilentAll, hsilent, hleaf, hempty, hjoined]
    | some sql =>
      simp only [Option.all_some] at hblank
      rw [isBlank_joinSiblings_cons, hblank, hempty, isSilentAll, List.any_cons]
      cases hleaf : n.isLeaf with
      | true => simp [Bool.and_assoc]
      | false =>
        have hsilent : n.isSilent d owner style = false := by
          simpa [hleaf] using hnone.symm
        simp [hsilent]

end

end Node

/-- A condition has no text exactly if it is silent. -/
theorem Condition.isBlank_render {c : Condition Rendered} {sql : Sql}
    (h : c.render d owner = .ok sql) : sql.isBlank d = c.isSilent d owner := by
  obtain ⟨_, _, h⟩ := Except.bind_eq_ok.1 h
  obtain ⟨parts, hparts, h⟩ := Except.bind_eq_ok.1 h
  cases h
  exact (Node.isBlank_renderAll hparts).2

/-! ### Silence does not depend on the queries -/

section Map

variable (f : σ → τ)

@[simp] theorem Predicate.isSilent_map (p : Predicate σ) :
    (p.map f).isSilent d owner = p.isSilent d owner := by
  obtain ⟨field, operator, operand⟩ := p
  cases operand <;> rfl

namespace Node

@[simp] theorem isLeaf_map (n : Node σ) : (n.map f).isLeaf = n.isLeaf := by
  cases n <;> simp [Node.map, isLeaf]

@[simp] theorem any_isLeaf_mapAll (ns : List (Node σ)) :
    (mapAll f ns).any isLeaf = ns.any isLeaf := by
  induction ns with
  | nil => simp [mapAll]
  | cons n ns ih => simp [mapAll, ih]

mutual

@[simp] theorem isSilent_map (style : ConditionStyle) (n : Node σ) :
    (n.map f).isSilent d owner style = n.isSilent d owner style := by
  match n with
  | leaf c p => simp [Node.map, isSilent]
  | group c ns => simp [Node.map, isSilent, isSilentAll_mapAll style ns]

@[simp] theorem isSilentAll_mapAll (style : ConditionStyle) (ns : List (Node σ)) :
    isSilentAll d owner style (mapAll f ns) = isSilentAll d owner style ns := by
  match ns with
  | [] => simp [mapAll, isSilentAll]
  | n :: ns =>
    simp [mapAll, isSilentAll, isSilent_map style n, isSilentAll_mapAll style ns]

end

end Node

@[simp] theorem Condition.isSilent_map (c : Condition σ) :
    (c.map f).isSilent d owner = c.isSilent d owner :=
  Node.isSilentAll_mapAll f c.style c.root

end Map

/-- A clause is left out exactly if its condition is silent. -/
theorem Condition.renderClause_eq {keyword : String} {f : σ → Rendered} {c : Condition σ}
    {clause : Sql} (h : (c.map f).renderClause keyword d owner = .ok clause) :
    ∃ sql, (c.map f).render d owner = .ok sql ∧ sql.isBlank d = c.isSilent d owner
      ∧ clause = if c.isSilent d owner then [] else Sql.text (keyword ++ " ") ++ sql := by
  obtain ⟨sql, hsql, h⟩ := Except.bind_eq_ok.1 h
  have hblank := isBlank_render hsql
  rw [isSilent_map] at hblank
  rw [hblank] at h
  cases h
  exact ⟨sql, hsql, hblank, rfl⟩

/-! ### Fields that show nothing -/

theorem Identifier.asColumn_eq_raw (owner : Option RecordType) {i : Identifier} {sql : String} :
    i.asColumn owner = .ok (.raw sql, none) ↔ i = .literal sql := by
  cases i with
  | record t => simp [asColumn]
  | aliased base aliasName => simp [asColumn, Except.bind_eq_ok]
  | literal s => simp [asColumn]
  | name s =>
    simp only [asColumn]
    cases checkName .column s with
    | error e => simp
    | ok _ =>
      cases owner with
      | none => simp
      | some r =>
        by_cases hs : s = "*"
        · simp [hs]
        · simp [hs, Except.bind_eq_ok]

theorem Field.asColumn_of_resolve {f : Field} {r : FieldRef} (h : f.resolve owner = .ok r) :
    ∃ o, f.name.asColumn o = .ok (r.name, r.alias?) := by
  obtain ⟨table, name⟩ := f
  cases table with
  | none =>
    obtain ⟨column, hcolumn, h⟩ := Except.bind_eq_ok.1 h
    cases h
    exact ⟨_, hcolumn⟩
  | some table =>
    obtain ⟨q, _, h⟩ := Except.bind_eq_ok.1 h
    obtain ⟨column, hcolumn, h⟩ := Except.bind_eq_ok.1 h
    cases h
    exact ⟨_, hcolumn⟩

theorem ColumnExpr.spell_path_ne_empty (hquote : ∀ s, d.quoteIdentifier s ≠ "")
    (qualifiers : List String) (name : String) : (path qualifiers name).spell d ≠ "" := by
  by_cases hname : name = "*" <;> simp [spell, hname, hquote, String.append_eq_empty_iff]

/-- Where each name is quoted with some text, a field shows nothing only if it is an empty
literal. -/
theorem Field.isSilent_iff (hquote : ∀ s, d.quoteIdentifier s ≠ "") {f : Field} {sql : Sql}
    (hf : f.sql owner = .ok sql) : f.isSilent d owner ↔ f.name = .literal "" := by
  obtain ⟨⟨name, alias?, table, schema⟩, hr, hsql⟩ := Except.bind_eq_ok.1 hf
  obtain ⟨o, hcolumn⟩ := asColumn_of_resolve hr
  rw [isSilent, hf, ← Identifier.asColumn_eq_raw o, hcolumn]
  cases alias? with
  | some aliasName =>
    cases hsql
    simp [aliasSql, Sql.isBlank, Piece.isBlank, Piece.values, Piece.spell]
  | none =>
    cases hsql
    cases name with
    | raw sql =>
      simp [ColumnExpr.ofName, ColumnExpr.spell, Sql.isBlank, Piece.isBlank, Piece.values,
        Piece.spell]
    | name s =>
      have hspell (qualifiers : List String) := ColumnExpr.spell_path_ne_empty hquote qualifiers s
      cases table <;>
        simp [ColumnExpr.ofName, Sql.isBlank, Piece.isBlank, Piece.values, Piece.spell, hspell]

/-! ### Statements that have their condition -/

/-- Whether assembled SQL has the `WHERE` clause of a condition: the keyword, and behind it the text
that the condition has there, which is not empty. -/
def Assembled.HasFilter (d : Dialect) (owner : Option RecordType) (c : Condition Query)
    (a : Assembled) : Prop :=
  ∃ before after bound clause, c.assemble ⟨d, bound⟩ owner = .ok clause ∧ clause.sql ≠ ""
    ∧ a.sql = before ++ "WHERE " ++ clause.sql ++ after ∧ clause.values <+: a.values

theorem Condition.root_ne_nil {c : Condition σ} (h : c.isSilent d owner = false) :
    c.root ≠ [] := by
  intro hroot
  rw [isSilent, hroot] at h
  cases h

namespace Assembled

theorem HasFilter.not_isSilent {c : Condition Query} {a : Assembled}
    (h : a.HasFilter d owner c) : c.isSilent d owner = false := by
  obtain ⟨_, _, bound, clause, hclause, hne, _, _⟩ := h
  rw [Condition.assemble_eq] at hclause
  obtain ⟨sql, hsql, rfl⟩ := Except.map_eq_ok.1 hclause
  have hdefinite := Condition.isDefinite_render hsql bound.length
  rw [Condition.isBlank_render hsql, Condition.isSilent_map] at hdefinite
  rw [← hdefinite]
  simpa using hne

/-- SQL that holds the clause of a condition has the condition, unless this is silent. -/
theorem hasFilter_of_renderClause (lead : String) {c : Condition Query}
    {before clause after : Sql}
    (hclause : (c.map (Query.render d)).renderClause (lead ++ "WHERE") d owner = .ok clause)
    (hc : c.isSilent d owner = false) :
    HasFilter d owner c
      ⟨d.spell (before ++ clause ++ after), Sql.values (before ++ clause ++ after)⟩ := by
  obtain ⟨sql, hsql, hblank, rfl⟩ := Condition.renderClause_eq hclause
  rw [hc] at hblank ⊢
  have hdefinite := Condition.isDefinite_render hsql before.values.length
  refine ⟨d.spell before ++ lead, after.spell d (before.values ++ sql.values).length,
    before.values, ⟨sql.spell d before.values.length, before.values ++ sql.values⟩, ?_, ?_, ?_, ?_⟩
  · rw [Condition.assemble_eq, hsql]
    rfl
  · simpa [hblank] using hdefinite
  · simp [Dialect.spell, String.append_assoc]
  · simp

end Assembled

/-! ### Selects -/

/-- The part that stands at a place among others. -/
theorem Sql.join_append_cons (separator : String) (parts : List Sql) (p : Sql) (rest : List Sql) :
    ∃ before after, join separator (parts ++ p :: rest) = before ++ p ++ after := by
  induction parts with
  | nil =>
    cases rest with
    | nil => exact ⟨[], [], by simp [join]⟩
    | cons q qs =>
      exact ⟨[], text separator ++ join separator (q :: qs),
        by simp [join, List.intercalate_cons_cons]⟩
  | cons q qs ih =>
    obtain ⟨before, after, h⟩ := ih
    refine ⟨q ++ text separator ++ before, after, ?_⟩
    cases hqs : qs ++ p :: rest with
    | nil => simp at hqs
    | cons r rs =>
      rw [hqs] at h
      rw [List.cons_append, hqs, join, List.intercalate_cons_cons, ← join, h]
      simp

namespace Select

theorem render_of_assemble {s : Select Query} {a : Assembled}
    (ha : (Command.select s).assemble = .ok a) :
    ∃ sql, (s.map (Query.render s.dialect)).render s.dialect = .ok sql
      ∧ a = ⟨s.dialect.spell sql, sql.values⟩ :=
  (assemble_eq_ok rfl).1 ha

theorem check_of_assemble {s : Select Query} {a : Assembled}
    (ha : (Command.select s).assemble = .ok a) : s.check = .ok () := by
  obtain ⟨sql, hsql, _⟩ := render_of_assemble ha
  have hcheck := (render_eq_ok.1 hsql).1
  rwa [check_map] at hcheck

/-- A select that assembles has its condition, unless this is silent. -/
theorem hasFilter_of_assemble {s : Select Query} {a : Assembled}
    (ha : (Command.select s).assemble = .ok a)
    (hc : s.filter.isSilent s.dialect s.target = false) :
    a.HasFilter s.dialect s.target s.filter := by
  have hcheck := check_of_assemble ha
  obtain ⟨sql, hsql, rfl⟩ := render_of_assemble ha
  have hclause : s.hasSourceClause = true := by
    simp [hasSourceClause, Condition.isEmpty, Condition.root_ne_nil hc]
  have hitems : (s.map (Query.render s.dialect)).items.isEmpty = false := by
    simpa [map] using items_ne_nil hcheck hclause
  obtain ⟨_, hsql⟩ := render_eq_ok.1 hsql
  rw [hitems, if_neg Bool.false_ne_true] at hsql
  obtain ⟨head, clauses, tail, members, _, hclauses, _, _, rfl⟩ := hsql
  obtain ⟨filter, hfilter, hclauses⟩ := Except.bind_eq_ok.1 hclauses
  obtain ⟨groupBy, _, hclauses⟩ := Except.bind_eq_ok.1 hclauses
  obtain ⟨having, _, hclauses⟩ := Except.bind_eq_ok.1 hclauses
  cases hclauses
  rw [target_map] at hfilter
  have hpresent : present (head ++ [filter, groupBy, having] ++ tail) ++ members
      = present head ++ filter :: (present (groupBy :: having :: tail) ++ members) := by
    have hne : filter ≠ [] := by
      obtain ⟨sql, _, _, heq⟩ := Condition.renderClause_eq hfilter
      rw [heq, hc]
      simp [Sql.text]
    simp [present, List.filter_cons, hne]
  obtain ⟨before, after, hjoin⟩ := Sql.join_append_cons " " (present head) filter
    (present (groupBy :: having :: tail) ++ members)
  rw [hpresent, hjoin]
  exact Assembled.hasFilter_of_renderClause "" hfilter hc

end Select

/-! ### Updates and deletes -/

theorem Update.hasFilter_of_assemble {s : Update Query} {a : Assembled}
    (ha : (Command.update s).assemble = .ok a)
    (hc : s.filter.isSilent s.dialect (s.target.bind Source.recordType?) = false) :
    a.HasFilter s.dialect (s.target.bind Source.recordType?) s.filter := by
  rw [Command.assemble_eq] at ha
  obtain ⟨sql, hsql, rfl⟩ := Except.map_eq_ok.1 ha
  obtain ⟨_, _, source, target, m, assignments, filter, returning, htarget, _, _, _, hfilter, _,
    rfl⟩ := render_eq_ok.1 hsql
  obtain ⟨source, hsource, rfl⟩ := Option.map_eq_some_iff.1 htarget
  rw [hsource] at hc ⊢
  rw [Source.recordType?_map] at hfilter
  exact Assembled.hasFilter_of_renderClause " " hfilter hc

theorem Delete.hasFilter_of_assemble {s : Delete Query} {a : Assembled}
    (ha : (Command.delete s).assemble = .ok a)
    (hc : s.filter.isSilent s.dialect (s.target.bind Source.recordType?) = false) :
    a.HasFilter s.dialect (s.target.bind Source.recordType?) s.filter := by
  rw [Command.assemble_eq] at ha
  obtain ⟨sql, hsql, rfl⟩ := Except.map_eq_ok.1 ha
  obtain ⟨_, source, target, filter, returning, htarget, _, hfilter, _, rfl⟩ :=
    render_eq_ok.1 hsql
  obtain ⟨source, hsource, rfl⟩ := Option.map_eq_some_iff.1 htarget
  rw [hsource] at hc ⊢
  rw [Source.recordType?_map] at hfilter
  exact Assembled.hasFilter_of_renderClause " " hfilter hc

/-! ### Statements that lose their condition -/

theorem Condition.renderClause_of_isSilent {keyword : String} {f : σ → Rendered}
    {c : Condition σ} {clause : Sql} (h : (c.map f).renderClause keyword d owner = .ok clause)
    (hc : c.isSilent d owner) : clause = [] := by
  obtain ⟨_, _, _, rfl⟩ := renderClause_eq h
  exact if_pos hc

/-- An update whose condition is silent is assembled as if it had none. -/
theorem Update.assemble_of_isSilent {s : Update Query} {a : Assembled}
    (ha : (Command.update s).assemble = .ok a)
    (hc : s.filter.isSilent s.dialect (s.target.bind Source.recordType?)) :
    (Command.update { s with filter := { style := .bare } }).assemble = .ok a := by
  rw [Command.assemble_eq] at ha ⊢
  obtain ⟨sql, hsql, rfl⟩ := Except.map_eq_ok.1 ha
  obtain ⟨hdeferred, _, source, target, m, assignments, filter, returning, htarget, hasTarget, hm,
    hassignments, hfilter, hreturning, rfl⟩ := render_eq_ok.1 hsql
  obtain ⟨source, hsource, rfl⟩ := Option.map_eq_some_iff.1 htarget
  rw [hsource] at hc
  obtain rfl : filter = [] := by
    rw [Source.recordType?_map] at hfilter
    exact Condition.renderClause_of_isSilent hfilter hc
  exact Except.map_eq_ok.2 ⟨_, render_eq_ok.2 ⟨hdeferred, rfl, _, target, m, assignments, [],
    returning, htarget, hasTarget, hm, hassignments, rfl, hreturning, rfl⟩, rfl⟩

/-- A delete whose condition is silent is assembled as if it had none. -/
theorem Delete.assemble_of_isSilent {s : Delete Query} {a : Assembled}
    (ha : (Command.delete s).assemble = .ok a)
    (hc : s.filter.isSilent s.dialect (s.target.bind Source.recordType?)) :
    (Command.delete { s with filter := { style := .bare } }).assemble = .ok a := by
  rw [Command.assemble_eq] at ha ⊢
  obtain ⟨sql, hsql, rfl⟩ := Except.map_eq_ok.1 ha
  obtain ⟨_, source, target, filter, returning, htarget, hasTarget, hfilter, hreturning, rfl⟩ :=
    render_eq_ok.1 hsql
  obtain ⟨source, hsource, rfl⟩ := Option.map_eq_some_iff.1 htarget
  rw [hsource] at hc
  obtain rfl : filter = [] := by
    rw [Source.recordType?_map] at hfilter
    exact Condition.renderClause_of_isSilent hfilter hc
  exact Except.map_eq_ok.2 ⟨_, render_eq_ok.2 ⟨rfl, _, target, [], returning, htarget, hasTarget,
    rfl, hreturning, rfl⟩, rfl⟩

/-! ### Commands -/

theorem Operand.isAbsent_iff {o : Operand σ} : o.isAbsent ↔ o = .absent := by
  cases o <;> simp [isAbsent]

/-- A select that assembles has its condition if any predicate was added to it. An update or a
delete has its condition unless this is silent, and then it is assembled as if it had none. A
condition is silent only if all its predicates are: where each name is quoted with some text, these
are the empty literals with a blank operator and no operand. -/
theorem Command.hasFilter_iff (d : Dialect) :
    (∀ (calls : List (SelectCall Query)) (a : Assembled),
      let s := Select.build d calls
      (Command.select s).assemble = .ok a →
        (a.HasFilter s.dialect s.target s.filter
          ↔ (calls.filterMap SelectCall.filterCall?).filterMap ConditionCall.predicate? ≠ []))
    ∧ (∀ (calls : List (UpdateCall Query)) (a : Assembled),
      let s := Update.build d calls
      let owner := s.target.bind Source.recordType?
      (Command.update s).assemble = .ok a →
        (a.HasFilter s.dialect owner s.filter ↔ ¬ s.filter.isSilent s.dialect owner)
        ∧ (s.filter.isSilent s.dialect owner →
            (Command.update { s with filter := { style := .bare } }).assemble = .ok a))
    ∧ (∀ (calls : List (DeleteCall Query)) (a : Assembled),
      let s := Delete.build d calls
      let owner := s.target.bind Source.recordType?
      (Command.delete s).assemble = .ok a →
        (a.HasFilter s.dialect owner s.filter ↔ ¬ s.filter.isSilent s.dialect owner)
        ∧ (s.filter.isSilent s.dialect owner →
            (Command.delete { s with filter := { style := .bare } }).assemble = .ok a))
    ∧ (∀ (owner : Option RecordType) (calls : List (ConditionCall Query)),
      (Condition.build .bare calls).check = .ok () →
        (Condition.build .bare calls).isSilent d owner →
          ∀ p ∈ calls.filterMap ConditionCall.predicate?, p.isSilent d owner)
    ∧ ((∀ s, d.quoteIdentifier s ≠ "") →
      ∀ (owner : Option RecordType) (p : Predicate Query) (sql : Sql),
        p.field.sql owner = .ok sql →
          (p.isSilent d owner ↔ p.field.name = .literal "" ∧ Text.trim p.operator = ""
            ∧ p.operand = .absent)) := by
  refine ⟨?_, ?_, ?_, ?_, ?_⟩
  · intro calls a s ha
    have hcheck := (Select.checks_of_check (Select.check_of_assemble ha)).1
    have hsilent : s.filter.isSilent s.dialect s.target
        ↔ (calls.filterMap SelectCall.filterCall?).filterMap ConditionCall.predicate? = [] := by
      rw [Select.filter_build] at hcheck ⊢
      exact Condition.isSilent_parenthesized hcheck
    rw [ne_eq, ← hsilent, Bool.not_eq_true]
    exact ⟨Assembled.HasFilter.not_isSilent, Select.hasFilter_of_assemble ha⟩
  · intro calls a s owner ha
    rw [Bool.not_eq_true]
    exact ⟨⟨Assembled.HasFilter.not_isSilent, Update.hasFilter_of_assemble ha⟩,
      Update.assemble_of_isSilent ha⟩
  · intro calls a s owner ha
    rw [Bool.not_eq_true]
    exact ⟨⟨Assembled.HasFilter.not_isSilent, Delete.hasFilter_of_assemble ha⟩,
      Delete.assemble_of_isSilent ha⟩
  · intro owner calls hcheck h p hp
    exact Condition.isSilent_of_mem_calls hcheck h hp
  · intro hquote owner p sql hsql
    rw [← Field.isSilent_iff hquote hsql, ← Operand.isAbsent_iff, ← String.isEmpty_iff]
    simp [Predicate.isSilent, and_assoc]

/-- A call that adds an empty literal as a predicate, with neither an operator nor an operand. -/
def ConditionCall.silent : ConditionCall Query := .add .and { name := .literal "" } "" .absent

def Select.silentCalls : List (SelectCall Query) :=
  [.source (.table (.name "t") none) .all, .filter .silent]

def Update.silentCalls : List (UpdateCall Query) :=
  [.target (.table (.name "t") none), .assign [⟨"a", .value (.int 1)⟩], .filter .silent]

def Delete.silentCalls : List (DeleteCall Query) :=
  [.target (.table (.name "t") none), .filter .silent]

/-- A delete that was given a predicate deletes every row. -/
theorem Delete.not_hasFilter_silentCalls :
    (Command.delete (.build .generic silentCalls)).assemble = .ok ⟨"DELETE FROM \"t\"", []⟩
    ∧ (silentCalls.filterMap DeleteCall.filterCall?).filterMap ConditionCall.predicate? ≠ []
    ∧ ∀ owner, ¬ Assembled.HasFilter .generic owner (Delete.build .generic silentCalls).filter
        ⟨"DELETE FROM \"t\"", []⟩ := by
  refine ⟨rfl, List.cons_ne_nil _ _, fun owner h => ?_⟩
  have hsilent : (Delete.build .generic silentCalls).filter.isSilent .generic owner = true := by
    cases owner <;> rfl
  rw [h.not_isSilent] at hsilent
  cases hsilent

/-- With such a predicate a select has its condition; an update and a delete have not, and are
assembled as without it. -/
theorem Command.hasFilter_iff_silentCalls :
    Assembled.HasFilter .generic none (Select.build .generic Select.silentCalls).filter
      ⟨"SELECT \"t\".* FROM \"t\" WHERE ()", []⟩
    ∧ (Command.update { Update.build .generic Update.silentCalls with
        filter := { style := .bare } }).assemble = .ok ⟨"UPDATE \"t\" SET \"a\"=?", [.int 1]⟩
    ∧ (Command.delete { Delete.build .generic Delete.silentCalls with
        filter := { style := .bare } }).assemble = .ok ⟨"DELETE FROM \"t\"", []⟩
    ∧ ∀ p ∈ [ConditionCall.silent].filterMap ConditionCall.predicate?,
        p.isSilent .generic none ∧ p.field.name = .literal "" ∧ Text.trim p.operator = ""
          ∧ p.operand = .absent := by
  obtain ⟨hselect, hupdate, hdelete, hsilent, hpredicate⟩ := Command.hasFilter_iff .generic
  have hquote (s : String) : Dialect.generic.quoteIdentifier s ≠ "" := by
    simp [Dialect.generic, doubleQuoted]
  refine ⟨?_, ?_, ?_, ?_⟩
  · exact (hselect Select.silentCalls ⟨"SELECT \"t\".* FROM \"t\" WHERE ()", []⟩ rfl).2
      (List.cons_ne_nil _ _)
  · exact (hupdate Update.silentCalls ⟨"UPDATE \"t\" SET \"a\"=?", [.int 1]⟩ rfl).2 rfl
  · exact (hdelete Delete.silentCalls ⟨"DELETE FROM \"t\"", []⟩ rfl).2 rfl
  · intro p hp
    have h := hsilent none [.silent] rfl rfl p hp
    obtain rfl : p = ⟨{ name := .literal "" }, "", .absent⟩ := List.mem_singleton.1 hp
    exact ⟨h, (hpredicate hquote none _ _ rfl).1 h⟩

end SqlAssembly
