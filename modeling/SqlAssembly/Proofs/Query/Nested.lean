import SqlAssembly.Proofs.Query.Fold
import SqlAssembly.Statement

/-!
# The queries in a statement

Changing the queries of a statement changes the list of its queries in the same way, and what is
changed alike on this list is changed alike in the statement. So what is known of the queries that a
statement has is enough, and nothing needs to be known of other queries.
-/

namespace SqlAssembly

variable {σ τ : Type}

/-! ### Lists of queries -/

/-- The queries in a row. -/
def Row.queries : Row σ → List σ
  | positional operands => operands.flatMap Operand.queries
  | named assignments => assignments.flatMap fun a => a.operand.queries

/-- The queries in an insert. -/
def Insert.queries (s : Insert σ) : List σ :=
  s.target.toList.flatMap Source.queries ++ s.rows.flatMap Row.queries

/-- The queries in an update. -/
def Update.queries (s : Update σ) : List σ :=
  s.target.toList.flatMap Source.queries
    ++ s.positional.toList.flatMap (fun operands => operands.flatMap Operand.queries)
    ++ s.assignments.flatMap (fun a => a.operand.queries) ++ s.filter.queries

/-- The queries in a delete. -/
def Delete.queries (s : Delete σ) : List σ :=
  s.target.toList.flatMap Source.queries ++ s.filter.queries

/-- The queries in a statement; a select is one itself. -/
def Statement.queries : Statement → List Query
  | select s => [.of s]
  | insert s => s.queries
  | update s => s.queries
  | delete s => s.queries
  | literal _ => []

/-! ### Changing the queries -/

section Map

variable (f : σ → τ)

theorem Operand.queries_map (o : Operand σ) : (o.map f).queries = o.queries.map f := by
  cases o <;> rfl

mutual

theorem Node.queries_map (n : Node σ) : (n.map f).queries = n.queries.map f := by
  match n with
  | .leaf c p => exact Operand.queries_map f p.operand
  | .group c ns => exact Node.queriesAll_map ns

theorem Node.queriesAll_map (ns : List (Node σ)) :
    Node.queriesAll (Node.mapAll f ns) = (Node.queriesAll ns).map f := by
  match ns with
  | [] => rfl
  | n :: ns =>
    rw [Node.mapAll, Node.queriesAll, Node.queries_map n, Node.queriesAll_map ns, Node.queriesAll,
      List.map_append]

end

theorem Condition.queries_map (c : Condition σ) : (c.map f).queries = c.queries.map f := by
  simp only [queries, map, Node.queriesAll_map, List.map_append, List.flatMap_map, List.map_flatMap,
    OpenGroup.map]

theorem Source.queries_map (s : Source σ) : (s.map f).queries = s.queries.map f := by
  cases s <;> rfl

theorem SourceItem.queries_map (i : SourceItem σ) : (i.map f).queries = i.queries.map f := by
  cases i with
  | plain s cs | lateral s cs => exact Source.queries_map f s
  | expressions cs => rfl

theorem UnionMember.queries_map (m : UnionMember σ) : (m.map f).queries = m.queries.map f := by
  cases m <;> rfl

/-- Changing the queries of a select changes the list of its queries. -/
theorem Select.queries_map (s : Select σ) : (s.map f).queries = s.queries.map f := by
  simp only [queries, map, Condition.queries_map, List.map_append, List.flatMap_map,
    List.map_flatMap, SourceItem.queries_map, Join.map, Source.queries_map, UnionPart.map,
    UnionMember.queries_map]

end Map

/-! ### Changing the queries in the same way -/

section MapCongr

variable {f g : σ → τ}

theorem Row.map_congr {r : Row σ} (h : ∀ q ∈ r.queries, f q = g q) : r.map f = r.map g := by
  cases r with
  | positional operands =>
    refine congrArg positional (List.map_congr_left fun o ho => ?_)
    exact Operand.map_congr fun q hq => h q (List.mem_flatMap.2 ⟨o, ho, hq⟩)
  | named assignments =>
    refine congrArg named (List.map_congr_left fun a ha => ?_)
    refine congrArg (Assignment.mk a.name) ?_
    exact Operand.map_congr fun q hq => h q (List.mem_flatMap.2 ⟨a, ha, hq⟩)

theorem Source.map_congr_target {target : Option (Source σ)}
    (h : ∀ q ∈ target.toList.flatMap Source.queries, f q = g q) :
    target.map (Source.map f) = target.map (Source.map g) := by
  cases target with
  | none => rfl
  | some s => exact congrArg some (Source.map_congr (by simpa using h))

theorem Insert.map_congr {s : Insert σ} (h : ∀ q ∈ s.queries, f q = g q) : s.map f = s.map g := by
  obtain ⟨htarget, hrows⟩ := List.forall_mem_append.1 h
  have hrows : s.rows.map (Row.map f) = s.rows.map (Row.map g) :=
    List.map_congr_left fun r hr => Row.map_congr fun q hq =>
      hrows q (List.mem_flatMap.2 ⟨r, hr, hq⟩)
  simp [map, Source.map_congr_target htarget, hrows]

theorem Update.map_congr {s : Update σ} (h : ∀ q ∈ s.queries, f q = g q) : s.map f = s.map g := by
  simp only [queries, List.forall_mem_append] at h
  obtain ⟨⟨⟨htarget, hpositional⟩, hassignments⟩, hfilter⟩ := h
  have hpositional : s.positional.map (List.map (Operand.map f))
      = s.positional.map (List.map (Operand.map g)) := by
    refine Option.map_congr fun operands hoperands => List.map_congr_left fun o ho => ?_
    exact Operand.map_congr fun q hq => hpositional q (List.mem_flatMap.2
      ⟨operands, by simpa using hoperands, List.mem_flatMap.2 ⟨o, ho, hq⟩⟩)
  have hassignments : s.assignments.map (Assignment.map f)
      = s.assignments.map (Assignment.map g) := by
    refine List.map_congr_left fun a ha => congrArg (Assignment.mk a.name) ?_
    exact Operand.map_congr fun q hq => hassignments q (List.mem_flatMap.2 ⟨a, ha, hq⟩)
  simp [map, Source.map_congr_target htarget, hpositional, hassignments,
    Condition.map_congr hfilter]

theorem Delete.map_congr {s : Delete σ} (h : ∀ q ∈ s.queries, f q = g q) : s.map f = s.map g := by
  obtain ⟨htarget, hfilter⟩ := List.forall_mem_append.1 h
  simp [map, Source.map_congr_target htarget, Condition.map_congr hfilter]

end MapCongr

end SqlAssembly
