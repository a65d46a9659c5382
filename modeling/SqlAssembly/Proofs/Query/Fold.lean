import SqlAssembly.Query

/-!
# Folds over queries

A query is finite: what holds of a query whenever it holds of the queries inside it holds of every
query (`Query.induction`). Two folds whose steps are related give related results (`fold_rel`), and
a function that carries one step over to another carries one fold over to the other
(`fold_fusion`). What is proved of rendering or writing a statement at any depth is proved of one
select and passes through these.
-/

namespace SqlAssembly

variable {σ τ υ : Type}

/-! ### Changing the queries twice -/

section MapMap

variable (f : σ → τ) (g : τ → υ)

@[simp] theorem Operand.map_map (o : Operand σ) : (o.map f).map g = o.map (g ∘ f) := by
  cases o <;> rfl

@[simp] theorem Predicate.map_map (p : Predicate σ) : (p.map f).map g = p.map (g ∘ f) := by
  cases p
  simp [Predicate.map]

mutual

@[simp] theorem Node.map_map (n : Node σ) : (n.map f).map g = n.map (g ∘ f) := by
  match n with
  | .leaf c p => simp [Node.map]
  | .group c ns => simp [Node.map, Node.mapAll_mapAll ns]

@[simp] theorem Node.mapAll_mapAll (ns : List (Node σ)) :
    Node.mapAll g (Node.mapAll f ns) = Node.mapAll (g ∘ f) ns := by
  match ns with
  | [] => rfl
  | n :: ns => simp [Node.mapAll, Node.map_map n, Node.mapAll_mapAll ns]

end

@[simp] theorem Condition.map_map (c : Condition σ) : (c.map f).map g = c.map (g ∘ f) := by
  simp [Condition.map, OpenGroup.map]

@[simp] theorem Source.map_map (s : Source σ) : (s.map f).map g = s.map (g ∘ f) := by
  cases s <;> rfl

@[simp] theorem SourceItem.map_map (i : SourceItem σ) : (i.map f).map g = i.map (g ∘ f) := by
  cases i <;> simp [SourceItem.map]

@[simp] theorem Join.map_map (j : Join σ) : (j.map f).map g = j.map (g ∘ f) := by
  simp [Join.map]

@[simp] theorem UnionMember.map_map (m : UnionMember σ) : (m.map f).map g = m.map (g ∘ f) := by
  cases m <;> rfl

@[simp] theorem UnionPart.map_map (u : UnionPart σ) : (u.map f).map g = u.map (g ∘ f) := by
  simp [UnionPart.map]

@[simp] theorem Select.map_map (s : Select σ) : (s.map f).map g = s.map (g ∘ f) := by
  simp [Select.map]

end MapMap

/-! ### Changing the queries in the same way -/

section MapCongr

variable {f g : σ → τ}

theorem Operand.map_congr {o : Operand σ} (h : ∀ q ∈ o.queries, f q = g q) :
    o.map f = o.map g := by
  cases o with
  | subquery q => simp [Operand.map, h q (by simp [Operand.queries])]
  | _ => rfl

theorem Predicate.map_congr {p : Predicate σ} (h : ∀ q ∈ p.operand.queries, f q = g q) :
    p.map f = p.map g := by
  simp [Predicate.map, Operand.map_congr h]

mutual

theorem Node.map_congr {n : Node σ} (h : ∀ q ∈ n.queries, f q = g q) : n.map f = n.map g := by
  match n with
  | .leaf c p => simp [Node.map, Predicate.map_congr (by simpa [Node.queries] using h)]
  | .group c ns =>
    have hns : ∀ q ∈ Node.queriesAll ns, f q = g q := by simpa [Node.queries] using h
    simp [Node.map, Node.mapAll_congr hns]

theorem Node.mapAll_congr {ns : List (Node σ)} (h : ∀ q ∈ Node.queriesAll ns, f q = g q) :
    Node.mapAll f ns = Node.mapAll g ns := by
  match ns with
  | [] => rfl
  | n :: ns =>
    have hn : ∀ q ∈ n.queries, f q = g q := fun q hq => h q (by simp [Node.queriesAll, hq])
    have hns : ∀ q ∈ Node.queriesAll ns, f q = g q :=
      fun q hq => h q (by simp [Node.queriesAll, hq])
    simp [Node.mapAll, Node.map_congr hn, Node.mapAll_congr hns]

end

theorem Condition.map_congr {c : Condition σ} (h : ∀ q ∈ c.queries, f q = g q) :
    c.map f = c.map g := by
  have hroot : Node.mapAll f c.root = Node.mapAll g c.root :=
    Node.mapAll_congr fun q hq => h q (by simp [Condition.queries, hq])
  have hopened : c.opened.map (OpenGroup.map f) = c.opened.map (OpenGroup.map g) := by
    refine List.map_congr_left fun o ho => ?_
    have ho : Node.mapAll f o.children = Node.mapAll g o.children :=
      Node.mapAll_congr fun q hq =>
        h q (List.mem_append_right _ (List.mem_flatMap.2 ⟨o, ho, hq⟩))
    simp [OpenGroup.map, ho]
  simp [Condition.map, hroot, hopened]

theorem Source.map_congr {s : Source σ} (h : ∀ q ∈ s.queries, f q = g q) : s.map f = s.map g := by
  cases s with
  | table name schema => rfl
  | subquery q alias? => simp [Source.map, h q (by simp [Source.queries])]

theorem SourceItem.map_congr {i : SourceItem σ} (h : ∀ q ∈ i.queries, f q = g q) :
    i.map f = i.map g := by
  cases i with
  | plain s cs => simp [SourceItem.map, Source.map_congr h]
  | lateral s cs => simp [SourceItem.map, Source.map_congr h]
  | expressions cs => rfl

theorem UnionMember.map_congr {m : UnionMember σ} (h : ∀ q ∈ m.queries, f q = g q) :
    m.map f = m.map g := by
  cases m with
  | query q => simp [UnionMember.map, h q (by simp [UnionMember.queries])]
  | _ => rfl

/-- Two functions that agree on the queries in a select change it in the same way. -/
theorem Select.map_congr {s : Select σ} (h : ∀ q ∈ s.queries, f q = g q) : s.map f = s.map g := by
  simp only [Select.queries, List.mem_append] at h
  have hitems : s.items.map (SourceItem.map f) = s.items.map (SourceItem.map g) :=
    List.map_congr_left fun i hi => SourceItem.map_congr fun q hq =>
      h q (.inl (.inl (.inl (.inl (List.mem_flatMap.2 ⟨i, hi, hq⟩)))))
  have hjoins : s.joins.map (Join.map f) = s.joins.map (Join.map g) := by
    refine List.map_congr_left fun j hj => ?_
    have hj : j.source.map f = j.source.map g := Source.map_congr fun q hq =>
      h q (.inl (.inl (.inl (.inr (List.mem_flatMap.2 ⟨j, hj, hq⟩)))))
    simp [Join.map, hj]
  have hfilter : s.filter.map f = s.filter.map g :=
    Condition.map_congr fun q hq => h q (.inl (.inl (.inr hq)))
  have hhaving : s.having.map f = s.having.map g :=
    Condition.map_congr fun q hq => h q (.inl (.inr hq))
  have hunions : s.unions.map (UnionPart.map f) = s.unions.map (UnionPart.map g) := by
    refine List.map_congr_left fun u hu => ?_
    have hu : u.member.map f = u.member.map g := UnionMember.map_congr fun q hq =>
      h q (.inr (List.mem_flatMap.2 ⟨u, hu, hq⟩))
    simp [UnionPart.map, hu]
  simp [Select.map, hitems, hjoins, hfilter, hhaving, hunions]

end MapCongr

/-! ### Induction -/

section Size

variable [SizeOf σ] {q : σ}

theorem Operand.sizeOf_lt {o : Operand σ} (h : q ∈ o.queries) : sizeOf q < sizeOf o := by
  cases o <;> simp_all [Operand.queries]

mutual

theorem Node.sizeOf_lt {n : Node σ} (h : q ∈ n.queries) : sizeOf q < sizeOf n := by
  match n with
  | .leaf c p =>
    have := Operand.sizeOf_lt (o := p.operand) (by simpa [Node.queries] using h)
    cases p
    simp only [Node.leaf.sizeOf_spec, Predicate.mk.sizeOf_spec] at this ⊢
    omega
  | .group c ns =>
    have hns : q ∈ Node.queriesAll ns := by simpa [Node.queries] using h
    have := Node.sizeOf_lt_all hns
    simp only [Node.group.sizeOf_spec]
    omega

theorem Node.sizeOf_lt_all {ns : List (Node σ)} (h : q ∈ Node.queriesAll ns) :
    sizeOf q < sizeOf ns := by
  match ns with
  | [] => simp [Node.queriesAll] at h
  | n :: ns =>
    simp only [Node.queriesAll, List.mem_append] at h
    simp only [List.cons.sizeOf_spec]
    rcases h with h | h
    · have := Node.sizeOf_lt h
      omega
    · have := Node.sizeOf_lt_all h
      omega

end

theorem Condition.sizeOf_lt {c : Condition σ} (h : q ∈ c.queries) : sizeOf q < sizeOf c := by
  obtain ⟨style, root, opened, unopened⟩ := c
  simp only [Condition.queries, List.mem_append, List.mem_flatMap] at h
  simp only [Condition.mk.sizeOf_spec]
  rcases h with h | ⟨o, ho, h⟩
  · have := Node.sizeOf_lt_all h
    omega
  · obtain ⟨connector, children⟩ := o
    have hq := Node.sizeOf_lt_all h
    have ho := List.sizeOf_lt_of_mem ho
    simp only [OpenGroup.mk.sizeOf_spec] at hq ho
    omega

theorem Source.sizeOf_lt {s : Source σ} (h : q ∈ s.queries) : sizeOf q < sizeOf s := by
  cases s <;> simp_all [Source.queries]
  omega

theorem SourceItem.sizeOf_lt {i : SourceItem σ} (h : q ∈ i.queries) : sizeOf q < sizeOf i := by
  cases i with
  | plain s cs | lateral s cs =>
    have := Source.sizeOf_lt (s := s) h
    simp
    omega
  | expressions cs => simp [SourceItem.queries] at h

theorem Select.sizeOf_lt {s : Select σ} (h : q ∈ s.queries) : sizeOf q < sizeOf s := by
  cases s
  simp only [Select.queries, List.mem_append, List.mem_flatMap] at h
  simp only [Select.mk.sizeOf_spec]
  rcases h with (((⟨i, hi, h⟩ | ⟨j, hj, h⟩) | h) | h) | ⟨u, hu, h⟩
  · have := SourceItem.sizeOf_lt h
    have := List.sizeOf_lt_of_mem hi
    omega
  · have := Source.sizeOf_lt h
    have := List.sizeOf_lt_of_mem hj
    cases j
    simp only [Join.mk.sizeOf_spec] at *
    omega
  · have := Condition.sizeOf_lt h
    omega
  · have := Condition.sizeOf_lt h
    omega
  · have hu := List.sizeOf_lt_of_mem hu
    obtain ⟨m, kind⟩ := u
    cases m <;> simp_all [UnionMember.queries]
    omega

end Size

namespace Query

/-- What holds of a query whenever it holds of the queries inside it holds of every query. -/
theorem induction {P : Query → Prop} (step : ∀ s, (∀ q ∈ s.queries, P q) → P (.of s)) (q : Query) :
    P q := by
  match q with
  | .of s => exact step s fun q hq => induction step q
termination_by sizeOf q
decreasing_by
  have := Select.sizeOf_lt hq
  simp only [Query.of.sizeOf_spec]
  omega

/-- A function that carries the step of one fold over to that of another carries the fold. -/
theorem fold_fusion {f : Select σ → σ} {g : Select τ → τ} (h : σ → τ)
    (step : ∀ s, h (f s) = g (s.map h)) (q : Query) : h (fold f q) = fold g q := by
  induction q using Query.induction with
  | step s ih =>
    rw [fold_of, fold_of, step, Select.map_map]
    exact congrArg g (Select.map_congr ih)

/-- Folds with related steps have related results. -/
theorem fold_rel {f : Select σ → σ} {g : Select τ → τ} (R : σ → τ → Prop)
    (step : ∀ s : Select { p : σ × τ // R p.1 p.2 },
      R (f (s.map fun p => p.1.1)) (g (s.map fun p => p.1.2)))
    (q : Query) : R (fold f q) (fold g q) := by
  let both (s : Select { p : σ × τ // R p.1 p.2 }) : { p : σ × τ // R p.1 p.2 } := ⟨(_, _), step s⟩
  have hf : (fold both q).1.1 = fold f q :=
    fold_fusion (fun p : { p : σ × τ // R p.1 p.2 } => p.1.1) (fun _ => rfl) q
  have hg : (fold both q).1.2 = fold g q :=
    fold_fusion (fun p : { p : σ × τ // R p.1 p.2 } => p.1.2) (fun _ => rfl) q
  rw [← hf, ← hg]
  exact (fold both q).2

end Query

end SqlAssembly
