import SqlAssembly.Proofs.Building
import SqlAssembly.Proofs.Renaming.Names

/-!
# Renaming conditions

The SQL of a condition on plain names and bound values is renamed with the condition. Which of its
groups are left out does not change, as renamed SQL shows something exactly if the SQL did.
-/

namespace SqlAssembly

variable {r : Renaming} {σ τ : Type}

/-! ### Operands and predicates -/

namespace Operand

def rename (r : Renaming) : Operand σ → Operand σ
  | field f => field (f.rename r)
  | o => o

/-- Whether the operand is a bound value, a plain name, or absent. -/
def isPlain : Operand σ → Bool
  | absent | value _ => true
  | field f => f.isPlain
  | literal _ | subquery _ => false

@[simp] theorem rename_map (f : σ → τ) (o : Operand σ) :
    (o.map f).rename r = (o.rename r).map f := by
  cases o <;> rfl

@[simp] theorem isPlain_map (f : σ → τ) (o : Operand σ) : (o.map f).isPlain = o.isPlain := by
  cases o <;> rfl

theorem leVia_render {o : Operand Rendered} (h : o.isPlain) :
    Except.LeVia (Option.Rel (Sql.Renamed r)) (o.render none) ((o.rename r).render none) := by
  cases o with
  | absent => exact Except.leVia_ok .none
  | value v => exact Except.leVia_ok (.some (.param v))
  | field f => exact (Field.leVia_sql h).bind fun _ _ hsql => Except.leVia_ok (.some hsql)
  | literal sql => cases h
  | subquery q => cases h

end Operand

namespace Predicate

def rename (r : Renaming) (p : Predicate σ) : Predicate σ :=
  ⟨p.field.rename r, p.operator, p.operand.rename r⟩

/-- Whether the field and the operand are plain, and the operator has no quote. -/
def isPlain (p : Predicate σ) : Bool :=
  p.field.isPlain && !p.operator.toList.contains '"' && p.operand.isPlain

@[simp] theorem rename_map (f : σ → τ) (p : Predicate σ) :
    (p.map f).rename r = (p.rename r).map f := by
  simp [rename, map]

@[simp] theorem isPlain_map (f : σ → τ) (p : Predicate σ) : (p.map f).isPlain = p.isPlain := by
  simp [isPlain, map]

theorem mem_of_mem_trim {s : String} {c : Char} (h : c ∈ (Text.trim s).toList) : c ∈ s.toList := by
  rw [Text.trim, String.toList_ofList, List.mem_reverse] at h
  have h := List.mem_reverse.1 ((List.dropWhile_sublist _).subset h)
  exact (List.dropWhile_sublist _).subset h

theorem leVia_render {d : Dialect} {p : Predicate Rendered} (h : p.isPlain) :
    Except.LeVia (Sql.Renamed r) (p.render d none) ((p.rename r).render d none) := by
  obtain ⟨field, operator, operand⟩ := p
  obtain ⟨⟨hfield, hoperator⟩, hoperand⟩ :
      (field.isPlain = true ∧ '"' ∉ operator.toList) ∧ operand.isPlain = true := by
    simpa [isPlain] using h
  have hshown : '"' ∉ (Text.trim operator).toList := fun hc => hoperator (mem_of_mem_trim hc)
  have hoperator : Sql.RenamedClause r
      (if (Text.trim operator).isEmpty then [] else spaced (.text (Text.trim operator)))
      (if (Text.trim operator).isEmpty then [] else spaced (.text (Text.trim operator))) := by
    split
    · exact .nil
    · exact .text_append (by decide) (.text hshown)
  refine (Except.leVia_refl _).bind fun _ _ _ => ?_
  refine (Field.leVia_sql hfield).bind fun left left' hleft => ?_
  refine (Operand.leVia_render hoperand).bind fun right right' hright => Except.leVia_ok ?_
  have hleft := hleft.append hoperator
  cases hright with
  | none => exact hleft.append .nil
  | some hright => exact hleft.append (.text_append (by decide) hright)

end Predicate

/-! ### Trees -/

namespace Node

mutual

def rename (r : Renaming) : Node σ → Node σ
  | leaf connector predicate => leaf connector (predicate.rename r)
  | group connector children => group connector (renameAll r children)

/-- Rename in the nodes of a list. -/
def renameAll (r : Renaming) : List (Node σ) → List (Node σ)
  | [] => []
  | n :: ns => rename r n :: renameAll r ns

end

mutual

@[simp] theorem rename_map (f : σ → τ) (n : Node σ) : (n.map f).rename r = (n.rename r).map f := by
  match n with
  | .leaf c p => simp [rename, map]
  | .group c ns => simp [rename, map, renameAll_mapAll f ns]

@[simp] theorem renameAll_mapAll (f : σ → τ) (ns : List (Node σ)) :
    renameAll r (mapAll f ns) = mapAll f (renameAll r ns) := by
  match ns with
  | [] => rfl
  | n :: ns => simp [renameAll, mapAll, rename_map f n, renameAll_mapAll f ns]

end

theorem connector_rename (n : Node σ) : (n.rename r).connector = n.connector := by
  cases n <;> rfl

/-- A sibling and the renamed sibling. -/
def PartRenamed (r : Renaming) (part part' : Connector × Sql) : Prop :=
  part'.1 = part.1 ∧ Sql.Renamed r part.2 part'.2

/-- The siblings behind the first, each after its connector. -/
theorem renamed_flatMap_connected {parts parts' : List (Connector × Sql)}
    (h : List.Forall₂ (PartRenamed r) parts parts') :
    Sql.RenamedClause r
      (parts.flatMap fun part => Sql.text (" " ++ part.1.keyword ++ " ") ++ part.2)
      (parts'.flatMap fun part => Sql.text (" " ++ part.1.keyword ++ " ") ++ part.2) := by
  induction h with
  | nil => exact .nil
  | @cons part part' _ _ hpart _ ih =>
    have hkeyword : Sql.Separates (" " ++ part.1.keyword ++ " ") := by cases part.1 <;> decide
    rw [List.flatMap_cons, List.flatMap_cons, hpart.1, List.append_assoc, List.append_assoc]
    exact .text_append hkeyword (hpart.2.append ih)

theorem renamed_joinSiblings {parts parts' : List (Connector × Sql)}
    (h : List.Forall₂ (PartRenamed r) parts parts') :
    Sql.Renamed r (joinSiblings parts) (joinSiblings parts') := by
  cases h with
  | nil => exact .nil
  | cons hfirst hrest => exact hfirst.2.append (renamed_flatMap_connected hrest)

mutual

theorem leVia_render {d : Dialect} (hquote : d.quoteIdentifier = doubleQuoted)
    {style : ConditionStyle} {n : Node Rendered} (h : n.predicates.all Predicate.isPlain) :
    Except.LeVia (Option.Rel (Sql.Renamed r)) (n.render d none style)
      ((n.rename r).render d none style) := by
  match n with
  | leaf c p =>
    have hp : p.isPlain = true := by simpa [predicates] using h
    refine (Predicate.leVia_render hp).bind fun _ _ hsql => Except.leVia_ok (.some ?_)
    exact hsql.enclosed _ (by cases style <;> decide) (by cases style <;> decide)
  | group c ns =>
    refine (leVia_renderAll hquote h).bind fun parts parts' hparts => Except.leVia_ok ?_
    have hinner := renamed_joinSiblings hparts
    rw [hinner.isBlank_eq hquote]
    split
    · exact .none
    · exact .some (hinner.enclosed _ (by cases style <;> decide) (by cases style <;> decide))

theorem leVia_renderAll {d : Dialect} (hquote : d.quoteIdentifier = doubleQuoted)
    {style : ConditionStyle} {ns : List (Node Rendered)}
    (h : (predicatesAll ns).all Predicate.isPlain) :
    Except.LeVia (List.Forall₂ (PartRenamed r)) (renderAll d none style ns)
      (renderAll d none style (renameAll r ns)) := by
  match ns with
  | [] => exact Except.leVia_ok .nil
  | n :: ns =>
    rw [predicatesAll, List.all_append, Bool.and_eq_true] at h
    refine (leVia_render hquote h.1).bind fun first first' hfirst =>
      (leVia_renderAll hquote h.2).bind fun rest rest' hrest => Except.leVia_ok ?_
    rw [connector_rename]
    cases hfirst with
    | none => exact hrest
    | some hsql => exact .cons ⟨rfl, hsql⟩ hrest

end

end Node

/-! ### Conditions -/

def OpenGroup.rename (r : Renaming) (g : OpenGroup σ) : OpenGroup σ :=
  ⟨g.connector, Node.renameAll r g.children⟩

namespace Condition

def rename (r : Renaming) (c : Condition σ) : Condition σ :=
  ⟨c.style, Node.renameAll r c.root, c.opened.map (OpenGroup.rename r), c.unopened⟩

/-- Whether all predicates are plain, those in open groups included. -/
def isPlain (c : Condition σ) : Bool := c.pending.all Predicate.isPlain

@[simp] theorem rename_map (f : σ → τ) (c : Condition σ) :
    (c.map f).rename r = (c.rename r).map f := by
  simp [rename, map, OpenGroup.rename, OpenGroup.map]

@[simp] theorem isPlain_map (f : σ → τ) (c : Condition σ) : (c.map f).isPlain = c.isPlain := by
  rw [isPlain, isPlain, pending_map, List.all_map]
  congr 1
  exact funext fun p => p.isPlain_map f

@[simp] theorem isEmpty_rename (c : Condition σ) : (c.rename r).isEmpty = c.isEmpty := by
  obtain ⟨style, root, opened, unopened⟩ := c
  cases root <;> cases opened <;> rfl

@[simp] theorem check_rename (c : Condition σ) : (c.rename r).check = c.check := by
  simp only [check, rename, List.length_map]
  rfl

theorem leVia_renderClause {d : Dialect} (hquote : d.quoteIdentifier = doubleQuoted)
    {keyword : String} (hkeyword : '"' ∉ keyword.toList) {c : Condition Rendered}
    (h : c.isPlain) :
    Except.LeVia (Sql.RenamedClause r)
      (c.renderClause keyword d none) ((c.rename r).renderClause keyword d none) := by
  rw [isPlain, pending, List.all_append, Bool.and_eq_true] at h
  have hrender : Except.LeVia (Sql.Renamed r) (c.render d none) ((c.rename r).render d none) := by
    unfold render
    rw [check_rename]
    refine (Except.leVia_refl c.check).bind fun _ _ _ => ?_
    exact (Node.leVia_renderAll hquote h.1).bind fun _ _ hparts =>
      Except.leVia_ok (Node.renamed_joinSiblings hparts)
  refine hrender.bind fun sql sql' hsql => Except.leVia_ok ?_
  rw [hsql.isBlank_eq hquote]
  split
  · exact .nil
  · exact .text_append ⟨by simp, by simpa using hkeyword⟩ hsql

end Condition

end SqlAssembly
