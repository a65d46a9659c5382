import SqlAssembly.Proofs.Building
import SqlAssembly.Proofs.Writing.Statement

/-!
# Groups without predicates

A group that is opened and closed at once shows nothing. If two runs of calls differ in such a group
alone, wherever it stands among the calls of their condition, then the statements that they build
are assembled alike. There is one exception: a bare union that carries no clause is refused as soon
as it has the group (`Command.assemble_of_withEmptyGroup`).
-/

namespace SqlAssembly

variable {σ τ : Type}

/-! ### Nodes -/

namespace Node

/-- The first nodes are the second ones and groups without nodes among them, at any depth. -/
inductive Padded : List (Node σ) → List (Node σ) → Prop
  | nil : Padded [] []
  | leaf {connector : Connector} {predicate : Predicate σ} {ns ms : List (Node σ)}
      (rest : Padded ns ms) :
      Padded (.leaf connector predicate :: ns) (.leaf connector predicate :: ms)
  | group {connector : Connector} {ns' ms' ns ms : List (Node σ)} (children : Padded ns' ms')
      (rest : Padded ns ms) : Padded (.group connector ns' :: ns) (.group connector ms' :: ms)
  | empty {connector : Connector} {ns ms : List (Node σ)} (rest : Padded ns ms) :
      Padded (.group connector [] :: ns) ms

namespace Padded

variable {ns ms ns' ms' : List (Node σ)}

theorem refl (ns : List (Node σ)) : Padded ns ns := by
  match ns with
  | [] => exact .nil
  | .leaf _ _ :: ns => exact .leaf (refl ns)
  | .group _ children :: ns => exact .group (refl children) (refl ns)

theorem append (h : Padded ns ms) (h' : Padded ns' ms') : Padded (ns ++ ns') (ms ++ ms') := by
  induction h with
  | nil => exact h'
  | leaf _ ih => exact .leaf ih
  | group children _ _ ih => exact .group children ih
  | empty _ ih => exact .empty ih

theorem mapAll (f : σ → τ) (h : Padded ns ms) : Padded (mapAll f ns) (mapAll f ms) := by
  induction h with
  | nil => exact .nil
  | leaf _ ih => exact .leaf ih
  | group _ _ ihchildren ih => exact .group ihchildren ih
  | empty _ ih => exact .empty ih

/-- Groups without nodes are left out. -/
theorem renderAll_eq {ns ms : List (Node Rendered)} (h : Padded ns ms) (d : Dialect)
    (owner : Option RecordType) (style : ConditionStyle) :
    renderAll d owner style ns = renderAll d owner style ms := by
  induction h with
  | nil => rfl
  | leaf _ ih => simp only [renderAll, ih, connector]
  | group _ _ ihchildren ih => simp only [renderAll, render, ihchildren, ih, connector]
  | empty _ ih =>
    have hempty (connector : Connector) :
        render d owner style (.group connector []) = .ok none := by
      simp [render, renderAll, joinSiblings, Sql.isBlank]
    rw [renderAll, ih, hempty, Except.ok_bind]
    exact bind_pure _

end Padded

end Node

/-! ### Conditions -/

/-- The open groups hold the same but for groups without nodes. -/
structure OpenGroup.Padded (g g' : OpenGroup σ) : Prop where
  connector : g.connector = g'.connector
  children : Node.Padded g.children g'.children

namespace Condition

/-- The conditions are the same but for groups without nodes that the first one has. -/
structure Padded (c c' : Condition σ) : Prop where
  style : c.style = c'.style
  root : Node.Padded c.root c'.root
  opened : List.Forall₂ OpenGroup.Padded c.opened c'.opened
  unopened : c.unopened = c'.unopened

namespace Padded

variable {c c' : Condition σ}

theorem refl (c : Condition σ) : Padded c c where
  style := rfl
  root := .refl _
  opened := List.forall₂_same.2 fun g _ => ⟨rfl, .refl g.children⟩
  unopened := rfl

/-- Nodes that are the same but for groups without nodes are pushed. -/
theorem push {n n' : Node σ} (h : Padded c c') (hn : Node.Padded [n] [n']) :
    Padded (c.push n) (c'.push n') := by
  obtain ⟨style, root, opened, unopened⟩ := c
  obtain ⟨style', root', opened', unopened'⟩ := c'
  obtain ⟨rfl, hroot, hopened, rfl⟩ := h
  cases hopened with
  | nil => exact ⟨rfl, hroot.append hn, .nil, rfl⟩
  | cons hg hgs => exact ⟨rfl, hroot, .cons ⟨hg.connector, hg.children.append hn⟩ hgs, rfl⟩

theorem push_empty (c : Condition σ) (connector : Connector) :
    Padded (c.push (.group connector [])) c := by
  have hempty (ns : List (Node σ)) : Node.Padded (ns ++ [.group connector []]) ns := by
    have hgroup : Node.Padded [.group connector []] ([] : List (Node σ)) := .empty .nil
    simpa using (Node.Padded.refl ns).append hgroup
  obtain ⟨style, root, opened, unopened⟩ := c
  cases opened with
  | nil => exact ⟨rfl, hempty root, .nil, rfl⟩
  | cons g gs =>
    have hgs : List.Forall₂ OpenGroup.Padded gs gs :=
      List.forall₂_same.2 fun g _ => ⟨rfl, .refl g.children⟩
    exact ⟨rfl, .refl root, .cons ⟨rfl, hempty g.children⟩ hgs, rfl⟩

theorem close (h : Padded c c') : Padded c.close c'.close := by
  obtain ⟨style, root, opened, unopened⟩ := c
  obtain ⟨style', root', opened', unopened'⟩ := c'
  obtain ⟨rfl, hroot, hopened, rfl⟩ := h
  cases hopened with
  | nil => exact ⟨rfl, hroot, .nil, rfl⟩
  | @cons g g' gs gs' hg hgs =>
    have hgroup :
        Node.Padded [.group g.connector g.children] [.group g'.connector g'.children] := by
      rw [hg.connector]
      exact .group hg.children .nil
    exact push ⟨rfl, hroot, hgs, rfl⟩ hgroup

theorem apply (h : Padded c c') (call : ConditionCall σ) :
    Padded (c.apply call) (c'.apply call) := by
  cases call with
  | add connector field operator operand => exact h.push (.refl _)
  | openGroup connector => exact ⟨h.style, h.root, .cons ⟨rfl, .nil⟩ h.opened, h.unopened⟩
  | closeGroup => exact h.close

theorem foldl_apply (h : Padded c c') (calls : List (ConditionCall σ)) :
    Padded (calls.foldl Condition.apply c) (calls.foldl Condition.apply c') := by
  induction calls generalizing c c' with
  | nil => exact h
  | cons call calls ih => exact ih (h.apply call)

theorem map (f : σ → τ) (h : Padded c c') : Padded (c.map f) (c'.map f) where
  style := h.style
  root := h.root.mapAll f
  opened := by
    refine List.forall₂_map_left_iff.2 (List.forall₂_map_right_iff.2 (h.opened.imp ?_))
    exact fun g g' hg => ⟨hg.connector, hg.children.mapAll f⟩
  unopened := h.unopened

theorem check_eq (h : Padded c c') : c.check = c'.check := by
  rw [check, check, h.opened.length_eq, h.unopened]

theorem renderClause_eq {c c' : Condition Rendered} (h : Padded c c') (keyword : String)
    (d : Dialect) (owner : Option RecordType) :
    c.renderClause keyword d owner = c'.renderClause keyword d owner := by
  simp only [renderClause, render, h.check_eq, h.style, h.root.renderAll_eq]

end Padded

/-! ### The calls of a condition -/

theorem isEmpty_push (c : Condition σ) (n : Node σ) : (c.push n).isEmpty = false := by
  obtain ⟨style, root, opened, unopened⟩ := c
  cases opened <;> simp [push, isEmpty]

/-- What is not empty stays so. -/
theorem isEmpty_apply {c : Condition σ} (h : c.isEmpty = false) (call : ConditionCall σ) :
    (c.apply call).isEmpty = false := by
  cases call with
  | add connector field operator operand => exact isEmpty_push c _
  | openGroup connector => simp [apply, isEmpty]
  | closeGroup =>
    rw [apply, close]
    split
    · exact h
    · exact isEmpty_push _ _

theorem isEmpty_foldl_apply {c : Condition σ} (h : c.isEmpty = false)
    (calls : List (ConditionCall σ)) : (calls.foldl apply c).isEmpty = false := by
  induction calls generalizing c with
  | nil => exact h
  | cons call calls ih => exact ih (isEmpty_apply h call)

end Condition

/-- The first calls are the second ones and, somewhere among them, an open group that is closed at
once. -/
def ConditionCall.WithEmptyGroup (calls' calls : List (ConditionCall σ)) : Prop :=
  ∃ before connector after, calls = before ++ after
    ∧ calls' = before ++ .openGroup connector :: .closeGroup :: after

namespace Condition

/-- A group without calls leaves a group without nodes, and a condition that is not empty. -/
theorem padded_build {calls calls' : List (ConditionCall σ)}
    (h : ConditionCall.WithEmptyGroup calls' calls) (style : ConditionStyle) :
    Padded (build style calls') (build style calls) ∧ (build style calls').isEmpty = false := by
  obtain ⟨before, connector, after, rfl, rfl⟩ := h
  have hgroup : ((build style before).apply (.openGroup connector)).apply .closeGroup
      = (build style before).push (.group connector []) := rfl
  simp only [build, List.foldl_append, List.foldl_cons] at hgroup ⊢
  rw [hgroup]
  exact ⟨(Padded.push_empty _ connector).foldl_apply after,
    isEmpty_foldl_apply (isEmpty_push _ _) after⟩

end Condition

/-! ### Selects -/

namespace Select

/-- The select with empty conditions. -/
def unfiltered (s : Select σ) : Select σ :=
  { s with filter := { style := .parenthesized }, having := { style := .parenthesized } }

theorem unfiltered_group (s : Select σ) (f : Field) :
    (s.group f).unfiltered = s.unfiltered.group f := by
  unfold group
  split <;> split <;> first | rfl | contradiction

theorem unfiltered_paginate (s : Select σ) (page rows : Int64) :
    (s.paginate page rows).unfiltered = s.unfiltered.paginate page rows := by
  unfold paginate
  split
  · rfl
  · dsimp only
    split <;> rfl

end Select

namespace SelectCall

/-- Whether the call concerns a condition. -/
def isCondition : SelectCall σ → Bool
  | filter _ | having _ => true
  | _ => false

end SelectCall

namespace Select

theorem unfiltered_apply_of_isCondition (s : Select σ) {call : SelectCall σ}
    (h : call.isCondition = true) : (s.apply call).unfiltered = s.unfiltered := by
  cases call <;> first | rfl | cases h

theorem unfiltered_apply (s : Select σ) {call : SelectCall σ} (h : call.isCondition = false) :
    (s.apply call).unfiltered = s.unfiltered.apply call := by
  cases call with
  | expressions columns => cases columns <;> rfl
  | groupBy fields =>
    exact (List.foldl_hom unfiltered fun s f => (unfiltered_group s f).symm).symm
  | page page rows => exact unfiltered_paginate s page rows
  | filter call | having call => cases h
  | _ => rfl

/-- But for its conditions a select is what the calls for other things build. -/
theorem unfiltered_build (d : Dialect) (calls : List (SelectCall σ)) :
    (build d calls).unfiltered
      = (build d (calls.filter fun call => !call.isCondition)).unfiltered := by
  refine foldl_filter unfiltered ?_ ?_ rfl calls
  · intro s call hcall
    exact unfiltered_apply_of_isCondition s (by simpa using hcall)
  · intro s s' call hcall h
    have hcall : call.isCondition = false := by simpa using hcall
    rw [unfiltered_apply s hcall, unfiltered_apply s' hcall, h]

/-- Selects that are the same but for their conditions. -/
theorem eq_of_unfiltered_eq (s s' : Select σ) (h : s'.unfiltered = s.unfiltered) :
    s' = { s with filter := s'.filter, having := s'.having } := by
  cases s
  cases s'
  simp only [unfiltered, mk.injEq] at h ⊢
  simp [h]

/-- A union of selects without a source or a clause of its own, in which nothing was wrong so
far. -/
structure IsBareUnion (s : Select σ) : Prop where
  deferred : s.deferred = none
  filter : s.filter.check = .ok ()
  having : s.having.check = .ok ()
  items : s.items = []
  unions : s.unions ≠ []
  clauses : s.hasSourceClause = false

section Padded

variable {s : Select σ} {filter having : Condition σ}

theorem check_of_isBareUnion (hfilter : filter.Padded s.filter) (hhaving : having.Padded s.having)
    (hclause : { s with filter, having }.hasSourceClause = true) (hs : s.IsBareUnion) :
    { s with filter, having }.check = .error .clauseOnBareUnion := by
  have hbare : { s with filter, having }.checkBareUnion = .error .clauseOnBareUnion := by
    rw [checkBareUnion, hclause]
    simp [hs.unions]
  rw [check, hbare]
  simp [hfilter.check_eq, hhaving.check_eq, hs.deferred, hs.filter, hs.having, hs.items]

/-- Only of a bare union it is asked whether it has conditions. -/
theorem check_of_not_isBareUnion (hfilter : filter.Padded s.filter)
    (hhaving : having.Padded s.having)
    (hclause : { s with filter, having }.hasSourceClause = true) (hs : ¬ s.IsBareUnion) :
    { s with filter, having }.check = s.check := by
  rw [check, check, checkBareUnion, checkBareUnion, hclause, hfilter.check_eq, hhaving.check_eq]
  dsimp only
  cases hkept : s.deferred with
  | some e => rfl
  | none =>
    cases hfilter : s.filter.check with
    | error e => rfl
    | ok _ =>
      cases hhaving : s.having.check with
      | error e => rfl
      | ok _ =>
        by_cases hbare : s.items = [] ∧ s.unions ≠ []
        · have hclause' : s.hasSourceClause = true := by
            by_contra hnone
            exact hs ⟨hkept, hfilter, hhaving, hbare.1, hbare.2, by simpa using hnone⟩
          rw [hclause']
        · by_cases hsources : s.items = []
          · have hnone : s.unions = [] := by simpa [hsources] using hbare
            simp [hsources, hnone]
          · simp [hsources]

end Padded

/-- What is behind the check does not see groups without nodes. -/
theorem render_of_padded {d : Dialect} {s : Select Rendered} {filter having : Condition Rendered}
    (hfilter : filter.Padded s.filter) (hhaving : having.Padded s.having)
    (hcheck : { s with filter, having }.check = s.check) :
    { s with filter, having }.render d = s.render d := by
  have hclauses : { s with filter, having }.filterSql d = s.filterSql d := by
    rw [filterSql, filterSql, hfilter.renderClause_eq, hhaving.renderClause_eq]
    rfl
  rw [render, render, hcheck, hclauses]
  rfl

/-- A group without nodes changes nothing, unless it comes to a bare union. -/
theorem assemble_of_padded {s : Select Query} {filter having : Condition Query}
    (hfilter : filter.Padded s.filter) (hhaving : having.Padded s.having)
    (hclause : { s with filter, having }.hasSourceClause = true) :
    (s.IsBareUnion →
        (Command.select { s with filter, having }).assemble = .error .clauseOnBareUnion)
      ∧ (¬ s.IsBareUnion →
        (Command.select { s with filter, having }).assemble = (Command.select s).assemble) := by
  constructor
  · intro hs
    have hcheck := check_of_isBareUnion hfilter hhaving hclause hs
    have hrender : (Query.of { s with filter, having }).render s.dialect
        = .error .clauseOnBareUnion := by
      rw [Query.render_of, render, check_map, hcheck]
      rfl
    rw [Command.assemble_eq]
    exact congrArg (Except.map _) hrender
  · intro hs
    have hcheck := check_of_not_isBareUnion hfilter hhaving hclause hs
    have hrender : (Query.of { s with filter, having }).render s.dialect
        = (Query.of s).render s.dialect := by
      rw [Query.render_of, Query.render_of]
      refine render_of_padded (s := s.map (Query.render s.dialect)) (hfilter.map _)
        (hhaving.map _) ?_
      exact ((check_map _ _).trans hcheck).trans (check_map _ s).symm
    rw [Command.assemble_eq, Command.assemble_eq]
    exact congrArg (Except.map _) hrender

end Select

/-! ### Updates and deletes -/

namespace Update

/-- The update with an empty condition. -/
def unfiltered (s : Update σ) : Update σ := { s with filter := { style := .bare } }

/-- But for its condition an update is what the calls for other things build. -/
theorem unfiltered_build (d : Dialect) (calls : List (UpdateCall σ)) :
    (build d calls).unfiltered
      = (build d (calls.filter fun call => call.filterCall?.isNone)).unfiltered := by
  refine foldl_filter unfiltered ?_ ?_ rfl calls
  · intro s call hcall
    cases call <;> first | rfl | cases hcall
  · intro s s' call hcall h
    cases s
    cases s'
    simp only [unfiltered, mk.injEq] at h
    cases call <;> simp_all [unfiltered, apply, addRecord]

theorem eq_of_unfiltered_eq (s s' : Update σ) (h : s'.unfiltered = s.unfiltered) :
    s' = { s with filter := s'.filter } := by
  cases s
  cases s'
  simp only [unfiltered, mk.injEq] at h ⊢
  simp [h]

/-- A group without nodes changes nothing. -/
theorem assemble_of_padded {s : Update Query} {filter : Condition Query}
    (hfilter : filter.Padded s.filter) :
    (Command.update { s with filter }).assemble = (Command.update s).assemble := by
  have hrender : ({ s with filter }.map (Query.render s.dialect)).render s.dialect
      = (s.map (Query.render s.dialect)).render s.dialect := by
    have hmap := hfilter.map (Query.render s.dialect)
    simp only [render, map, hmap.check_eq, hmap.renderClause_eq]
    rfl
  rw [Command.assemble_eq, Command.assemble_eq]
  exact congrArg (Except.map _) hrender

end Update

namespace Delete

/-- The delete with an empty condition. -/
def unfiltered (s : Delete σ) : Delete σ := { s with filter := { style := .bare } }

/-- But for its condition a delete is what the calls for other things build. -/
theorem unfiltered_build (d : Dialect) (calls : List (DeleteCall σ)) :
    (build d calls).unfiltered
      = (build d (calls.filter fun call => call.filterCall?.isNone)).unfiltered := by
  refine foldl_filter unfiltered ?_ ?_ rfl calls
  · intro s call hcall
    cases call <;> first | rfl | cases hcall
  · intro s s' call hcall h
    cases s
    cases s'
    simp only [unfiltered, mk.injEq] at h
    cases call <;> simp_all [unfiltered, apply]

theorem eq_of_unfiltered_eq (s s' : Delete σ) (h : s'.unfiltered = s.unfiltered) :
    s' = { s with filter := s'.filter } := by
  cases s
  cases s'
  simp only [unfiltered, mk.injEq] at h ⊢
  simp [h]

/-- A group without nodes changes nothing. -/
theorem assemble_of_padded {s : Delete Query} {filter : Condition Query}
    (hfilter : filter.Padded s.filter) :
    (Command.delete { s with filter }).assemble = (Command.delete s).assemble := by
  have hrender : ({ s with filter }.map (Query.render s.dialect)).render s.dialect
      = (s.map (Query.render s.dialect)).render s.dialect := by
    have hmap := hfilter.map (Query.render s.dialect)
    simp only [render, map, hmap.check_eq, hmap.renderClause_eq]
  rw [Command.assemble_eq, Command.assemble_eq]
  exact congrArg (Except.map _) hrender

end Delete

/-! ### An empty group among the calls of a statement -/

/-- The calls are the same but for an empty group that the first ones have among their calls on one
of the conditions. -/
structure SelectCall.WithEmptyGroup (calls' calls : List (SelectCall σ)) : Prop where
  rest : calls'.filter (fun call => !call.isCondition)
    = calls.filter fun call => !call.isCondition
  conditions :
    ConditionCall.WithEmptyGroup (calls'.filterMap filterCall?) (calls.filterMap filterCall?)
        ∧ calls'.filterMap havingCall? = calls.filterMap havingCall?
      ∨ calls'.filterMap filterCall? = calls.filterMap filterCall?
        ∧ ConditionCall.WithEmptyGroup (calls'.filterMap havingCall?)
          (calls.filterMap havingCall?)

/-- The calls are the same but for an empty group that the first ones have among their calls on the
condition. -/
structure UpdateCall.WithEmptyGroup (calls' calls : List (UpdateCall σ)) : Prop where
  rest : calls'.filter (fun call => call.filterCall?.isNone)
    = calls.filter fun call => call.filterCall?.isNone
  condition :
    ConditionCall.WithEmptyGroup (calls'.filterMap filterCall?) (calls.filterMap filterCall?)

/-- The calls are the same but for an empty group that the first ones have among their calls on the
condition. -/
structure DeleteCall.WithEmptyGroup (calls' calls : List (DeleteCall σ)) : Prop where
  rest : calls'.filter (fun call => call.filterCall?.isNone)
    = calls.filter fun call => call.filterCall?.isNone
  condition :
    ConditionCall.WithEmptyGroup (calls'.filterMap filterCall?) (calls.filterMap filterCall?)

/-- An empty group leaves conditions that differ in groups without nodes alone, one of which is not
empty. -/
theorem Select.padded_build (d : Dialect) {calls calls' : List (SelectCall σ)}
    (h : SelectCall.WithEmptyGroup calls' calls) :
    (build d calls').filter.Padded (build d calls).filter
      ∧ (build d calls').having.Padded (build d calls).having
      ∧ (build d calls').hasSourceClause = true := by
  rw [hasSourceClause, filter_build, filter_build, having_build, having_build]
  obtain ⟨hgroup, hsame⟩ | ⟨hsame, hgroup⟩ := h.conditions
  · obtain ⟨hpadded, hsome⟩ := Condition.padded_build hgroup .parenthesized
    rw [hsame]
    exact ⟨hpadded, .refl _, by simp [hsome]⟩
  · obtain ⟨hpadded, hsome⟩ := Condition.padded_build hgroup .parenthesized
    rw [hsame]
    exact ⟨.refl _, hpadded, by simp [hsome]⟩

/-- An empty group at any place among the calls on a condition is of no account for what a statement
is assembled to. Only a bare union without clauses is refused for it, as if it had a clause. -/
theorem Command.assemble_of_withEmptyGroup (d : Dialect) :
    (∀ calls calls' : List (SelectCall Query), SelectCall.WithEmptyGroup calls' calls →
      ((Select.build d calls).IsBareUnion →
          (select (.build d calls')).assemble = .error .clauseOnBareUnion)
        ∧ (¬ (Select.build d calls).IsBareUnion →
          (select (.build d calls')).assemble = (select (.build d calls)).assemble))
    ∧ (∀ calls calls' : List (UpdateCall Query), UpdateCall.WithEmptyGroup calls' calls →
        (update (.build d calls')).assemble = (update (.build d calls)).assemble)
    ∧ ∀ calls calls' : List (DeleteCall Query), DeleteCall.WithEmptyGroup calls' calls →
        (delete (.build d calls')).assemble = (delete (.build d calls)).assemble := by
  refine ⟨fun calls calls' h => ?_, fun calls calls' h => ?_, fun calls calls' h => ?_⟩
  · obtain ⟨hfilter, hhaving, hclause⟩ := Select.padded_build d h
    have hrest := Select.eq_of_unfiltered_eq (.build d calls) (.build d calls')
      (by rw [Select.unfiltered_build, h.rest, ← Select.unfiltered_build])
    rw [hrest] at hclause ⊢
    exact Select.assemble_of_padded hfilter hhaving hclause
  · have hrest := Update.eq_of_unfiltered_eq (.build d calls) (.build d calls')
      (by rw [Update.unfiltered_build, h.rest, ← Update.unfiltered_build])
    rw [hrest]
    refine Update.assemble_of_padded ?_
    rw [Update.filter_build, Update.filter_build]
    exact (Condition.padded_build h.condition .bare).1
  · have hrest := Delete.eq_of_unfiltered_eq (.build d calls) (.build d calls')
      (by rw [Delete.unfiltered_build, h.rest, ← Delete.unfiltered_build])
    rw [hrest]
    refine Delete.assemble_of_padded ?_
    rw [Delete.filter_build, Delete.filter_build]
    exact (Condition.padded_build h.condition .bare).1

/-- A union of two tables. -/
def Select.twoMembers : List (SelectCall Query) :=
  [.union (.query (.of (.build .generic [.source (.table (.name "a") none) .all]))) .distinct,
    .union (.query (.of (.build .generic [.source (.table (.name "b") none) .all]))) .distinct]

/-- The same union with an empty group in its condition. -/
def Select.twoMembersGrouped : List (SelectCall Query) :=
  .filter (.openGroup .and) :: .filter .closeGroup :: twoMembers

/-- The union is refused for a clause that it does not show. -/
theorem Select.assemble_twoMembersGrouped :
    SelectCall.WithEmptyGroup twoMembersGrouped twoMembers
      ∧ (Command.select (.build .generic twoMembers)).assemble
        = .ok ⟨"SELECT \"a\".* FROM \"a\" UNION SELECT \"b\".* FROM \"b\"", []⟩
      ∧ (Command.select (.build .generic twoMembersGrouped)).assemble
        = .error .clauseOnBareUnion := by
  refine ⟨⟨rfl, .inl ⟨⟨[], .and, [], rfl, rfl⟩, rfl⟩⟩, rfl, rfl⟩

/-- A predicate and a group, between calls for other things. -/
def Select.groupedCalls : List (SelectCall Query) :=
  [.source (.table (.name "t") none) .all,
    .filter (.add .and { name := .name "a" } "=" (.value (.int 1))),
    .filter (.openGroup .or), .distinct,
    .filter (.add .and { name := .name "b" } "=" (.value (.int 2))), .filter .closeGroup]

/-- The same calls with an empty group inside the group, opened before and closed behind
`distinct`. -/
def Select.regroupedCalls : List (SelectCall Query) :=
  [.source (.table (.name "t") none) .all,
    .filter (.add .and { name := .name "a" } "=" (.value (.int 1))),
    .filter (.openGroup .or), .filter (.openGroup .or), .distinct, .filter .closeGroup,
    .filter (.add .and { name := .name "b" } "=" (.value (.int 2))), .filter .closeGroup]

theorem Command.assemble_of_withEmptyGroup_regrouped :
    (select (.build .postgres Select.regroupedCalls)).assemble
        = .ok ⟨"SELECT DISTINCT \"t\".* FROM \"t\" WHERE (\"a\" = $1) OR ( (\"b\" = $2) )",
          [.int 1, .int 2]⟩
      ∧ (select (.build .generic Select.twoMembersGrouped)).assemble = .error .clauseOnBareUnion
      ∧ (update (.build .generic [.filter (.openGroup .and), .filter .closeGroup])).assemble
        = .error (.missingTarget .update)
      ∧ (delete (.build .generic [.target (.table (.name "t") none), .filter .closeGroup,
          .filter (.openGroup .or), .filter .closeGroup])).assemble
        = .error (.unopenedGroups 1) := by
  have hgroup : SelectCall.WithEmptyGroup Select.regroupedCalls Select.groupedCalls := by
    refine ⟨rfl, .inl ⟨⟨[.add .and { name := .name "a" } "=" (.value (.int 1)), .openGroup .or],
      .or, [.add .and { name := .name "b" } "=" (.value (.int 2)), .closeGroup], rfl, rfl⟩, rfl⟩⟩
  have hunion : SelectCall.WithEmptyGroup Select.twoMembersGrouped Select.twoMembers :=
    ⟨rfl, .inl ⟨⟨[], .and, [], rfl, rfl⟩, rfl⟩⟩
  have hsources : ¬ (Select.build .postgres Select.groupedCalls).IsBareUnion :=
    fun h => nomatch h.items
  have hbare : (Select.build .generic Select.twoMembers).IsBareUnion :=
    ⟨rfl, rfl, rfl, rfl, List.cons_ne_nil _ _, rfl⟩
  obtain ⟨hselect, hupdate, hdelete⟩ := assemble_of_withEmptyGroup .generic
  refine ⟨?_, ?_, ?_, ?_⟩
  · exact ((assemble_of_withEmptyGroup .postgres).1 _ _ hgroup).2 hsources
  · exact (hselect _ _ hunion).1 hbare
  · exact hupdate [] _ ⟨rfl, [], .and, [], rfl, rfl⟩
  · exact hdelete [.target (.table (.name "t") none), .filter .closeGroup] _
      ⟨rfl, [.closeGroup], .or, [], rfl, rfl⟩

end SqlAssembly
