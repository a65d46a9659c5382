import SqlAssembly.Proofs.Outcome
import SqlAssembly.Statement

/-!
# Conditions of built statements

The predicates of a condition whose groups are balanced are those that its calls added, in call
order, however they are grouped (`Condition.predicates_build`). A statement is built by calls of
many kinds. Its conditions depend on the calls that concern them alone: they are the conditions that
these calls build, in their order.
-/

namespace SqlAssembly

variable {σ : Type}

/-! ### What a run of calls leaves -/

section Runs

variable {α β γ : Type} {step : α → β → α}

/-- What no step changes stays through a run. -/
theorem foldl_unchanged (view : α → γ) (hstep : ∀ s b, view (step s b) = view s) (s : α)
    (bs : List β) :
    view (bs.foldl step s) = view s := by
  induction bs generalizing s with
  | nil => rfl
  | cons b bs ih => rw [List.foldl_cons, ih, hstep]

/-- Where each step appends something, a run appends it step by step. -/
theorem foldl_append (view : α → List γ) {part : β → List γ}
    (hstep : ∀ s b, view (step s b) = view s ++ part b) (s : α) (bs : List β) :
    view (bs.foldl step s) = view s ++ bs.flatMap part := by
  induction bs generalizing s with
  | nil => simp
  | cons b bs ih => rw [List.foldl_cons, ih, hstep, List.flatMap_cons, List.append_assoc]

/-- Where some steps set something and the others leave it, a run leaves what was set last. -/
theorem foldl_latest (view : α → γ) {part : β → Option γ}
    (hstep : ∀ s b, view (step s b) = (part b).getD (view s)) (s : α) (bs : List β) :
    view (bs.foldl step s) = (bs.filterMap part).getLast?.getD (view s) := by
  induction bs generalizing s with
  | nil => rfl
  | cons b bs ih =>
    rw [List.foldl_cons, ih, hstep, List.filterMap_cons]
    cases part b with
    | none => rfl
    | some c => simp [List.getLast?_cons]

/-- Where steps bring something and the first of it is kept, a run keeps what is brought first. -/
theorem foldl_first (view : α → Option γ) {part : β → Option γ}
    (hstep : ∀ s b, view (step s b) = (view s).or (part b)) (s : α) (bs : List β) :
    view (bs.foldl step s) = (view s).or (bs.findSome? part) := by
  induction bs generalizing s with
  | nil => simp
  | cons b bs ih =>
    rw [List.foldl_cons, ih, hstep, List.findSome?_cons]
    cases view s <;> cases part b <;> rfl

/-- Where changing the state and changing the step come to the same in each step, they do so in a
run. -/
theorem foldl_commutes {change : α → α} {changeStep : β → β} {bs : List β}
    (hstep : ∀ s, ∀ b ∈ bs, change (step s b) = step (change s) (changeStep b)) (s : α) :
    change (bs.foldl step s) = (bs.map changeStep).foldl step (change s) := by
  induction bs generalizing s with
  | nil => rfl
  | cons b bs ih =>
    rw [List.foldl_cons, ih fun s b hb => hstep s b (List.mem_cons_of_mem _ hb),
      hstep s b (List.mem_cons_self ..), List.map_cons, List.foldl_cons]

/-- What depends on some of the steps alone is after a run what it is after a run of these. -/
theorem foldl_filter (view : α → γ) {p : β → Bool}
    (hskip : ∀ s b, p b = false → view (step s b) = view s)
    (hstep : ∀ s s' b, p b = true → view s = view s' → view (step s b) = view (step s' b))
    {s s' : α} (hs : view s = view s') (bs : List β) :
    view (bs.foldl step s) = view ((bs.filter p).foldl step s') := by
  induction bs generalizing s s' with
  | nil => exact hs
  | cons b bs ih =>
    rw [List.foldl_cons, List.filter_cons]
    cases hb : p b with
    | true => exact ih (hstep s s' b hb hs)
    | false => exact ih ((hskip s b hb).trans hs)

end Runs

/-! ### The predicates of a condition -/

namespace Node

mutual

/-- The predicates of a node, from left to right. -/
def predicates : Node σ → List (Predicate σ)
  | leaf _ predicate => [predicate]
  | group _ children => predicatesAll children

/-- The predicates of a list of nodes. -/
def predicatesAll : List (Node σ) → List (Predicate σ)
  | [] => []
  | n :: ns => predicates n ++ predicatesAll ns

end

@[simp] theorem predicatesAll_append (ns ms : List (Node σ)) :
    predicatesAll (ns ++ ms) = predicatesAll ns ++ predicatesAll ms := by
  induction ns with
  | nil => rfl
  | cons n ns ih => simp [predicatesAll, ih]

@[simp] theorem predicatesAll_singleton (n : Node σ) : predicatesAll [n] = n.predicates := by
  simp [predicatesAll]

end Node

/-- The predicate that a call adds. -/
def ConditionCall.predicate? : ConditionCall σ → Option (Predicate σ)
  | add _ field operator operand => some (.of field operator operand)
  | openGroup _ | closeGroup => none

namespace Condition

/-- The predicates of a condition and of its open groups, the outermost group first. -/
def pending (c : Condition σ) : List (Predicate σ) :=
  Node.predicatesAll c.root ++ c.opened.reverse.flatMap fun g => Node.predicatesAll g.children

theorem pending_push (c : Condition σ) (n : Node σ) :
    (c.push n).pending = c.pending ++ n.predicates := by
  obtain ⟨style, root, opened, unopened⟩ := c
  cases opened <;> simp [push, pending]

theorem pending_close (c : Condition σ) : c.close.pending = c.pending := by
  obtain ⟨style, root, opened, unopened⟩ := c
  cases opened with
  | nil => rfl
  | cons g gs =>
    rw [close, pending_push]
    simp [pending, Node.predicates]

/-- A call puts its predicate behind those that are there, wherever a group is opened or closed. -/
theorem pending_apply (c : Condition σ) (call : ConditionCall σ) :
    (c.apply call).pending = c.pending ++ call.predicate?.toList := by
  cases call with
  | add connector field operator operand => exact pending_push c _
  | openGroup connector => simp [apply, pending, ConditionCall.predicate?, Node.predicatesAll]
  | closeGroup =>
    rw [apply, pending_close]
    exact (List.append_nil _).symm

/-- After a run of calls the predicates are those of the calls, in call order. -/
theorem pending_build (style : ConditionStyle) (calls : List (ConditionCall σ)) :
    (build style calls).pending = calls.filterMap ConditionCall.predicate? := by
  rw [List.filterMap_eq_flatMap_toList]
  exact foldl_append pending pending_apply { style } calls

theorem style_push (c : Condition σ) (n : Node σ) : (c.push n).style = c.style := by
  obtain ⟨style, root, opened, unopened⟩ := c
  cases opened <;> rfl

theorem style_close (c : Condition σ) : c.close.style = c.style := by
  obtain ⟨style, root, opened, unopened⟩ := c
  cases opened with
  | nil => rfl
  | cons g gs => exact style_push _ _

theorem style_apply (c : Condition σ) (call : ConditionCall σ) :
    (c.apply call).style = c.style := by
  cases call with
  | add connector field operator operand => exact style_push c _
  | openGroup connector => rfl
  | closeGroup => exact style_close c

theorem style_build (style : ConditionStyle) (calls : List (ConditionCall σ)) :
    (build style calls).style = style :=
  foldl_unchanged Condition.style style_apply { style } calls

/-- No group is open in a condition whose groups are balanced. -/
theorem opened_eq_nil {c : Condition σ} (h : c.check = .ok ()) : c.opened = [] := by
  by_contra hne
  simp [check, hne] at h

/-- In a condition whose groups are balanced the predicates come in call order. -/
theorem predicates_build {style : ConditionStyle} {calls : List (ConditionCall σ)}
    (h : (build style calls).check = .ok ()) :
    Node.predicatesAll (build style calls).root = calls.filterMap ConditionCall.predicate? := by
  rw [← pending_build style calls, pending, opened_eq_nil h]
  simp

end Condition

/-! ### Changing the queries -/

section Map

variable {τ : Type}

mutual

theorem Node.predicates_map (f : σ → τ) (n : Node σ) :
    (n.map f).predicates = n.predicates.map (Predicate.map f) := by
  match n with
  | .leaf c p => rfl
  | .group c ns => exact Node.predicatesAll_map f ns

theorem Node.predicatesAll_map (f : σ → τ) (ns : List (Node σ)) :
    Node.predicatesAll (Node.mapAll f ns) = (Node.predicatesAll ns).map (Predicate.map f) := by
  match ns with
  | [] => rfl
  | n :: ns =>
    rw [Node.mapAll, Node.predicatesAll, Node.predicates_map f n, Node.predicatesAll_map f ns,
      Node.predicatesAll, List.map_append]

end

theorem Condition.pending_map (f : σ → τ) (c : Condition σ) :
    (c.map f).pending = c.pending.map (Predicate.map f) := by
  simp only [pending, map, Node.predicatesAll_map, ← List.map_reverse, List.flatMap_map,
    OpenGroup.map, List.map_append, List.map_flatMap]

end Map

/-! ### The calls that concern a condition -/

/-- The step of a call in building the `WHERE` condition of a select. -/
def SelectCall.filterCall? : SelectCall σ → Option (ConditionCall σ)
  | filter call => some call
  | _ => none

/-- The step of a call in building the `HAVING` condition of a select. -/
def SelectCall.havingCall? : SelectCall σ → Option (ConditionCall σ)
  | having call => some call
  | _ => none

/-- The step of a call in building the condition of an update. -/
def UpdateCall.filterCall? : UpdateCall σ → Option (ConditionCall σ)
  | filter call => some call
  | _ => none

/-- The step of a call in building the condition of a delete. -/
def DeleteCall.filterCall? : DeleteCall σ → Option (ConditionCall σ)
  | filter call => some call
  | _ => none

/-- A condition follows the calls that concern it through a run, if it does so through a step. -/
theorem Condition.foldl_filterMap {α β : Type} {step : α → β → α} {condition : α → Condition σ}
    {call? : β → Option (ConditionCall σ)}
    (hstep : ∀ s b, condition (step s b) = (call? b).elim (condition s) (condition s).apply)
    (s : α) (bs : List β) :
    condition (bs.foldl step s) = (bs.filterMap call?).foldl Condition.apply (condition s) := by
  induction bs generalizing s with
  | nil => rfl
  | cons b bs ih =>
    rw [List.foldl_cons, ih, hstep, List.filterMap_cons]
    cases call? b <;> rfl

/-! ### Selects -/

namespace Select

theorem filter_foldl_group (s : Select σ) (fields : List Field) :
    (fields.foldl group s).filter = s.filter ∧ (fields.foldl group s).having = s.having := by
  induction fields generalizing s with
  | nil => exact ⟨rfl, rfl⟩
  | cons f fs ih =>
    rw [List.foldl_cons]
    have hgroup : (s.group f).filter = s.filter ∧ (s.group f).having = s.having := by
      unfold group
      split <;> exact ⟨rfl, rfl⟩
    exact ⟨(ih _).1.trans hgroup.1, (ih _).2.trans hgroup.2⟩

theorem filter_paginate (s : Select σ) (page rows : Int64) :
    (s.paginate page rows).filter = s.filter ∧ (s.paginate page rows).having = s.having := by
  unfold paginate
  split
  · exact ⟨rfl, rfl⟩
  · dsimp only
    split <;> exact ⟨rfl, rfl⟩

theorem filter_apply (s : Select σ) (call : SelectCall σ) :
    (s.apply call).filter = call.filterCall?.elim s.filter s.filter.apply := by
  cases call with
  | expressions columns => cases columns <;> rfl
  | groupBy fields => exact (filter_foldl_group s fields).1
  | page page rows => exact (filter_paginate s page rows).1
  | _ => rfl

theorem having_apply (s : Select σ) (call : SelectCall σ) :
    (s.apply call).having = call.havingCall?.elim s.having s.having.apply := by
  cases call with
  | expressions columns => cases columns <;> rfl
  | groupBy fields => exact (filter_foldl_group s fields).2
  | page page rows => exact (filter_paginate s page rows).2
  | _ => rfl

theorem filter_build (d : Dialect) (calls : List (SelectCall σ)) :
    (build d calls).filter
      = Condition.build .parenthesized (calls.filterMap SelectCall.filterCall?) :=
  Condition.foldl_filterMap filter_apply { dialect := d } calls

theorem having_build (d : Dialect) (calls : List (SelectCall σ)) :
    (build d calls).having
      = Condition.build .parenthesized (calls.filterMap SelectCall.havingCall?) :=
  Condition.foldl_filterMap having_apply { dialect := d } calls

end Select

/-! ### Updates and deletes -/

theorem Update.filter_apply (s : Update σ) (call : UpdateCall σ) :
    (s.apply call).filter = call.filterCall?.elim s.filter s.filter.apply := by
  cases call <;> rfl

theorem Update.filter_build (d : Dialect) (calls : List (UpdateCall σ)) :
    (build d calls).filter = Condition.build .bare (calls.filterMap UpdateCall.filterCall?) :=
  Condition.foldl_filterMap filter_apply { dialect := d } calls

theorem Delete.filter_apply (s : Delete σ) (call : DeleteCall σ) :
    (s.apply call).filter = call.filterCall?.elim s.filter s.filter.apply := by
  cases call <;> rfl

theorem Delete.filter_build (d : Dialect) (calls : List (DeleteCall σ)) :
    (build d calls).filter = Condition.build .bare (calls.filterMap DeleteCall.filterCall?) :=
  Condition.foldl_filterMap filter_apply { dialect := d } calls

/-! ### Dialects -/

theorem Select.dialect_apply (s : Select σ) (call : SelectCall σ) :
    (s.apply call).dialect = s.dialect := by
  cases call with
  | expressions columns => cases columns <;> rfl
  | groupBy fields =>
    exact foldl_unchanged dialect (fun s f => by unfold group; split <;> rfl) s fields
  | page page rows =>
    rw [apply, paginate]
    split
    · rfl
    · dsimp only
      split <;> rfl
  | _ => rfl

theorem Select.dialect_build (d : Dialect) (calls : List (SelectCall σ)) :
    (build d calls).dialect = d :=
  foldl_unchanged dialect dialect_apply { dialect := d } calls

theorem Insert.dialect_build (d : Dialect) (calls : List (InsertCall σ)) :
    (build d calls).dialect = d :=
  foldl_unchanged dialect (fun _ call => by cases call <;> rfl) { dialect := d } calls

theorem Update.dialect_build (d : Dialect) (calls : List (UpdateCall σ)) :
    (build d calls).dialect = d :=
  foldl_unchanged dialect (fun _ call => by cases call <;> rfl) { dialect := d } calls

theorem Delete.dialect_build (d : Dialect) (calls : List (DeleteCall σ)) :
    (build d calls).dialect = d :=
  foldl_unchanged dialect (fun _ call => by cases call <;> rfl) { dialect := d } calls

end SqlAssembly
