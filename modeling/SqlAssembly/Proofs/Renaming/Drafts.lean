import SqlAssembly.Proofs.Renaming.Statements
import SqlAssembly.Proofs.Writing.Statement

/-!
# Renaming the calls that build a command

A statement is renamed by renaming in the calls that build it. Every step of building commutes with
that: a field is in a `GROUP BY` list twice exactly if it is after renaming. So the characters of a
name cannot change the structure of a statement. If a statement on plain names and bound values is
assembled, then so is the renamed one, with the same values, and its text is read as the same
tokens, with the names renamed (`Draft.lex_assemble_rename`).
-/

namespace SqlAssembly

variable {r : Renaming} {σ : Type}

/-! ### Conditions -/

theorem Predicate.rename_of (field : Field) (operator : String) (operand : Operand σ) :
    (of field operator operand).rename r
      = of (field.rename r) operator (operand.rename r) := by
  unfold of
  split
  · split <;> simp [rename, Operand.rename, *]
  · cases operand <;> simp_all [rename, Operand.rename]

namespace ConditionCall

def rename (r : Renaming) : ConditionCall σ → ConditionCall σ
  | add connector field operator operand =>
    add connector (field.rename r) operator (operand.rename r)
  | call => call

/-- Whether the predicate of the call is plain. -/
def isPlain (call : ConditionCall σ) : Bool := call.predicate?.all Predicate.isPlain

end ConditionCall

namespace Node

@[simp] theorem renameAll_append (ns ms : List (Node σ)) :
    renameAll r (ns ++ ms) = renameAll r ns ++ renameAll r ms := by
  induction ns with
  | nil => rfl
  | cons n ns ih => simp [renameAll, ih]

end Node

namespace Condition

theorem rename_push (c : Condition σ) (n : Node σ) :
    (c.push n).rename r = (c.rename r).push (n.rename r) := by
  obtain ⟨style, root, opened, unopened⟩ := c
  cases opened <;> simp [push, rename, OpenGroup.rename, Node.renameAll]

theorem rename_close (c : Condition σ) : c.close.rename r = (c.rename r).close := by
  obtain ⟨style, root, opened, unopened⟩ := c
  cases opened with
  | nil => rfl
  | cons g gs => exact rename_push _ _

theorem rename_apply (c : Condition σ) (call : ConditionCall σ) :
    (c.apply call).rename r = (c.rename r).apply (call.rename r) := by
  cases call with
  | add connector field operator operand =>
    rw [apply, rename_push, Node.rename, Predicate.rename_of]
    rfl
  | openGroup connector => rfl
  | closeGroup => exact rename_close c

theorem isPlain_apply {c : Condition σ} (hc : c.isPlain) {call : ConditionCall σ}
    (hcall : call.isPlain) : (c.apply call).isPlain := by
  rw [isPlain, pending_apply, List.all_append, Bool.and_eq_true]
  refine ⟨hc, ?_⟩
  rw [ConditionCall.isPlain] at hcall
  cases h : call.predicate? <;> simp_all

end Condition

/-! ### Selects -/

theorem Source.rename_withAlias (s : Source σ) (aliasName : String) :
    (s.withAlias aliasName).rename r = (s.rename r).withAlias (r aliasName) := by
  cases s <;> rfl

theorem Source.isPlain_withAlias (s : Source σ) (aliasName : String) :
    (s.withAlias aliasName).isPlain = s.isPlain := by
  cases s <;> rfl

namespace SelectCall

def rename (r : Renaming) : SelectCall σ → SelectCall σ
  | source s columns => source (s.rename r) (columns.rename r)
  | lateral s aliasName columns => lateral (s.rename r) (r aliasName) (columns.rename r)
  | expressions columns => expressions (columns.rename r)
  | filter call => filter (call.rename r)
  | groupBy fields => groupBy (fields.map (Field.rename r))
  | having call => having (call.rename r)
  | orderBy field direction => orderBy (field.rename r) direction
  | call => call

/-- Whether all that the call gives is plain, and it gives neither a join nor a member of a
union. -/
def isPlain : SelectCall σ → Bool
  | source s columns | lateral s _ columns => s.isPlain && columns.isPlain
  | expressions columns => columns.isPlain
  | filter call | having call => call.isPlain
  | groupBy fields => fields.all Field.isPlain
  | orderBy field _ => field.isPlain
  | join _ | union _ _ => false
  | distinct | forUpdate | limit _ | offset _ | page _ _ => true

/-- Whether the call gives a source. -/
def isSource : SelectCall σ → Bool
  | source _ _ | lateral _ _ _ => true
  | _ => false

end SelectCall

namespace Select

/-- A plain select that is being built, and the renamed one. They keep an error together, if not the
same one: the error may name a field. -/
def BuildsRenamed (r : Renaming) (s s' : Select σ) : Prop :=
  s.hasPlainParts ∧ ∃ e?, e?.isSome = s.deferred.isSome ∧ s' = { s.rename r with deferred := e? }

theorem BuildsRenamed.defer {s s' : Select σ} (h : BuildsRenamed r s s') (e e' : SqlError) :
    BuildsRenamed r (s.defer e) (s'.defer e') := by
  obtain ⟨hs, e?, he, rfl⟩ := h
  exact ⟨hs, e?.or (some e'), by simp [Select.defer], rfl⟩

theorem BuildsRenamed.group {s s' : Select σ} (h : BuildsRenamed r s s') {f : Field}
    (hf : f.isPlain) : BuildsRenamed r (s.group f) (s'.group (f.rename r)) := by
  have hmem : f.rename r ∈ s'.groupBy ↔ f ∈ s.groupBy := by
    obtain ⟨-, e?, -, rfl⟩ := h
    exact List.mem_map_of_injective Field.rename_injective
  unfold Select.group
  by_cases hrepeated : f ∈ s.groupBy
  · rw [if_pos hrepeated, if_pos (hmem.2 hrepeated)]
    exact h.defer _ _
  · rw [if_neg hrepeated, if_neg (fun h' => hrepeated (hmem.1 h'))]
    obtain ⟨hs, e?, he, rfl⟩ := h
    rw [hasPlainParts_iff] at hs
    refine ⟨hasPlainParts_iff.2 ?_, e?, he, ?_⟩
    · simpa [hf] using hs
    · simp [rename]

theorem BuildsRenamed.paginate {s s' : Select σ} (h : BuildsRenamed r s s') (page rows : Int64) :
    BuildsRenamed r (s.paginate page rows) (s'.paginate page rows) := by
  unfold Select.paginate
  split
  · exact h.defer _ _
  · dsimp only
    split
    · obtain ⟨hs, e?, he, rfl⟩ := h
      exact ⟨hs, e?, he, rfl⟩
    · exact h.defer _ _

theorem BuildsRenamed.item {s s' : Select σ} (h : BuildsRenamed r s s') {i : SourceItem σ}
    (hi : i.isPlain) :
    BuildsRenamed r { s with items := s.items ++ [i] }
      { s' with items := s'.items ++ [i.rename r] } := by
  obtain ⟨hs, e?, he, rfl⟩ := h
  refine ⟨hasPlainParts_iff.2 ?_, e?, he, by simp [rename]⟩
  simpa [hi] using hasPlainParts_iff.1 hs

/-- A plain call and the renamed call lead from a select and the renamed select to another such
pair. -/
theorem BuildsRenamed.apply {s s' : Select σ} (h : BuildsRenamed r s s') {call : SelectCall σ}
    (hcall : call.isPlain) : BuildsRenamed r (s.apply call) (s'.apply (call.rename r)) := by
  match call with
  | .source source columns => exact h.item hcall
  | .lateral source aliasName columns =>
    rw [SelectCall.rename, Select.apply, Select.apply, ← Source.rename_withAlias]
    refine h.item (i := .lateral (source.withAlias aliasName) columns) ?_
    rw [SourceItem.isPlain, Source.isPlain_withAlias]
    exact hcall
  | .expressions .all => exact h.item (i := .expressions [{ name := .name "*" }]) rfl
  | .expressions (.list columns) => exact h.item hcall
  | .groupBy fields =>
    rw [SelectCall.rename, Select.apply, Select.apply, List.foldl_map]
    exact List.foldl_rel h fun f hf _ _ hs => hs.group (List.all_eq_true.1 hcall f hf)
  | .page page rows => exact h.paginate page rows
  | .join join => cases hcall
  | .union member kind => cases hcall
  | .filter call =>
    obtain ⟨hs, e?, he, rfl⟩ := h
    obtain ⟨hitems, hjoins, hunions, hfilter, hrest⟩ := hasPlainParts_iff.1 hs
    refine ⟨hasPlainParts_iff.2 ⟨hitems, hjoins, hunions, ?_, hrest⟩, e?, he, ?_⟩
    · exact Condition.isPlain_apply hfilter hcall
    · simp [Select.apply, rename, SelectCall.rename, Condition.rename_apply]
  | .having call =>
    obtain ⟨hs, e?, he, rfl⟩ := h
    obtain ⟨hitems, hjoins, hunions, hfilter, hgroupBy, hhaving, hrest⟩ := hasPlainParts_iff.1 hs
    refine ⟨hasPlainParts_iff.2 ⟨hitems, hjoins, hunions, hfilter, hgroupBy, ?_, hrest⟩, e?, he, ?_⟩
    · exact Condition.isPlain_apply hhaving hcall
    · simp [Select.apply, rename, SelectCall.rename, Condition.rename_apply]
  | .orderBy field direction =>
    obtain ⟨hs, e?, he, rfl⟩ := h
    refine ⟨hasPlainParts_iff.2 ?_, e?, he, by simp [Select.apply, rename, SelectCall.rename]⟩
    have hfield : field.isPlain = true := hcall
    simpa [Select.apply, hfield] using hasPlainParts_iff.1 hs
  | .distinct | .forUpdate | .limit n | .offset n =>
    obtain ⟨hs, e?, he, rfl⟩ := h
    exact ⟨hs, e?, he, rfl⟩

theorem countP_isSource_apply (s : Select σ) (call : SelectCall σ) :
    (s.apply call).items.countP SourceItem.isSource
      = s.items.countP SourceItem.isSource + if call.isSource then 1 else 0 := by
  cases call with
  | source source columns => simp [apply, SourceItem.isSource, SelectCall.isSource]
  | lateral source aliasName columns => simp [apply, SourceItem.isSource, SelectCall.isSource]
  | expressions columns =>
    cases columns <;> simp [apply, SourceItem.isSource, SelectCall.isSource]
  | groupBy fields =>
    have hitems : (fields.foldl group s).items = s.items :=
      foldl_unchanged items (fun s f => by unfold group; split <;> rfl) s fields
    simp [apply, hitems, SelectCall.isSource]
  | page page rows =>
    have hitems : (s.paginate page rows).items = s.items := by
      unfold paginate
      split
      · rfl
      · dsimp only
        split <;> rfl
    simp [apply, hitems, SelectCall.isSource]
  | _ => rfl

/-- A select has as many sources as its calls give. -/
theorem countP_isSource_build (d : Dialect) (calls : List (SelectCall σ)) :
    (build d calls).items.countP SourceItem.isSource = calls.countP SelectCall.isSource := by
  have hrun (s : Select σ) : (calls.foldl apply s).items.countP SourceItem.isSource
      = s.items.countP SourceItem.isSource + calls.countP SelectCall.isSource := by
    induction calls generalizing s with
    | nil => rfl
    | cons call calls ih =>
      rw [List.foldl_cons, ih, countP_isSource_apply, List.countP_cons]
      omega
  simpa [build] using hrun { dialect := d }

/-- The select that plain calls build is plain, unless it has two sources. The renamed calls build
the renamed select, or both keep an error. -/
theorem buildsRenamed_build (r : Renaming) (d : Dialect) {calls : List (SelectCall σ)}
    (h : calls.all SelectCall.isPlain) :
    BuildsRenamed r (build d calls) (build d (calls.map (SelectCall.rename r))) := by
  rw [build, build, List.foldl_map]
  refine List.foldl_rel ⟨rfl, none, rfl, rfl⟩ fun call hcall _ _ hs => ?_
  exact hs.apply (List.all_eq_true.1 h call hcall)

theorem render_of_deferred {d : Dialect} {s : Select Rendered} {e : SqlError}
    (h : s.deferred = some e) : s.render d = .error e := by
  simp [render, check, h]

theorem BuildsRenamed.leVia_render {d : Dialect} (hquote : d.quoteIdentifier = doubleQuoted)
    {s s' : Select σ} (h : BuildsRenamed r s s')
    (hsingle : s.items.countP SourceItem.isSource ≤ 1) (f : σ → Rendered) :
    Except.LeVia (Sql.Renamed r) ((s.map f).render d) ((s'.map f).render d) := by
  obtain ⟨hparts, e?, he, rfl⟩ := h
  cases hdeferred : s.deferred with
  | some e =>
    rw [render_of_deferred (s := s.map f) hdeferred]
    exact Except.leVia_error e _
  | none =>
    obtain rfl : e? = none := by simpa [hdeferred] using he
    have hplain : (s.map f).isPlain = true := by
      rw [isPlain_map, isPlain, hparts, Bool.true_and]
      exact decide_eq_true hsingle
    have hkept : { s.rename r with deferred := none } = s.rename r := by
      simp [rename, hdeferred]
    rw [hkept, ← rename_map]
    exact Select.leVia_render hquote hplain

end Select

/-! ### Inserts -/

namespace InsertCall

def rename (r : Renaming) : InsertCall σ → InsertCall σ
  | target source => target (source.rename r)
  | fields names => fields (names.map r)
  | row values => row (values.rename r)
  | record values => record values
  | returning columns => returning (columns.rename r)

/-- Whether all that the call gives is plain. -/
def isPlain : InsertCall σ → Bool
  | target source => source.isPlain
  | fields _ => true
  | row values => values.isPlain
  | record _ => false
  | returning columns => columns.isPlain

end InsertCall

namespace Insert

theorem isPlain_apply {s : Insert σ} (hs : s.isPlain) {call : InsertCall σ} (hcall : call.isPlain) :
    (s.apply call).isPlain := by
  rw [isPlain_iff] at hs ⊢
  obtain ⟨htarget, hrows, hreturning⟩ := hs
  cases call with
  | target source => exact ⟨hcall, hrows, hreturning⟩
  | fields names => exact ⟨htarget, hrows, hreturning⟩
  | row values =>
    have hvalues : values.isPlain = true := hcall
    exact ⟨htarget, by simpa [apply, hvalues] using hrows, hreturning⟩
  | record values => cases hcall
  | returning columns => exact ⟨htarget, hrows, hcall⟩

theorem rename_apply (s : Insert σ) {call : InsertCall σ} (hcall : call.isPlain) :
    (s.apply call).rename r = (s.rename r).apply (call.rename r) := by
  cases call with
  | record values => cases hcall
  | _ => simp [apply, rename, InsertCall.rename]

/-- The insert that plain calls build is plain. -/
theorem isPlain_build (d : Dialect) {calls : List (InsertCall σ)}
    (h : calls.all InsertCall.isPlain) : (build d calls).isPlain :=
  List.foldlRecOn (motive := fun s : Insert σ => s.isPlain) calls apply rfl
    fun _ hs call hcall => isPlain_apply hs (List.all_eq_true.1 h call hcall)

/-- The renamed calls build the renamed insert. -/
theorem rename_build (d : Dialect) {calls : List (InsertCall σ)}
    (h : calls.all InsertCall.isPlain) :
    (build d calls).rename r = build d (calls.map (InsertCall.rename r)) :=
  foldl_commutes (fun s call hcall => rename_apply s (List.all_eq_true.1 h call hcall))
    { dialect := d }

end Insert

/-! ### Updates -/

namespace UpdateCall

def rename (r : Renaming) : UpdateCall σ → UpdateCall σ
  | target source => target (source.rename r)
  | fields names => fields (names.map r)
  | values operands => values (operands.map (Operand.rename r))
  | assign assignments => assign (assignments.map (Assignment.rename r))
  | assignIf name operand? => assignIf (r name) (operand?.map (Operand.rename r))
  | record row => record row
  | filter call => filter (call.rename r)
  | returning columns => returning (columns.rename r)

/-- Whether all that the call gives is plain. -/
def isPlain : UpdateCall σ → Bool
  | target source => source.isPlain
  | fields _ => true
  | values operands => operands.all Operand.isPlain
  | assign assignments => assignments.all fun a => a.operand.isPlain
  | assignIf _ operand? => operand?.all Operand.isPlain
  | record _ => false
  | filter call => call.isPlain
  | returning columns => columns.isPlain

end UpdateCall

namespace Update

/-- A plain update stays plain under more plain assignments. -/
theorem isPlain_append_assignments {s : Update σ} (hs : s.isPlain) {more : List (Assignment σ)}
    (hmore : more.all fun a => a.operand.isPlain) :
    isPlain { s with assignments := s.assignments ++ more } := by
  rw [isPlain_iff] at hs ⊢
  obtain ⟨htarget, hpositional, hassignments, hfilter, hreturning⟩ := hs
  have hall : (s.assignments ++ more).all fun a => a.operand.isPlain := by
    rw [List.all_append, hassignments, hmore, Bool.true_and]
  exact ⟨htarget, hpositional, hall, hfilter, hreturning⟩

theorem isPlain_apply {s : Update σ} (hs : s.isPlain) {call : UpdateCall σ} (hcall : call.isPlain) :
    (s.apply call).isPlain := by
  obtain ⟨htarget, hpositional, hassignments, hfilter, hreturning⟩ := isPlain_iff.1 hs
  cases call with
  | target source =>
    exact isPlain_iff.2 ⟨hcall, hpositional, hassignments, hfilter, hreturning⟩
  | fields names =>
    exact isPlain_iff.2 ⟨htarget, hpositional, hassignments, hfilter, hreturning⟩
  | values operands =>
    exact isPlain_iff.2 ⟨htarget, hcall, hassignments, hfilter, hreturning⟩
  | assign assignments => exact isPlain_append_assignments hs hcall
  | assignIf name operand? =>
    refine isPlain_append_assignments hs ?_
    cases operand? with
    | none => rfl
    | some operand => simpa [UpdateCall.isPlain] using hcall
  | record row => cases hcall
  | filter call =>
    have hfilter : (s.filter.apply call).isPlain := Condition.isPlain_apply hfilter hcall
    exact isPlain_iff.2 ⟨htarget, hpositional, hassignments, hfilter, hreturning⟩
  | returning columns =>
    exact isPlain_iff.2 ⟨htarget, hpositional, hassignments, hfilter, hcall⟩

theorem rename_apply (s : Update σ) {call : UpdateCall σ} (hcall : call.isPlain) :
    (s.apply call).rename r = (s.rename r).apply (call.rename r) := by
  cases call with
  | record row => cases hcall
  | filter call => simp [apply, rename, UpdateCall.rename, Condition.rename_apply]
  | assignIf name operand? =>
    cases operand? <;> simp [apply, rename, UpdateCall.rename, Assignment.rename]
  | _ => simp [apply, rename, UpdateCall.rename]

/-- The update that plain calls build is plain. -/
theorem isPlain_build (d : Dialect) {calls : List (UpdateCall σ)}
    (h : calls.all UpdateCall.isPlain) : (build d calls).isPlain :=
  List.foldlRecOn (motive := fun s : Update σ => s.isPlain) calls apply rfl
    fun _ hs call hcall => isPlain_apply hs (List.all_eq_true.1 h call hcall)

/-- The renamed calls build the renamed update. -/
theorem rename_build (d : Dialect) {calls : List (UpdateCall σ)}
    (h : calls.all UpdateCall.isPlain) :
    (build d calls).rename r = build d (calls.map (UpdateCall.rename r)) :=
  foldl_commutes (fun s call hcall => rename_apply s (List.all_eq_true.1 h call hcall))
    { dialect := d }

end Update

/-! ### Deletes -/

namespace DeleteCall

def rename (r : Renaming) : DeleteCall σ → DeleteCall σ
  | target source => target (source.rename r)
  | filter call => filter (call.rename r)
  | returning columns => returning (columns.rename r)

/-- Whether all that the call gives is plain. -/
def isPlain : DeleteCall σ → Bool
  | target source => source.isPlain
  | filter call => call.isPlain
  | returning columns => columns.isPlain

end DeleteCall

namespace Delete

theorem isPlain_apply {s : Delete σ} (hs : s.isPlain) {call : DeleteCall σ} (hcall : call.isPlain) :
    (s.apply call).isPlain := by
  rw [isPlain_iff] at hs ⊢
  obtain ⟨htarget, hfilter, hreturning⟩ := hs
  cases call with
  | target source => exact ⟨hcall, hfilter, hreturning⟩
  | filter call => exact ⟨htarget, Condition.isPlain_apply hfilter hcall, hreturning⟩
  | returning columns => exact ⟨htarget, hfilter, hcall⟩

theorem rename_apply (s : Delete σ) (call : DeleteCall σ) :
    (s.apply call).rename r = (s.rename r).apply (call.rename r) := by
  cases call with
  | filter call => simp [apply, rename, DeleteCall.rename, Condition.rename_apply]
  | _ => rfl

/-- The delete that plain calls build is plain. -/
theorem isPlain_build (d : Dialect) {calls : List (DeleteCall σ)}
    (h : calls.all DeleteCall.isPlain) : (build d calls).isPlain :=
  List.foldlRecOn (motive := fun s : Delete σ => s.isPlain) calls apply rfl
    fun _ hs call hcall => isPlain_apply hs (List.all_eq_true.1 h call hcall)

/-- The renamed calls build the renamed delete. -/
theorem rename_build (d : Dialect) (calls : List (DeleteCall σ)) :
    (build d calls).rename r = build d (calls.map (DeleteCall.rename r)) :=
  foldl_commutes (fun s call _ => rename_apply s call) { dialect := d }

end Delete

/-! ### Built-in dialects -/

/-- The built-in dialects quote names as usual, and no placeholder has a quote. -/
theorem BuiltinDialect.quotesNames (b : BuiltinDialect) : b.dialect.QuotesNames := by
  have hnumber (index : Nat) : '"' ∉ (toString index).toList :=
    fun h => absurd (isDigit_of_mem_toString h) (by decide)
  cases b with
  | generic | sqlite => exact ⟨rfl, fun _ => (by decide : '"' ∉ "?".toList)⟩
  | postgres => exact ⟨rfl, fun index => by simpa [dialect, Dialect.postgres] using hnumber index⟩

/-! ### Commands -/

/-- The calls that build a command of one statement. -/
inductive Draft where
  | select (calls : List (SelectCall Query))
  | insert (calls : List (InsertCall Query))
  | update (calls : List (UpdateCall Query))
  | delete (calls : List (DeleteCall Query))

namespace Draft

/-- The command that the calls build. -/
def build (d : Dialect) : Draft → Command
  | select calls => .select (.build d calls)
  | insert calls => .insert (.build d calls)
  | update calls => .update (.build d calls)
  | delete calls => .delete (.build d calls)

def rename (r : Renaming) : Draft → Draft
  | select calls => select (calls.map (SelectCall.rename r))
  | insert calls => insert (calls.map (InsertCall.rename r))
  | update calls => update (calls.map (UpdateCall.rename r))
  | delete calls => delete (calls.map (DeleteCall.rename r))

/-- Whether all that the calls give is plain, and a select has at most one source. -/
def isPlain : Draft → Bool
  | select calls => calls.all SelectCall.isPlain && decide (calls.countP SelectCall.isSource ≤ 1)
  | insert calls => calls.all InsertCall.isPlain
  | update calls => calls.all UpdateCall.isPlain
  | delete calls => calls.all DeleteCall.isPlain

theorem dialect_build (d : Dialect) (draft : Draft) : (draft.build d).dialect = d := by
  cases draft with
  | select calls => exact Select.dialect_build d calls
  | insert calls => exact Insert.dialect_build d calls
  | update calls => exact Update.dialect_build d calls
  | delete calls => exact Delete.dialect_build d calls

/-- The SQL of what a plain draft builds is renamed with the draft. -/
theorem leVia_render {d : Dialect} (hquote : d.quoteIdentifier = doubleQuoted) {draft : Draft}
    (h : draft.isPlain) :
    Except.LeVia (Sql.Renamed r) ((draft.build d).render d)
      (((draft.rename r).build d).render d) := by
  cases draft with
  | select calls =>
    obtain ⟨hcalls, hsingle⟩ : calls.all SelectCall.isPlain = true
        ∧ calls.countP SelectCall.isSource ≤ 1 := by
      simpa [isPlain] using h
    have hbuild := Select.buildsRenamed_build r d hcalls
    show Except.LeVia _ (Query.render d (.of (.build d calls)))
      (Query.render d (.of (.build d (calls.map (SelectCall.rename r)))))
    rw [Query.render_of, Query.render_of]
    refine hbuild.leVia_render hquote ?_ (Query.render d)
    rwa [Select.countP_isSource_build]
  | insert calls =>
    have hplain : ((Insert.build d calls).map (Query.render d)).isPlain := by
      rw [Insert.isPlain_map]
      exact Insert.isPlain_build d h
    have hrender := Insert.leVia_render (r := r) hplain
    rw [Insert.rename_map, Insert.rename_build d h] at hrender
    exact hrender
  | update calls =>
    have hplain : ((Update.build d calls).map (Query.render d)).isPlain := by
      rw [Update.isPlain_map]
      exact Update.isPlain_build d h
    have hrender := Update.leVia_render (r := r) hquote hplain
    rw [Update.rename_map, Update.rename_build d h] at hrender
    exact hrender
  | delete calls =>
    have hplain : ((Delete.build d calls).map (Query.render d)).isPlain := by
      rw [Delete.isPlain_map]
      exact Delete.isPlain_build d h
    have hrender := Delete.leVia_render (r := r) hquote hplain
    rw [Delete.rename_map, Delete.rename_build] at hrender
    exact hrender

/-- The characters of a name cannot change the structure of a statement. If a statement on plain
names and bound values is assembled in a built-in dialect, then so is the renamed statement, with
the same values, and its text is read as the same tokens, with the names renamed. -/
theorem lex_assemble_rename (r : Renaming) (b : BuiltinDialect) {draft : Draft}
    (hplain : draft.isPlain) {a : Assembled} (ha : (draft.build b.dialect).assemble = .ok a) :
    ∃ a', ((draft.rename r).build b.dialect).assemble = .ok a'
      ∧ a'.values = a.values
      ∧ Token.lex a'.sql = (Token.lex a.sql).map (Token.rename r) := by
  obtain ⟨sql, hsql, rfl⟩ := (Command.assemble_eq_ok (dialect_build _ _)).1 ha
  obtain ⟨sql', hsql', hrenamed⟩ :=
    leVia_render (r := r) b.quotesNames.quoteIdentifier hplain sql hsql
  exact ⟨_, (Command.assemble_eq_ok (dialect_build _ _)).2 ⟨sql', hsql', rfl⟩,
    hrenamed.values_eq, hrenamed.lex_spell b.quotesNames⟩

/-- A name behind what would end a quoted name and the statement, if it were not quoted itself. -/
def broken (name : String) : String := "x\"; --" ++ name

theorem wellFormedName_broken {name : String} (h : WellFormedName name) :
    WellFormedName (broken name) ∧ broken name ≠ "*" := by
  refine ⟨⟨by simp [broken, String.append_eq_empty_iff], ?_⟩, fun hstar => ?_⟩
  · rw [broken, String.toList_append, List.mem_append, not_or]
    exact ⟨by decide, h.2⟩
  · exact absurd (congrArg (fun s => s.toList.head?) hstar) (by simp [broken])

/-- Every name becomes a broken one. -/
def hostile : Renaming :=
  .ofNames broken (fun _ h => wellFormedName_broken h.1)
    fun _ _ _ _ h => (String.append_right_inj _).1 h

/-- The names of the members of a group, whose table has an alias. -/
def memberNames : Draft :=
  .select [
    .source (.table (.aliased (.name "member") "m") (some "club"))
      (.list [{ name := .name "name" }]),
    .filter (.add .and { table := some (.name "m"), name := .name "group" } "=" (.value (.int 7))),
    .groupBy [{ name := .name "name" }],
    .orderBy { name := .name "name" } .descending]

theorem lex_assemble_rename_hostile :
    memberNames.isPlain = true
      ∧ ∃ a a', (memberNames.build BuiltinDialect.postgres.dialect).assemble = .ok a
        ∧ ((memberNames.rename hostile).build BuiltinDialect.postgres.dialect).assemble = .ok a'
        ∧ a'.values = a.values
        ∧ Token.lex a'.sql = (Token.lex a.sql).map (Token.rename hostile) := by
  have hplain : memberNames.isPlain = true := by decide
  obtain ⟨a, ha⟩ : ∃ a, (memberNames.build BuiltinDialect.postgres.dialect).assemble = .ok a :=
    ⟨_, rfl⟩
  obtain ⟨a', ha', hvalues, hlex⟩ := lex_assemble_rename hostile .postgres hplain ha
  exact ⟨hplain, a, a', ha, ha', hvalues, hlex⟩

end Draft

end SqlAssembly
