import SqlAssembly.Proofs.ErrorKinds
import SqlAssembly.Proofs.RecordLookup

/-!
# The error that is kept

No call in building a statement fails. An error that a call meets is kept until the statement is
assembled, and the first one that is kept stays: no later call clears it or puts another one in its
place, and it is reported before anything else is checked (`Command.assemble_of_first_error`). A
record brings the error that it kept itself while it was filled.
-/

namespace SqlAssembly

variable {σ τ : Type}

/-! ### Errors of calls on selects -/

/-- The first of some fields that was seen already, or that comes a second time. -/
def Field.repeated? (seen : List Field) : List Field → Option Field
  | [] => none
  | f :: fs => if f ∈ seen then some f else repeated? (f :: seen) fs

namespace SelectCall

/-- The fields that a call groups by. -/
def groupFields : SelectCall σ → List Field
  | .groupBy fields => fields
  | _ => []

/-- The error of a call for a page that cannot be counted. -/
def pageError? : SelectCall σ → Option SqlError
  | .page n rows =>
    if n < 1 ∨ rows < 1 then some (.pageNotPositive n rows)
    else if (n.toInt - 1) * rows.toInt ≤ Int64.maxValue.toInt then none
    else some (.pageTooFar n rows)
  | _ => none

/-- The error that a call defers where the calls before it group by the given fields. -/
def error? (grouped : List Field) (call : SelectCall σ) : Option SqlError :=
  ((Field.repeated? grouped call.groupFields).map fun f => .repeatedGroupField f.name).or
    call.pageError?

/-- Whether no call of a run defers an error. -/
def NoneDefers (calls : List (SelectCall σ)) : Prop :=
  ∀ before call after, calls = before ++ call :: after →
    call.error? (before.flatMap groupFields) = none

end SelectCall

namespace Field

theorem repeated?_congr {seen seen' : List Field} (h : ∀ f, f ∈ seen ↔ f ∈ seen')
    (fs : List Field) : repeated? seen fs = repeated? seen' fs := by
  induction fs generalizing seen seen' with
  | nil => rfl
  | cons f fs ih =>
    have hcons : ∀ g, g ∈ f :: seen ↔ g ∈ f :: seen' := by simp [h]
    simp only [repeated?, h f, ih hcons]

/-- No field is repeated exactly if they are distinct, and none of them was seen. -/
theorem repeated?_eq_none {seen fs : List Field} :
    repeated? seen fs = none ↔ fs.Nodup ∧ ∀ f ∈ fs, f ∉ seen := by
  induction fs generalizing seen with
  | nil => simp [repeated?]
  | cons f fs ih =>
    rw [repeated?, List.nodup_cons, List.forall_mem_cons]
    by_cases hf : f ∈ seen
    · simp [hf]
    · rw [if_neg hf, ih]
      simp only [List.mem_cons, not_or]
      constructor
      · rintro ⟨hnodup, hseen⟩
        exact ⟨⟨fun hmem => (hseen f hmem).1 rfl, hnodup⟩, hf, fun g hg => (hseen g hg).2⟩
      · rintro ⟨⟨hmem, hnodup⟩, -, hseen⟩
        exact ⟨hnodup, fun g hg => ⟨fun h => hmem (h ▸ hg), hseen g hg⟩⟩

end Field

/-! ### Selects -/

namespace Select

/-- Grouping by one more field puts it behind the others, unless it is there. -/
theorem groupBy_group (s : Select σ) (f : Field) :
    (s.group f).groupBy = if f ∈ s.groupBy then s.groupBy else s.groupBy ++ [f] := by
  unfold group
  split <;> rfl

theorem mem_groupBy_group {s : Select σ} {f g : Field} :
    g ∈ (s.group f).groupBy ↔ g ∈ f :: s.groupBy := by
  rw [groupBy_group, List.mem_cons]
  split
  · rename_i hf
    exact ⟨.inr, fun h => h.elim (fun hg => hg ▸ hf) id⟩
  · rw [List.mem_append, List.mem_singleton, or_comm]

theorem mem_groupBy_foldl_group {s : Select σ} {fs : List Field} {g : Field} :
    g ∈ (fs.foldl group s).groupBy ↔ g ∈ s.groupBy ∨ g ∈ fs := by
  induction fs generalizing s with
  | nil => simp
  | cons f fs ih =>
    rw [List.foldl_cons, ih, mem_groupBy_group, List.mem_cons, List.mem_cons, or_comm (a := g = f),
      or_assoc]

/-- Of the fields that a call groups by, the first that is repeated is the error that is kept, if
none was kept before. -/
theorem deferred_foldl_group (s : Select σ) (fs : List Field) :
    (fs.foldl group s).deferred
      = s.deferred.or ((Field.repeated? s.groupBy fs).map fun f => .repeatedGroupField f.name) := by
  induction fs generalizing s with
  | nil => simp [Field.repeated?]
  | cons f fs ih =>
    rw [List.foldl_cons, ih, Field.repeated?_congr (fun g => mem_groupBy_group), Field.repeated?]
    by_cases hf : f ∈ s.groupBy
    · rw [if_pos hf, group, if_pos hf, defer]
      cases s.deferred <;> rfl
    · rw [if_neg hf, group, if_neg hf]

theorem paginate_eq (s : Select σ) (n rows : Int64) :
    s.paginate n rows = match (SelectCall.page n rows : SelectCall σ).pageError? with
      | some e => s.defer e
      | none => { s with
          limit := some rows
          offset := some (Int64.ofInt ((n.toInt - 1) * rows.toInt)) } := by
  unfold paginate SelectCall.pageError?
  dsimp only
  split
  · rfl
  · split <;> rfl

/-- A call keeps its error, unless one is kept already. -/
theorem deferred_apply (s : Select σ) (call : SelectCall σ) :
    (s.apply call).deferred = s.deferred.or (call.error? s.groupBy) := by
  cases call with
  | expressions columns =>
    cases columns <;> simp [apply, SelectCall.error?, SelectCall.groupFields, Field.repeated?,
      SelectCall.pageError?]
  | groupBy fields =>
    simp [apply, deferred_foldl_group, SelectCall.error?, SelectCall.groupFields,
      SelectCall.pageError?]
  | page n rows =>
    have herror : (SelectCall.page n rows : SelectCall σ).error? s.groupBy
        = (SelectCall.page n rows : SelectCall σ).pageError? := by
      simp [SelectCall.error?, SelectCall.groupFields, Field.repeated?]
    rw [herror, apply, paginate_eq]
    cases (SelectCall.page n rows : SelectCall σ).pageError? <;> simp [defer]
  | _ => simp [apply, SelectCall.error?, SelectCall.groupFields, Field.repeated?,
      SelectCall.pageError?]

theorem mem_groupBy_apply {s : Select σ} {call : SelectCall σ} {g : Field} :
    g ∈ (s.apply call).groupBy ↔ g ∈ s.groupBy ∨ g ∈ call.groupFields := by
  cases call with
  | expressions columns => cases columns <;> simp [apply, SelectCall.groupFields]
  | groupBy fields => exact mem_groupBy_foldl_group
  | page n rows =>
    rw [apply, paginate_eq]
    split <;> simp [defer, SelectCall.groupFields]
  | _ => simp [apply, SelectCall.groupFields]

variable (d : Dialect)

theorem build_concat (calls : List (SelectCall σ)) (call : SelectCall σ) :
    build d (calls ++ [call]) = (build d calls).apply call := by
  rw [build, List.foldl_append]
  rfl

theorem mem_groupBy_build {calls : List (SelectCall σ)} {g : Field} :
    g ∈ (build d calls).groupBy ↔ g ∈ calls.flatMap SelectCall.groupFields := by
  induction calls using List.reverseRecOn with
  | nil => simp [build]
  | append_singleton calls call ih => rw [build_concat, mem_groupBy_apply, ih]; simp

/-- The error of a further call is judged by the fields that the calls before it group by. -/
theorem deferred_build_concat (calls : List (SelectCall σ)) (call : SelectCall σ) :
    (build d (calls ++ [call])).deferred
      = (build d calls).deferred.or (call.error? (calls.flatMap SelectCall.groupFields)) := by
  rw [build_concat, deferred_apply, SelectCall.error?, SelectCall.error?,
    Field.repeated?_congr fun g => mem_groupBy_build d]

end Select

namespace SelectCall

theorem noneDefers_concat {calls : List (SelectCall σ)} {call : SelectCall σ} :
    NoneDefers (calls ++ [call])
      ↔ NoneDefers calls ∧ call.error? (calls.flatMap groupFields) = none := by
  constructor
  · intro h
    refine ⟨fun before c after hcalls => ?_, h calls call [] rfl⟩
    exact h before c (after ++ [call]) (by simp [hcalls])
  · rintro ⟨hcalls, hlast⟩ before c after h
    induction after using List.reverseRecOn with
    | nil =>
      obtain ⟨rfl, hc⟩ := List.append_inj' h rfl
      obtain rfl : call = c := by simpa using hc
      exact hlast
    | append_singleton after last _ =>
      rw [← List.cons_append, ← List.append_assoc] at h
      exact hcalls before c after (List.append_inj' h rfl).1

/-- No call defers an error exactly if all fields to group by are distinct, and every page can be
counted. -/
theorem noneDefers_iff {calls : List (SelectCall σ)} :
    NoneDefers calls
      ↔ (calls.flatMap groupFields).Nodup ∧ ∀ call ∈ calls, call.pageError? = none := by
  induction calls using List.reverseRecOn with
  | nil => simp [NoneDefers]
  | append_singleton calls call ih =>
    rw [noneDefers_concat, ih, error?, Option.or_eq_none_iff, Option.map_eq_none_iff,
      Field.repeated?_eq_none, List.flatMap_append, List.flatMap_singleton, List.nodup_append,
      List.forall_mem_append, List.forall_mem_singleton]
    constructor
    · rintro ⟨⟨hnodup, hpages⟩, ⟨hnodup', hnew⟩, hpage⟩
      exact ⟨⟨hnodup, hnodup', fun f hf g hg hfg => hnew g hg (hfg ▸ hf)⟩, hpages, hpage⟩
    · rintro ⟨⟨hnodup, hnodup', hnew⟩, hpages, hpage⟩
      exact ⟨⟨hnodup, hpages⟩, ⟨hnodup', fun g hg hf => hnew g hf g hg rfl⟩, hpage⟩

end SelectCall

namespace Select

variable {d : Dialect}

/-- A select keeps no error exactly if no call deferred one. -/
theorem deferred_build_eq_none {calls : List (SelectCall σ)} :
    (build d calls).deferred = none ↔ SelectCall.NoneDefers calls := by
  induction calls using List.reverseRecOn with
  | nil => simp [build, SelectCall.NoneDefers]
  | append_singleton calls call ih =>
    rw [deferred_build_concat, Option.or_eq_none_iff, ih, SelectCall.noneDefers_concat]

/-- An error that is kept stays, whatever calls follow. -/
theorem deferred_foldl_apply {s : Select σ} {e : SqlError} (h : s.deferred = some e)
    (calls : List (SelectCall σ)) : (calls.foldl apply s).deferred = some e := by
  induction calls generalizing s with
  | nil => exact h
  | cons call calls ih => exact ih (by rw [deferred_apply, h, Option.some_or])

/-- The error that is kept is that of the first call that deferred one. -/
theorem deferred_build_of_first {before after : List (SelectCall σ)} {call : SelectCall σ}
    {e : SqlError} (hbefore : SelectCall.NoneDefers before)
    (h : call.error? (before.flatMap SelectCall.groupFields) = some e) :
    (build d (before ++ call :: after)).deferred = some e := by
  have hcall : (build d (before ++ [call])).deferred = some e := by
    rw [deferred_build_concat, deferred_build_eq_none.2 hbefore, h, Option.none_or]
  rw [List.append_cons, build, List.foldl_append]
  exact deferred_foldl_apply hcall after

end Select

/-! ### What comes first in a list -/

theorem findSome?_first {α β : Type} {f : α → Option β} {before after : List α} {a : α} {b : β}
    (hbefore : ∀ x ∈ before, f x = none) (h : f a = some b) :
    (before ++ a :: after).findSome? f = some b := by
  rw [List.findSome?_append, List.findSome?_eq_none_iff.2 hbefore, Option.none_or,
    List.findSome?_cons, h]

/-! ### Record instances -/

/-- A step in filling an instance. -/
inductive InstanceCall where
  /-- The error of an unknown name is kept. -/
  | set (name : String) (v : Value)
  /-- The error of an unknown name is the caller's, and nothing changes. -/
  | trySet (name : String) (v : Value)

/-- The error that a step keeps in an instance of a record type. -/
def InstanceCall.error? (type : RecordType) : InstanceCall → Option SqlError
  | set name _ => if type.column? name = none then some (.unknownAttribute name type.table) else none
  | trySet _ _ => none

namespace RecordInstance

def apply (r : RecordInstance) : InstanceCall → RecordInstance
  | .set name v => r.set name v
  | .trySet name v =>
    match r.set? name v with
    | .ok r' => r'
    | .error _ => r

/-- A new instance after a sequence of steps. -/
def fill (type : RecordType) (calls : List InstanceCall) : RecordInstance :=
  calls.foldl apply { type }

/-- Setting a name fails exactly if it stands for no column, and else changes the values alone. -/
theorem set?_cases (r : RecordInstance) (name : String) (v : Value) :
    (r.type.column? name = none ∧ r.set? name v = .error (.unknownAttribute name r.type.table))
      ∨ (r.type.column? name ≠ none
        ∧ ∃ attr, r.set? name v = .ok { r with values := r.values.put attr v }) := by
  have hsome := @RecordType.isSome_column? r.type name
  unfold set?
  cases hattr : r.type.attribute? name with
  | none =>
    rw [hattr, Option.isSome_none, Option.isSome_eq_false_iff, Option.isNone_iff_eq_none] at hsome
    exact .inl ⟨hsome, rfl⟩
  | some attr =>
    rw [hattr, Option.isSome_some] at hsome
    exact .inr ⟨fun hnone => by simp [hnone] at hsome, attr, rfl⟩

theorem type_apply (r : RecordInstance) (call : InstanceCall) : (r.apply call).type = r.type := by
  cases call with
  | set name v | trySet name v =>
    rcases r.set?_cases name v with ⟨-, h⟩ | ⟨-, attr, h⟩ <;> simp [apply, set, h]

theorem error_apply (r : RecordInstance) (call : InstanceCall) :
    (r.apply call).error = r.error.or (call.error? r.type) := by
  cases call with
  | set name v =>
    rcases r.set?_cases name v with ⟨hnone, h⟩ | ⟨hsome, attr, h⟩
    · simp [apply, set, h, InstanceCall.error?, hnone]
    · simp [apply, set, h, InstanceCall.error?, hsome]
  | trySet name v =>
    rcases r.set?_cases name v with ⟨-, h⟩ | ⟨-, attr, h⟩ <;>
      simp [apply, h, InstanceCall.error?]

/-- An instance keeps the error of the first unknown name that is set. -/
theorem error_fill (type : RecordType) (calls : List InstanceCall) :
    (fill type calls).error = calls.findSome? (InstanceCall.error? type) := by
  -- Along the steps the error that was kept changes, but not the type.
  suffices h : ∀ r : RecordInstance, r.type = type →
      (calls.foldl apply r).error = r.error.or (calls.findSome? (InstanceCall.error? type)) by
    simpa [fill] using h { type } rfl
  induction calls with
  | nil => simp
  | cons call calls ih =>
    rintro r rfl
    rw [List.foldl_cons, ih _ (type_apply r call), error_apply, List.findSome?_cons]
    cases r.error <;> cases call.error? r.type <;> rfl

end RecordInstance

/-! ### Commands -/

namespace Command

variable {e : SqlError}

theorem assemble_of_render_eq_error {c : Command} (h : c.render c.dialect = .error e) :
    c.assemble = .error e := by
  rw [assemble_eq, h, Except.map_error]

theorem assemble_select_of_deferred {s : Select Query} (h : s.deferred = some e) :
    (select s).assemble = .error e := by
  refine assemble_of_render_eq_error ?_
  show (Query.of s).render s.dialect = .error e
  rw [Query.render_of]
  simp [Select.render, Select.check, Select.map, h]

theorem assemble_insert_of_deferred {s : Insert Query} (h : s.deferred = some e) :
    (insert s).assemble = .error e := by
  refine assemble_of_render_eq_error ?_
  show (s.map (Query.render s.dialect)).render = .error e
  simp [Insert.render, Insert.map, h]

theorem assemble_update_of_deferred {s : Update Query} (h : s.deferred = some e) :
    (update s).assemble = .error e := by
  refine assemble_of_render_eq_error ?_
  show (s.map (Query.render s.dialect)).render s.dialect = .error e
  simp [Update.render, Update.map, h]

/-- Once a call on a select defers an error, and once a record that kept an error is added to an
insert or an update, the statement fails with the first such error, whatever calls follow. The error
that a record instance keeps is that of the first unknown name that is set, whatever follows. -/
theorem assemble_of_first_error (d : Dialect) :
    (∀ before call after e, SelectCall.NoneDefers before →
      call.error? (before.flatMap SelectCall.groupFields) = some e →
      (select (.build d (before ++ call :: after))).assemble = .error e)
    ∧ (∀ before row after e, (∀ call ∈ before, call.error? = none) → row.error = some e →
      (insert (.build d (before ++ .record row :: after))).assemble = .error e)
    ∧ (∀ before row after e, (∀ call ∈ before, call.error? = none) → row.error = some e →
      (update (.build d (before ++ .record row :: after))).assemble = .error e)
    ∧ ∀ type before name v after, (∀ call ∈ before, InstanceCall.error? type call = none) →
      type.column? name = none →
      (RecordInstance.fill type (before ++ .set name v :: after)).row.error
        = some (.unknownAttribute name type.table) := by
  refine ⟨?_, ?_, ?_, ?_⟩
  · intro before call after e hbefore hcall
    exact assemble_select_of_deferred (Select.deferred_build_of_first hbefore hcall)
  · intro before row after e hbefore hrow
    refine assemble_insert_of_deferred ?_
    rw [Insert.deferred_build]
    exact findSome?_first hbefore hrow
  · intro before row after e hbefore hrow
    refine assemble_update_of_deferred ?_
    rw [Update.deferred_build]
    exact findSome?_first hbefore hrow
  · intro type before name v after hbefore hname
    show (RecordInstance.fill type _).error = _
    rw [RecordInstance.error_fill]
    exact findSome?_first hbefore (by simp [InstanceCall.error?, hname])

/-- A record of one attribute that is filled by two wrong names. -/
def misspelled : RecordInstance :=
  .fill (({ table := "t" } : RecordType).declare "name" "full_name")
    ([.trySet "nm" (.int 1), .set "name" (.int 2)] ++ .set "nme" (.int 3) ::
      [.trySet "name" (.int 4), .set "nmae" (.int 5)])

theorem assemble_misspelled :
    (select (.build .generic ([.groupBy [{ name := .name "a" }], .page 2 10]
        ++ .groupBy [{ name := .name "b" }, { name := .name "a" }] :: [.page 0 10]))).assemble
      = .error (.repeatedGroupField (.name "a"))
    ∧ misspelled.row.error = some (.unknownAttribute "nme" "t")
    ∧ (insert (.build .generic ([.fields ["name"]]
        ++ .record misspelled.row :: [.fields ["nme"], .returning .all]))).assemble
      = .error (.unknownAttribute "nme" "t")
    ∧ (update (.build .generic ([] ++ .record misspelled.row :: [.fields []]))).assemble
      = .error (.unknownAttribute "nme" "t") := by
  obtain ⟨hselect, hinsert, hupdate, hinstance⟩ := assemble_of_first_error .generic
  have herror : misspelled.row.error = some (.unknownAttribute "nme" "t") :=
    hinstance _ _ _ _ _ (List.forall_mem_cons.2 ⟨rfl, List.forall_mem_singleton.2 rfl⟩) rfl
  refine ⟨hselect _ _ _ _ ?_ rfl, herror, hinsert _ _ _ _ ?_ herror, hupdate _ _ _ _ ?_ herror⟩
  · exact SelectCall.noneDefers_iff.2 ⟨by decide, by decide⟩
  · exact List.forall_mem_singleton.2 rfl
  · exact List.forall_mem_nil _

end Command

end SqlAssembly
