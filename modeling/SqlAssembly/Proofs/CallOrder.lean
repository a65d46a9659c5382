import SqlAssembly.Proofs.KeptErrors

/-!
# The order of calls

A select gathers what its calls say into buckets, and a call concerns one bucket alone. What a
bucket holds in the end is what its own calls put there, so that calls for different buckets may
come in any order (`Select.assemble_of_sameBuckets`). Only the error that is kept is shared: which
one is the first depends on the order, but not whether there is one.
-/

namespace SqlAssembly

variable {σ : Type}

/-! ### Buckets -/

/-- Where a select gathers what its calls say. -/
inductive Bucket where
  /-- The entries of the select list and of the `FROM` list. -/
  | sources
  | joins
  | filter
  | groupBy
  | having
  | orderBy
  /-- The rows that are taken: limit, offset and page. -/
  | rows
  | distinct
  | forUpdate
  | unions
  deriving DecidableEq, Repr

namespace SelectCall

/-- The bucket that a call concerns. -/
def bucket : SelectCall σ → Bucket
  | .source .. | .lateral .. | .expressions _ => .sources
  | .join _ => .joins
  | .filter _ => .filter
  | .groupBy _ => .groupBy
  | .having _ => .having
  | .orderBy .. => .orderBy
  | .limit _ | .offset _ | .page .. => .rows
  | .distinct => .distinct
  | .forUpdate => .forUpdate
  | .union .. => .unions

/-- The calls that concern a bucket, in their order. -/
def within (b : Bucket) (calls : List (SelectCall σ)) : List (SelectCall σ) :=
  calls.filter fun call => call.bucket = b

/-- Whether two runs have the same calls in each bucket, in the same order. -/
def SameBuckets (calls calls' : List (SelectCall σ)) : Prop :=
  ∀ b, within b calls = within b calls'

theorem groupFields_of_bucket_ne {call : SelectCall σ} (h : call.bucket ≠ .groupBy) :
    call.groupFields = [] := by
  cases call with
  | groupBy fields => exact absurd rfl h
  | _ => rfl

theorem pageError?_of_bucket_ne {call : SelectCall σ} (h : call.bucket ≠ .rows) :
    call.pageError? = none := by
  cases call with
  | page n rows => exact absurd rfl h
  | _ => rfl

end SelectCall

namespace Select

/-- The select with what one bucket holds, and nothing else. -/
def only (s : Select σ) : Bucket → Select σ
  | .sources => { dialect := s.dialect, items := s.items }
  | .joins => { dialect := s.dialect, joins := s.joins }
  | .filter => { dialect := s.dialect, filter := s.filter }
  | .groupBy => { dialect := s.dialect, groupBy := s.groupBy }
  | .having => { dialect := s.dialect, having := s.having }
  | .orderBy => { dialect := s.dialect, orderBy := s.orderBy }
  | .rows => { dialect := s.dialect, limit := s.limit, offset := s.offset }
  | .distinct => { dialect := s.dialect, distinct := s.distinct }
  | .forUpdate => { dialect := s.dialect, forUpdate := s.forUpdate }
  | .unions => { dialect := s.dialect, unions := s.unions }

/-- A select is what its buckets hold, and the error that is kept. -/
theorem eq_of_only {s s' : Select σ} (h : ∀ b, s.only b = s'.only b)
    (hdeferred : s.deferred = s'.deferred) : s = s' := by
  have hsources := h .sources
  have hjoins := h .joins
  have hfilter := h .filter
  have hgroupBy := h .groupBy
  have hhaving := h .having
  have horderBy := h .orderBy
  have hrows := h .rows
  have hdistinct := h .distinct
  have hforUpdate := h .forUpdate
  have hunions := h .unions
  obtain ⟨⟩ := s
  obtain ⟨⟩ := s'
  simp_all [only]

theorem dialect_group (s : Select σ) (f : Field) : (s.group f).dialect = s.dialect := by
  unfold group
  split <;> rfl

theorem only_group (s : Select σ) (f : Field) {b : Bucket} (h : b ≠ .groupBy) :
    (s.group f).only b = s.only b := by
  unfold group
  split <;> cases b <;> first | rfl | exact absurd rfl h

theorem only_paginate (s : Select σ) (n rows : Int64) {b : Bucket} (h : b ≠ .rows) :
    (s.paginate n rows).only b = s.only b := by
  rw [paginate_eq]
  split <;> cases b <;> first | rfl | exact absurd rfl h

/-- A call leaves the buckets alone that it does not concern. -/
theorem only_apply (s : Select σ) {call : SelectCall σ} {b : Bucket} (h : call.bucket ≠ b) :
    (s.apply call).only b = s.only b := by
  cases call with
  | expressions columns => cases columns <;> cases b <;> first | rfl | exact absurd rfl h
  | groupBy fields =>
    exact foldl_unchanged (·.only b) (fun s f => only_group s f fun hb => h hb.symm) s fields
  | page n rows => exact only_paginate s n rows fun hb => h hb.symm
  | _ => cases b <;> first | rfl | exact absurd rfl h

theorem only_group_congr {s s' : Select σ} (h : s.only .groupBy = s'.only .groupBy) (f : Field) :
    (s.group f).only .groupBy = (s'.group f).only .groupBy := by
  simp only [only, mk.injEq] at h
  simp [only, groupBy_group, dialect_group, h]

/-- What a bucket holds after a call depends on what it held before it alone. -/
theorem only_apply_congr {s s' : Select σ} {call : SelectCall σ}
    (h : s.only call.bucket = s'.only call.bucket) :
    (s.apply call).only call.bucket = (s'.apply call).only call.bucket := by
  cases call with
  | expressions columns => cases columns <;> simp_all [only, SelectCall.bucket, apply]
  | groupBy fields =>
    show (fields.foldl group s).only .groupBy = (fields.foldl group s').only .groupBy
    replace h : s.only .groupBy = s'.only .groupBy := h
    induction fields generalizing s s' with
    | nil => exact h
    | cons f fs ih => exact ih (only_group_congr h f)
  | page n rows =>
    simp only [apply, paginate_eq]
    split <;> simp_all [only, SelectCall.bucket, defer]
  | _ => simp_all [only, SelectCall.bucket, apply]

/-- What a bucket holds after a run of calls is what its own calls put there. -/
theorem only_build (d : Dialect) (b : Bucket) (calls : List (SelectCall σ)) :
    (build d calls).only b = (build d (SelectCall.within b calls)).only b := by
  refine foldl_filter (fun s : Select σ => s.only b) ?_ ?_ rfl calls
  · intro s call hcall
    exact only_apply s (of_decide_eq_false hcall)
  · intro s s' call hcall h
    obtain rfl := of_decide_eq_true hcall
    exact only_apply_congr h

end Select

namespace SelectCall

theorem flatMap_groupFields_within (calls : List (SelectCall σ)) :
    (within .groupBy calls).flatMap groupFields = calls.flatMap groupFields := by
  induction calls with
  | nil => rfl
  | cons call calls ih =>
    unfold within at ih ⊢
    rw [List.filter_cons]
    by_cases hb : call.bucket = .groupBy
    · simp [hb, ih]
    · simp [hb, ih, groupFields_of_bucket_ne hb]

theorem forall_pageError?_within (calls : List (SelectCall σ)) :
    (∀ call ∈ within .rows calls, call.pageError? = none)
      ↔ ∀ call ∈ calls, call.pageError? = none := by
  constructor
  · intro h call hcall
    by_cases hb : call.bucket = .rows
    · exact h call (List.mem_filter.2 ⟨hcall, decide_eq_true hb⟩)
    · exact pageError?_of_bucket_ne hb
  · exact fun h call hcall => h call (List.mem_filter.1 hcall).1

/-- Whether some call defers an error does not depend on how the calls for different buckets are
interleaved. -/
theorem SameBuckets.noneDefers_iff {calls calls' : List (SelectCall σ)}
    (h : SameBuckets calls calls') : NoneDefers calls ↔ NoneDefers calls' := by
  rw [SelectCall.noneDefers_iff, SelectCall.noneDefers_iff, ← flatMap_groupFields_within calls,
    ← flatMap_groupFields_within calls', h .groupBy, ← forall_pageError?_within calls,
    ← forall_pageError?_within calls', h .rows]

end SelectCall

namespace Select

theorem build_of_sameBuckets (d : Dialect) {calls calls' : List (SelectCall σ)}
    (h : SelectCall.SameBuckets calls calls') (hcalls : SelectCall.NoneDefers calls) :
    build d calls = build d calls' := by
  refine eq_of_only (fun b => ?_) ?_
  · rw [only_build, h b, ← only_build]
  · rw [deferred_build_eq_none.2 hcalls, deferred_build_eq_none.2 (h.noneDefers_iff.1 hcalls)]

/-- If some call defers an error, assembling fails with an error about assembling. -/
theorem assemble_of_defers (d : Dialect) {calls : List (SelectCall Query)}
    (h : ¬ SelectCall.NoneDefers calls) :
    ∃ e, (Command.select (build d calls)).assemble = .error e ∧ e.kind = .assembly := by
  obtain ⟨e, he⟩ := Option.ne_none_iff_exists'.1 (mt (deferred_build_eq_none (d := d)).1 h)
  exact ⟨e, Command.assemble_select_of_deferred he, kind_deferred_build d calls e he⟩

/-- Two runs of calls with the same calls in each bucket come to the same if no call defers an
error, and both fail with an error about assembling if one does. -/
theorem assemble_of_sameBuckets (d : Dialect) {calls calls' : List (SelectCall Query)}
    (h : SelectCall.SameBuckets calls calls') :
    (SelectCall.NoneDefers calls ↔ SelectCall.NoneDefers calls')
    ∧ (SelectCall.NoneDefers calls → (Command.select (build d calls)).assemble
        = (Command.select (build d calls')).assemble)
    ∧ (¬ SelectCall.NoneDefers calls →
        (∃ e, (Command.select (build d calls)).assemble = .error e ∧ e.kind = .assembly)
        ∧ ∃ e, (Command.select (build d calls')).assemble = .error e ∧ e.kind = .assembly) := by
  refine ⟨h.noneDefers_iff, ?_, ?_⟩
  · intro hcalls
    rw [build_of_sameBuckets d h hcalls]
  · intro hcalls
    exact ⟨assemble_of_defers d hcalls, assemble_of_defers d (mt h.noneDefers_iff.2 hcalls)⟩

/-- A page and a limit that it replaces, among calls for other buckets. -/
def pageLast : List (SelectCall Query) :=
  [.groupBy [{ name := .name "a" }], .limit 3, .source (.table (.name "t") none) .all, .distinct,
    .page 3 10]

/-- The same calls, with the source after the page. -/
def sourceLast : List (SelectCall Query) :=
  [.distinct, .limit 3, .page 3 10, .source (.table (.name "t") none) .all,
    .groupBy [{ name := .name "a" }]]

/-- A page that cannot be counted, and a field that is grouped by twice. -/
def pageThenGroups : List (SelectCall Query) :=
  [.page 0 10, .groupBy [{ name := .name "a" }, { name := .name "a" }]]

/-- The same calls the other way round. -/
def groupsThenPage : List (SelectCall Query) :=
  [.groupBy [{ name := .name "a" }, { name := .name "a" }], .page 0 10]

theorem assemble_interleaved :
    (SelectCall.SameBuckets pageLast sourceLast
      ∧ (Command.select (build .generic sourceLast)).assemble
        = .ok ⟨"SELECT DISTINCT \"t\".* FROM \"t\" GROUP BY \"a\" LIMIT 10 OFFSET 20", []⟩
      ∧ (Command.select (build .generic pageLast)).assemble
        = (Command.select (build .generic sourceLast)).assemble)
    ∧ SelectCall.SameBuckets pageThenGroups groupsThenPage
      ∧ ∃ e, (Command.select (build .generic groupsThenPage)).assemble = .error e
        ∧ e.kind = .assembly := by
  have hsame : SelectCall.SameBuckets pageLast sourceLast := fun b => by cases b <;> rfl
  have hsame' : SelectCall.SameBuckets pageThenGroups groupsThenPage :=
    fun b => by cases b <;> rfl
  have hnone : SelectCall.NoneDefers pageLast :=
    SelectCall.noneDefers_iff.2 ⟨by decide, by decide⟩
  have hsome : ¬ SelectCall.NoneDefers pageThenGroups :=
    mt SelectCall.noneDefers_iff.1 (by decide)
  exact ⟨⟨hsame, rfl, (assemble_of_sameBuckets .generic hsame).2.1 hnone⟩, hsame',
    ((assemble_of_sameBuckets .generic hsame').2.2 hsome).2⟩

end Select

end SqlAssembly
