import SqlAssembly.Proofs.BracketTree
import Mathlib.Data.Finset.Card
import Mathlib.Order.Interval.Finset.Nat

/-!
# Groups that are left unmatched

A call that closes a group belongs to a call that opens one if it comes later and the brackets of
the calls between the two match (`ConditionCall.Matches`). The calls that belong to no other one are
left unmatched. They are what the balance of a condition is judged by: the groups that are reported
as open are the opening calls that are left, and those that are reported as closed once too often
are the closing calls that are left (`Condition.check_build_unmatched`).
-/

namespace SqlAssembly

variable {σ : Type} {calls : List (ConditionCall σ)} {call : ConditionCall σ} {i j : Nat}
  {connector : Connector}

/-! ### Calls whose brackets match -/

namespace ConditionCall

theorem depth_append (calls calls' : List (ConditionCall σ)) :
    depth (calls ++ calls') = depth calls + depth calls' := by
  simp [depth]

/-- A beginning of two runs is a beginning of the first and one of the second. -/
theorem exists_prefixes {start calls' : List (ConditionCall σ)} (h : start <+: calls ++ calls') :
    ∃ first second, first <+: calls ∧ second <+: calls' ∧ start = first ++ second := by
  rw [List.prefix_iff_eq_take, List.take_append] at h
  exact ⟨_, _, List.take_prefix .., List.take_prefix .., h⟩

namespace WellBracketed

theorem nil : WellBracketed ([] : List (ConditionCall σ)) where
  nonneg start hstart := by simp [List.prefix_nil.1 hstart]
  settled := rfl

theorem add (connector : Connector) (field : Field) (operator : String) (operand : Operand σ) :
    WellBracketed [.add connector field operator operand] where
  nonneg start hstart := by
    obtain rfl | ⟨rest, rfl, hrest⟩ := List.prefix_cons_iff.1 hstart
    · simp
    · simp [List.prefix_nil.1 hrest, opening]
  settled := rfl

theorem append {calls' : List (ConditionCall σ)} (h : WellBracketed calls)
    (h' : WellBracketed calls') : WellBracketed (calls ++ calls') where
  nonneg start hstart := by
    obtain ⟨first, second, hfirst, hsecond, rfl⟩ := exists_prefixes hstart
    rw [depth_append]
    exact Int.add_nonneg (h.nonneg first hfirst) (h'.nonneg second hsecond)
  settled := by rw [depth_append, h.settled, h'.settled, add_zero]

/-- A group around calls whose brackets match. -/
theorem group (connector : Connector) (h : WellBracketed calls) :
    WellBracketed (.openGroup connector :: (calls ++ [.closeGroup])) where
  nonneg start hstart := by
    obtain rfl | ⟨rest, rfl, hrest⟩ := List.prefix_cons_iff.1 hstart
    · simp
    · obtain ⟨first, last, hfirst, hlast, rfl⟩ := exists_prefixes hrest
      have hinner := h.nonneg first hfirst
      -- The last call closes one group at most, which is the one that was opened first.
      have hclose : -1 ≤ depth last := by
        obtain rfl | ⟨none, rfl, hnone⟩ := List.prefix_cons_iff.1 hlast
        · simp
        · simp [List.prefix_nil.1 hnone, opening]
      rw [depth_cons, depth_append, opening]
      omega
  settled := by simp [depth_append, h.settled, opening]

end WellBracketed

/-- Whether brackets match can be decided, as there are finitely many beginnings. -/
instance (calls : List (ConditionCall σ)) : Decidable (WellBracketed calls) :=
  decidable_of_iff ((∀ start ∈ calls.inits, 0 ≤ depth start) ∧ depth calls = 0)
    ⟨fun h => ⟨fun start hstart => h.1 start ((List.mem_inits start calls).2 hstart), h.2⟩,
      fun h => ⟨fun start hstart => h.nonneg start ((List.mem_inits start calls).1 hstart),
        h.settled⟩⟩

/-! ### Pairs of calls -/

/-- The call at place `j` closes the group that the call at place `i` opens: it comes later, and the
brackets of the calls between them match. -/
structure Matches (calls : List (ConditionCall σ)) (i j : Nat) : Prop where
  opens : calls[i]?.map opening = some 1
  closes : calls[j]?.map opening = some (-1)
  lt : i < j
  between : WellBracketed ((calls.take j).drop (i + 1))

instance (calls : List (ConditionCall σ)) (i j : Nat) : Decidable (Matches calls i j) :=
  decidable_of_iff
    (calls[i]?.map opening = some 1 ∧ calls[j]?.map opening = some (-1) ∧ i < j
      ∧ WellBracketed ((calls.take j).drop (i + 1)))
    ⟨fun ⟨hopens, hcloses, hlt, hbetween⟩ => ⟨hopens, hcloses, hlt, hbetween⟩,
      fun ⟨hopens, hcloses, hlt, hbetween⟩ => ⟨hopens, hcloses, hlt, hbetween⟩⟩

/-- The places of the calls that open a group which no call closes. -/
def unmatchedOpens (calls : List (ConditionCall σ)) : Finset Nat :=
  (Finset.range calls.length).filter fun i =>
    calls[i]?.map opening = some 1 ∧ ∀ j < calls.length, ¬ Matches calls i j

/-- The places of the calls that close a group which no call opens. -/
def unmatchedCloses (calls : List (ConditionCall σ)) : Finset Nat :=
  (Finset.range calls.length).filter fun j =>
    calls[j]?.map opening = some (-1) ∧ ∀ i < calls.length, ¬ Matches calls i j

theorem lt_length_of_opening {n : Int} (h : calls[i]?.map opening = some n) :
    i < calls.length := by
  by_contra hi
  rw [List.getElem?_eq_none (by omega)] at h
  cases h

theorem mem_unmatchedOpens :
    i ∈ unmatchedOpens calls ↔ calls[i]?.map opening = some 1 ∧ ∀ j, ¬ Matches calls i j := by
  simp only [unmatchedOpens, Finset.mem_filter, Finset.mem_range]
  constructor
  · rintro ⟨-, hopens, hopen⟩
    exact ⟨hopens, fun j hj => hopen j (lt_length_of_opening hj.closes) hj⟩
  · rintro ⟨hopens, hopen⟩
    exact ⟨lt_length_of_opening hopens, hopens, fun j _ => hopen j⟩

theorem mem_unmatchedCloses :
    j ∈ unmatchedCloses calls ↔ calls[j]?.map opening = some (-1) ∧ ∀ i, ¬ Matches calls i j := by
  simp only [unmatchedCloses, Finset.mem_filter, Finset.mem_range]
  constructor
  · rintro ⟨-, hcloses, hopen⟩
    exact ⟨hcloses, fun i hi => hopen i (lt_length_of_opening hi.opens) hi⟩
  · rintro ⟨hcloses, hopen⟩
    exact ⟨lt_length_of_opening hcloses, hcloses, fun i _ => hopen i⟩

theorem getElem?_concat_of_lt (call : ConditionCall σ) (h : i < calls.length) :
    (calls ++ [call])[i]? = calls[i]? :=
  List.getElem?_append_left h

/-- One more call leaves the pairs before it as they are. -/
theorem matches_concat_iff (h : j < calls.length) :
    Matches (calls ++ [call]) i j ↔ Matches calls i j := by
  have htake : (calls ++ [call]).take j = calls.take j := List.take_append_of_le_length h.le
  constructor
  · rintro ⟨hopens, hcloses, hlt, hbetween⟩
    rw [getElem?_concat_of_lt call (hlt.trans h)] at hopens
    rw [getElem?_concat_of_lt call h] at hcloses
    exact ⟨hopens, hcloses, hlt, htake ▸ hbetween⟩
  · rintro ⟨hopens, hcloses, hlt, hbetween⟩
    rw [← getElem?_concat_of_lt call (hlt.trans h)] at hopens
    rw [← getElem?_concat_of_lt call h] at hcloses
    exact ⟨hopens, hcloses, hlt, htake.symm ▸ hbetween⟩

/-- What the calls from a place on open. -/
theorem depth_drop {n : Int} (h : calls[i]?.map opening = some n) :
    depth (calls.drop i) = n + depth (calls.drop (i + 1)) := by
  obtain ⟨call, hcall, rfl⟩ := Option.map_eq_some_iff.1 h
  obtain ⟨hi, rfl⟩ := List.getElem?_eq_some_iff.1 hcall
  rw [List.drop_eq_getElem_cons hi, depth_cons]

/-! ### The innermost open group -/

/-- The call at place `i` opens a group, and the brackets of the calls behind it match: this group
is what a close comes to next. -/
structure IsInnermost (calls : List (ConditionCall σ)) (i : Nat) : Prop where
  opens : calls[i]?.map opening = some 1
  behind : WellBracketed (calls.drop (i + 1))

/-- A close behind the calls belongs to the call that opened the innermost group. -/
theorem matches_concat_length_iff :
    Matches (calls ++ [call]) i calls.length ↔ call.opening = -1 ∧ IsInnermost calls i := by
  have hlast : (calls ++ [call])[calls.length]?.map opening = some call.opening := by simp
  have htake : (calls ++ [call]).take calls.length = calls := List.take_left
  constructor
  · rintro ⟨hopens, hcloses, hlt, hbetween⟩
    rw [getElem?_concat_of_lt call hlt] at hopens
    rw [hlast, Option.some.injEq] at hcloses
    exact ⟨hcloses, hopens, htake ▸ hbetween⟩
  · rintro ⟨hcloses, hopens, hbehind⟩
    have hlt := lt_length_of_opening hopens
    rw [← getElem?_concat_of_lt call hlt] at hopens
    exact ⟨hopens, hlast.trans (congrArg some hcloses), hlt, htake.symm ▸ hbehind⟩

namespace IsInnermost

/-- What the innermost group holds so far begins with calls whose brackets match, up to any place
behind the call that opened it. -/
theorem nonneg_between (h : IsInnermost calls i) (j : Nat) :
    0 ≤ depth ((calls.take j).drop (i + 1)) := by
  refine h.behind.nonneg _ ?_
  rw [List.drop_take]
  exact List.take_prefix ..

/-- There is no more than one innermost group. -/
theorem unique (h : IsInnermost calls i) (h' : IsInnermost calls j) : i = j := by
  wlog hlt : i < j generalizing i j
  · rcases Nat.lt_trichotomy i j with hij | hij | hij
    · exact absurd hij hlt
    · exact hij
    · exact (this h' h hij).symm
  -- Behind the outer call stands the inner one, whose group nothing closes.
  have hsplit : calls.drop (i + 1) = (calls.take j).drop (i + 1) ++ calls.drop j := by
    have hle : i + 1 ≤ (calls.take j).length := by
      have := lt_length_of_opening h'.opens
      rw [List.length_take]
      omega
    rw [← List.drop_append_of_le_length hle, List.take_append_drop]
  have hdepth := congrArg depth hsplit
  rw [depth_append, h.behind.settled, depth_drop h'.opens, h'.behind.settled] at hdepth
  have hnonneg := h.nonneg_between j
  omega

/-- No call closes the innermost group. -/
theorem not_matches (h : IsInnermost calls i) (j : Nat) : ¬ Matches calls i j := by
  intro hmatches
  have hnonneg := h.nonneg_between (j + 1)
  have hclose : (calls.take (j + 1)).drop (i + 1)
      = (calls.take j).drop (i + 1) ++ calls[j]?.toList := by
    rw [List.take_add_one, List.drop_append_of_le_length]
    have := lt_length_of_opening hmatches.closes
    have := hmatches.lt
    rw [List.length_take]
    omega
  obtain ⟨call, hcall, hopening⟩ := Option.map_eq_some_iff.1 hmatches.closes
  rw [hclose, depth_append, hmatches.between.settled, hcall, Option.toList_some, depth_cons,
    hopening] at hnonneg
  simp at hnonneg

theorem mem_unmatchedOpens (h : IsInnermost calls i) : i ∈ unmatchedOpens calls :=
  ConditionCall.mem_unmatchedOpens.2 ⟨h.opens, h.not_matches⟩

end IsInnermost

/-! ### One more call -/

/-- The place of a call behind the others. -/
theorem getElem?_concat_cases {n : Int} (h : (calls ++ [call])[i]?.map opening = some n) :
    i < calls.length ∧ calls[i]?.map opening = some n ∨ i = calls.length ∧ call.opening = n := by
  have hlt := lt_length_of_opening h
  rw [List.length_append, List.length_singleton] at hlt
  obtain hi | rfl : i < calls.length ∨ i = calls.length := by omega
  · rw [getElem?_concat_of_lt call hi] at h
    exact .inl ⟨hi, h⟩
  · exact .inr ⟨rfl, by simpa using h⟩

/-- A call behind the others leaves the open groups open, but for the innermost one if it closes
it. -/
theorem mem_unmatchedOpens_concat :
    i ∈ unmatchedOpens (calls ++ [call]) ↔
      i ∈ unmatchedOpens calls ∧ ¬ (call.opening = -1 ∧ IsInnermost calls i)
        ∨ i = calls.length ∧ call.opening = 1 := by
  constructor
  · intro h
    obtain ⟨hopens, hopen⟩ := mem_unmatchedOpens.1 h
    obtain ⟨hi, hopens⟩ | hlast := getElem?_concat_cases hopens
    · refine .inl ⟨mem_unmatchedOpens.2 ⟨hopens, fun j hj => ?_⟩, fun hclose => ?_⟩
      · exact hopen j ((matches_concat_iff (lt_length_of_opening hj.closes)).2 hj)
      · exact hopen calls.length (matches_concat_length_iff.2 hclose)
    · exact .inr hlast
  · rintro (⟨h, hclose⟩ | ⟨rfl, hopening⟩)
    · obtain ⟨hopens, hopen⟩ := mem_unmatchedOpens.1 h
      refine mem_unmatchedOpens.2 ⟨?_, fun j hj => ?_⟩
      · rwa [getElem?_concat_of_lt call (lt_length_of_opening hopens)]
      · obtain ⟨hlt, -⟩ | ⟨rfl, -⟩ := getElem?_concat_cases hj.closes
        · exact hopen j ((matches_concat_iff hlt).1 hj)
        · exact hclose (matches_concat_length_iff.1 hj)
    · refine mem_unmatchedOpens.2 ⟨by simp [hopening], fun j hj => ?_⟩
      -- Nothing stands behind the last call.
      have hlt := lt_length_of_opening hj.closes
      have := hj.lt
      rw [List.length_append, List.length_singleton] at hlt
      omega

/-- A call behind the others leaves the closes without a group as they are, and is one of them if it
closes a group where none is open. -/
theorem mem_unmatchedCloses_concat :
    j ∈ unmatchedCloses (calls ++ [call]) ↔
      j ∈ unmatchedCloses calls
        ∨ j = calls.length ∧ call.opening = -1 ∧ ∀ i, ¬ IsInnermost calls i := by
  constructor
  · intro h
    obtain ⟨hcloses, hopen⟩ := mem_unmatchedCloses.1 h
    obtain ⟨hj, hcloses⟩ | ⟨rfl, hclose⟩ := getElem?_concat_cases hcloses
    · refine .inl (mem_unmatchedCloses.2 ⟨hcloses, fun i hi => ?_⟩)
      exact hopen i ((matches_concat_iff hj).2 hi)
    · exact .inr ⟨rfl, hclose, fun i hi => hopen i (matches_concat_length_iff.2 ⟨hclose, hi⟩)⟩
  · rintro (h | ⟨rfl, hclose, hnone⟩)
    · obtain ⟨hcloses, hopen⟩ := mem_unmatchedCloses.1 h
      have hj := lt_length_of_opening hcloses
      refine mem_unmatchedCloses.2 ⟨by rwa [getElem?_concat_of_lt call hj], fun i hi => ?_⟩
      exact hopen i ((matches_concat_iff hj).1 hi)
    · refine mem_unmatchedCloses.2 ⟨by simp [hclose], fun i hi => ?_⟩
      exact hnone i (matches_concat_length_iff.1 hi).2

/-- A call that opens and closes nothing leaves the unmatched calls as they are. -/
theorem unmatched_concat_of_opening_eq_zero (calls : List (ConditionCall σ))
    (h : call.opening = 0) :
    unmatchedOpens (calls ++ [call]) = unmatchedOpens calls
      ∧ unmatchedCloses (calls ++ [call]) = unmatchedCloses calls := by
  constructor
  · ext i
    simp [mem_unmatchedOpens_concat, h]
  · ext j
    simp [mem_unmatchedCloses_concat, h]

/-- A call that opens a group is unmatched at first. -/
theorem unmatched_concat_of_opening_eq_one (calls : List (ConditionCall σ))
    (h : call.opening = 1) :
    unmatchedOpens (calls ++ [call]) = insert calls.length (unmatchedOpens calls)
      ∧ unmatchedCloses (calls ++ [call]) = unmatchedCloses calls := by
  constructor
  · ext i
    simp [mem_unmatchedOpens_concat, h, or_comm]
  · ext j
    simp [mem_unmatchedCloses_concat, h]

/-- A call that closes the innermost group matches the call that opened it. -/
theorem unmatched_concat_of_isInnermost (h : call.opening = -1) (hi : IsInnermost calls i) :
    unmatchedOpens (calls ++ [call]) = (unmatchedOpens calls).erase i
      ∧ unmatchedCloses (calls ++ [call]) = unmatchedCloses calls := by
  constructor
  · ext k
    have hinnermost : IsInnermost calls k ↔ k = i :=
      ⟨fun hk => hk.unique hi, fun hk => hk ▸ hi⟩
    simp [mem_unmatchedOpens_concat, h, hinnermost, and_comm]
  · ext j
    have hsome : ¬ ∀ i, ¬ IsInnermost calls i := fun hnone => hnone i hi
    simp [mem_unmatchedCloses_concat, h, hsome]

/-- A call that closes a group where none is open is unmatched. -/
theorem unmatched_concat_of_not_isInnermost (h : call.opening = -1)
    (hnone : ∀ i, ¬ IsInnermost calls i) :
    unmatchedOpens (calls ++ [call]) = unmatchedOpens calls
      ∧ unmatchedCloses (calls ++ [call]) = insert calls.length (unmatchedCloses calls) := by
  constructor
  · ext i
    simp [mem_unmatchedOpens_concat, h, hnone]
  · ext j
    simp [mem_unmatchedCloses_concat, h, hnone, or_comm]

/-- What is closed without a group stays so, whatever is called later. -/
theorem unmatchedCloses_subset_append (calls more : List (ConditionCall σ)) :
    unmatchedCloses calls ⊆ unmatchedCloses (calls ++ more) := by
  induction more using List.reverseRecOn with
  | nil => rw [List.append_nil]
  | append_singleton more call ih =>
    intro j hj
    rw [← List.append_assoc]
    exact mem_unmatchedCloses_concat.2 (.inl (ih hj))

theorem length_notMem_unmatchedOpens : calls.length ∉ unmatchedOpens calls := by
  simp [unmatchedOpens]

theorem length_notMem_unmatchedCloses : calls.length ∉ unmatchedCloses calls := by
  simp [unmatchedCloses]

end ConditionCall

/-! ### What the builder counts -/

namespace Condition

open ConditionCall

variable {style : ConditionStyle}

theorem build_concat (style : ConditionStyle) (calls : List (ConditionCall σ))
    (call : ConditionCall σ) : build style (calls ++ [call]) = (build style calls).apply call := by
  rw [build, List.foldl_append]
  rfl

/-- Calls whose brackets match leave no group open and close none that they did not open. -/
theorem opened_foldl_apply_of_wellBracketed (h : WellBracketed calls) (c : Condition σ) :
    (calls.foldl apply c).opened.length = c.opened.length := by
  obtain ⟨ts, hread⟩ := h.exists_readAs
  rw [foldl_apply_of_readAs hread]
  generalize BracketTree.toNodes ts = ns
  induction ns generalizing c with
  | nil => rfl
  | cons n ns ih => rw [List.foldl_cons, ih, opened_push]

theorem opened_close (c : Condition σ) : c.close.opened.length = c.opened.length - 1 := by
  unfold close
  cases h : c.opened with
  | nil => simp
  | cons g gs => simp [opened_push]

theorem unopened_close (c : Condition σ) :
    c.close.unopened = if c.opened.length = 0 then c.unopened + 1 else c.unopened := by
  unfold close
  cases h : c.opened with
  | nil => simp
  | cons g gs => simp [unopened_push]

/-- Where a group is open, a call opened the innermost one, and the brackets of the calls behind it
match. -/
theorem exists_openGroup {n : Nat} (h : (build style calls).opened.length = n + 1) :
    ∃ before connector inner, calls = before ++ .openGroup connector :: inner
      ∧ WellBracketed inner ∧ (build style before).opened.length = n := by
  -- By induction on the number of calls: a close takes back the calls of a whole group.
  induction hlength : calls.length using Nat.strongRecOn generalizing n calls with
  | ind length ih =>
    subst hlength
    obtain rfl | ⟨calls, call, rfl⟩ := List.eq_nil_or_concat' calls
    · simp [build] at h
    rw [build_concat] at h
    cases call with
    | add connector field operator operand =>
      rw [apply, opened_push] at h
      obtain ⟨before, outer, inner, rfl, hinner, hbefore⟩ := ih _ (by simp) h rfl
      exact ⟨before, outer, _, by simp, hinner.append (.add connector field operator operand),
        hbefore⟩
    | openGroup connector =>
      exact ⟨calls, connector, [], rfl, .nil, by simpa [apply] using h⟩
    | closeGroup =>
      rw [apply, opened_close] at h
      have hsome : (build style calls).opened.length = n + 1 + 1 := by omega
      obtain ⟨before, connector, inner, rfl, hinner, hbefore⟩ :=
        ih _ (by simp) hsome rfl
      obtain ⟨before', outer, inner', rfl, hinner', hbefore'⟩ := ih _ (by simp) hbefore rfl
      exact ⟨before', outer, _, by simp, hinner'.append (hinner.group connector), hbefore'⟩

/-- A group is open exactly if a call opened an innermost one. -/
theorem opened_ne_zero_iff :
    (build style calls).opened.length ≠ 0 ↔ ∃ i, IsInnermost calls i := by
  constructor
  · intro h
    obtain ⟨n, hn⟩ := Nat.exists_eq_succ_of_ne_zero h
    obtain ⟨before, connector, inner, rfl, hinner, -⟩ := exists_openGroup hn
    refine ⟨before.length, ?_, ?_⟩
    · simp [opening]
    · simpa using hinner
  · rintro ⟨i, hopens, hbehind⟩
    obtain ⟨call, hcall, hopening⟩ := Option.map_eq_some_iff.1 hopens
    obtain ⟨hi, rfl⟩ := List.getElem?_eq_some_iff.1 hcall
    obtain ⟨connector, hcall⟩ : ∃ connector, calls[i] = .openGroup connector := by
      cases h : calls[i] <;> simp [h, opening] at hopening
      exact ⟨_, rfl⟩
    have hsplit : calls = calls.take i ++ .openGroup connector :: calls.drop (i + 1) := by
      rw [← hcall, ← List.drop_eq_getElem_cons hi, List.take_append_drop]
    rw [hsplit, build, List.foldl_append, List.foldl_cons,
      opened_foldl_apply_of_wellBracketed hbehind]
    simp [apply]

/-- The groups that the builder holds open are those that no call closes, and the closes that it
counts are those of groups that no call opens. -/
theorem card_unmatched_build (style : ConditionStyle) (calls : List (ConditionCall σ)) :
    (build style calls).opened.length = (unmatchedOpens calls).card
      ∧ (build style calls).unopened = (unmatchedCloses calls).card := by
  induction calls using List.reverseRecOn with
  | nil => exact ⟨rfl, rfl⟩
  | append_singleton calls call ih =>
    obtain ⟨hopened, hunopened⟩ := ih
    rw [build_concat]
    cases call with
    | add connector field operator operand =>
      have hadd : opening (.add connector field operator operand) = 0 := rfl
      obtain ⟨hopens, hcloses⟩ := unmatched_concat_of_opening_eq_zero calls hadd
      rw [apply, opened_push, unopened_push, hopens, hcloses]
      exact ⟨hopened, hunopened⟩
    | openGroup connector =>
      have hopen : opening (.openGroup connector : ConditionCall σ) = 1 := rfl
      obtain ⟨hopens, hcloses⟩ := unmatched_concat_of_opening_eq_one calls hopen
      rw [hopens, hcloses, Finset.card_insert_of_notMem length_notMem_unmatchedOpens, ← hopened]
      exact ⟨rfl, hunopened⟩
    | closeGroup =>
      rw [apply, opened_close, unopened_close]
      have hclose : opening (.closeGroup : ConditionCall σ) = -1 := rfl
      by_cases hzero : (build style calls).opened.length = 0
      · have hnone : ∀ i, ¬ IsInnermost calls i := fun i hi => opened_ne_zero_iff.2 ⟨i, hi⟩ hzero
        obtain ⟨hopens, hcloses⟩ := unmatched_concat_of_not_isInnermost hclose hnone
        rw [hopens, hcloses, Finset.card_insert_of_notMem length_notMem_unmatchedCloses,
          if_pos hzero, ← hopened, ← hunopened]
        exact ⟨by omega, rfl⟩
      · obtain ⟨i, hi⟩ := opened_ne_zero_iff.1 hzero
        obtain ⟨hopens, hcloses⟩ := unmatched_concat_of_isInnermost hclose hi
        rw [hopens, hcloses, Finset.card_erase_of_mem hi.mem_unmatchedOpens, if_neg hzero, hopened]
        exact ⟨rfl, hunopened⟩

theorem check_eq_ok_iff {c : Condition σ} :
    c.check = .ok () ↔ c.opened.length = 0 ∧ c.unopened = 0 := by
  rw [check]
  split_ifs with hopened hunopened <;> simp_all

/-- The balance of groups is judged by the calls that are left unmatched: by the opening ones, and
where there are none by the closing ones. A close without a group is an error for good. -/
theorem check_build_unmatched (style : ConditionStyle) (calls : List (ConditionCall σ)) :
    let u := (unmatchedOpens calls).card
    let e := (unmatchedCloses calls).card
    ((build style calls).check = .ok () ↔ u = 0 ∧ e = 0)
      ∧ (0 < u → (build style calls).check = .error (.unclosedGroups u)
          ∧ (SqlError.unclosedGroups u).message
            = "Assembly error: " ++ (toString u ++ " clause group(s) opened but not closed"))
      ∧ (u = 0 → 0 < e → (build style calls).check = .error (.unopenedGroups e)
          ∧ (SqlError.unopenedGroups e).message
            = "Assembly error: "
              ++ (toString e ++ " clause group(s) closed without a matching open"))
      ∧ (0 < e → ∀ more, (build style (calls ++ more)).check ≠ .ok ()) := by
  intro u e
  obtain ⟨hopened, hunopened⟩ := card_unmatched_build style calls
  refine ⟨?_, fun hu => ⟨?_, rfl⟩, fun hu he => ⟨?_, rfl⟩, fun he more hmore => ?_⟩
  · rw [check_eq_ok_iff, hopened, hunopened]
  · rw [check, hopened, if_pos (by omega)]
  · rw [check, hopened, hunopened, if_neg (by omega), if_pos (by omega)]
  · have hnone := (check_eq_ok_iff.1 hmore).2
    rw [(card_unmatched_build style (calls ++ more)).2] at hnone
    have hle := Finset.card_le_card (unmatchedCloses_subset_append calls more)
    omega

/-- A group is closed before one is opened: as many opens as closes, and none of them match. -/
def crossedCalls : List (ConditionCall Query) := [.closeGroup, .openGroup .and]

/-- The open group is reported first. Once it is closed, the close in front of it is left. -/
theorem check_build_unmatched_crossed :
    (unmatchedOpens crossedCalls).card = 1 ∧ (unmatchedCloses crossedCalls).card = 1
      ∧ (build .bare crossedCalls).check = .error (.unclosedGroups 1)
      ∧ (build .bare (crossedCalls ++ [.closeGroup])).check = .error (.unopenedGroups 1)
      ∧ ∀ more, (build .bare (crossedCalls ++ more)).check ≠ .ok () := by
  have hopens : (unmatchedOpens crossedCalls).card = 1 := by decide
  have hcloses : (unmatchedCloses crossedCalls).card = 1 := by decide
  have hsettled : (unmatchedOpens (crossedCalls ++ [.closeGroup])).card = 0 := by decide
  have hleft : (unmatchedCloses (crossedCalls ++ [.closeGroup])).card = 1 := by decide
  obtain ⟨-, hunclosed, -, hnever⟩ := check_build_unmatched .bare crossedCalls
  obtain ⟨-, -, hunopened, -⟩ := check_build_unmatched .bare (crossedCalls ++ [.closeGroup])
  rw [hopens] at hunclosed
  rw [hsettled, hleft] at hunopened
  rw [hcloses] at hnever
  exact ⟨hopens, hcloses, (hunclosed (by decide)).1, (hunopened rfl (by decide)).1,
    hnever (by decide)⟩

end Condition

end SqlAssembly
