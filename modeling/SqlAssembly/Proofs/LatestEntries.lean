import Mathlib.Data.List.Basic
import Mathlib.Data.List.Induction
import Mathlib.Data.List.Perm.Subperm
import SqlAssembly.OrderedMap

/-!
# Maps filled from a list

A map that is filled from a list of entries holds each key once, in the place where it first comes
in the list, with the value that comes last (`OrderedMap.entries_ofEntries`).
-/

namespace SqlAssembly

universe u

variable {α : Type u}

namespace Entries

/-- One entry for each key of a list: the keys as they first come, each with its last value. -/
def latest (es : List (String × α)) : List (String × α) :=
  (keys es).eraseDups.filterMap fun k => es.reverse.find? fun e => e.1 == k

/-- Whether entries are the latest of a list: one for each key, the keys in the order in which they
first come in the list, each with the value that comes last. -/
structure IsLatest (es latest : List (String × α)) : Prop where
  nodup : (keys latest).Nodup
  mem_keys : ∀ k, k ∈ keys latest ↔ k ∈ keys es
  order : (keys latest).Pairwise fun k l => (keys es).idxOf k < (keys es).idxOf l
  last : ∀ e ∈ latest, ∃ before after, es = before ++ e :: after ∧ e.1 ∉ keys after

/-- When repetitions are dropped, what is left stays in the order in which it first came. -/
theorem pairwise_idxOf_eraseDups (ks : List String) :
    ks.eraseDups.Pairwise fun k l => ks.idxOf k < ks.idxOf l := by
  induction ks using List.reverseRecOn with
  | nil => exact .nil
  | append_singleton ks k ih =>
    -- The places of earlier keys do not change, and a new key comes behind all of them.
    have hplace {l : String} (hl : l ∈ ks.eraseDups) : (ks ++ [k]).idxOf l = ks.idxOf l :=
      List.idxOf_append_of_mem (List.mem_eraseDups.1 hl)
    rw [List.eraseDups_append, List.pairwise_append]
    refine ⟨ih.imp_of_mem fun hl hl' h => ?_, ?_, fun l hl k' hk' => ?_⟩
    · rwa [hplace hl, hplace hl']
    · by_cases hk : k ∈ ks <;> simp [hk, List.removeAll, List.eraseDups_cons]
    · have hk' : k' = k ∧ k ∉ ks := by
        by_cases hk : k ∈ ks <;> simp_all [List.removeAll, List.eraseDups_cons]
      obtain ⟨rfl, hk⟩ := hk'
      rw [hplace hl, List.idxOf_append_of_notMem hk]
      exact Nat.lt_add_right _ (List.idxOf_lt_length_of_mem (List.mem_eraseDups.1 hl))

/-- Entries with distinct keys are their keys with what is stored under them. -/
theorem eq_filterMap_get? {es : List (String × α)} (h : (keys es).Nodup) :
    es = (keys es).filterMap fun k => (get? k es).map fun a => (k, a) := by
  induction es with
  | nil => rfl
  | cons e es ih =>
    obtain ⟨he, hes⟩ := List.nodup_cons.1 h
    have hrest : (keys es).filterMap (fun k => (get? k (e :: es)).map fun a => (k, a))
        = (keys es).filterMap fun k => (get? k es).map fun a => (k, a) := by
      refine List.filterMap_congr fun k hk => ?_
      have hne : ¬ e.1 = k := fun heq => he (heq ▸ hk)
      rw [get?, if_neg hne]
    rw [keys_cons, List.filterMap_cons, hrest, ← ih hes]
    simp [get?]

/-- The latest entries of a list are those whose key does not come again behind them. -/
theorem mem_latest {es : List (String × α)} {e : String × α} :
    e ∈ latest es ↔ ∃ before after, es = before ++ e :: after ∧ e.1 ∉ keys after := by
  rw [latest, List.mem_filterMap]
  constructor
  · rintro ⟨k, _, hfind⟩
    obtain ⟨hk, after, before, hes, hafter⟩ := List.find?_eq_some_iff_append.1 hfind
    obtain rfl : e.1 = k := by simpa using hk
    refine ⟨before.reverse, after.reverse, ?_, ?_⟩
    · rw [← List.reverse_reverse es, hes]
      simp
    · intro hmem
      obtain ⟨e', he', hkey⟩ := List.mem_map.1 hmem
      have hne := hafter e' (List.mem_reverse.1 he')
      simp [hkey] at hne
  · rintro ⟨before, after, rfl, hafter⟩
    refine ⟨e.1, List.mem_eraseDups.2 (by simp [keys]), List.find?_eq_some_iff_append.2 ?_⟩
    refine ⟨by simp, after.reverse, before.reverse, by simp, fun e' he' => ?_⟩
    have hne : e'.1 ≠ e.1 := fun hkey =>
      hafter (List.mem_map.2 ⟨e', List.mem_reverse.1 he', hkey⟩)
    simpa using hne

theorem put_of_notMem {k : String} {es : List (String × α)} (a : α) (h : k ∉ keys es) :
    put k a es = es ++ [(k, a)] := by
  induction es with
  | nil => rfl
  | cons e es ih =>
    rw [keys_cons, List.mem_cons, not_or] at h
    rw [put, if_neg (Ne.symm h.1), ih h.2, List.cons_append]

end Entries

namespace OrderedMap

theorem ofEntries_concat (es : List (String × α)) (e : String × α) :
    ofEntries (es ++ [e]) = (ofEntries es).put e.1 e.2 := by
  simp [ofEntries]

/-- The keys of a list come in the order in which they first come. -/
theorem keys_ofEntries (es : List (String × α)) :
    (ofEntries es).keys = (Entries.keys es).eraseDups := by
  induction es using List.reverseRecOn with
  | nil => rfl
  | append_singleton es e ih =>
    have hkeys : Entries.keys (es ++ [e]) = Entries.keys es ++ [e.1] := by simp [Entries.keys]
    rw [ofEntries_concat, keys_put, ih, hkeys, List.eraseDups_append]
    by_cases hk : e.1 ∈ Entries.keys es <;>
      simp [hk, List.removeAll, List.mem_eraseDups, List.eraseDups_cons]

theorem entries_ofEntries_eq_nil {es : List (String × α)} :
    (ofEntries es).entries = [] ↔ es = [] := by
  constructor
  · intro h
    cases es with
    | nil => rfl
    | cons e es =>
      have hkeys := keys_ofEntries (e :: es)
      rw [keys, h, Entries.keys_cons, List.eraseDups_cons] at hkeys
      cases hkeys
  · rintro rfl
    rfl

/-- Under a key there is the last value of the list. -/
theorem get?_ofEntries (es : List (String × α)) (k : String) :
    (ofEntries es).get? k = (es.reverse.find? fun e => e.1 == k).map Prod.snd := by
  induction es using List.reverseRecOn with
  | nil => rfl
  | append_singleton es e ih =>
    rw [ofEntries_concat, get?_put, ih, List.reverse_append, List.reverse_singleton,
      List.singleton_append]
    by_cases hk : e.1 = k <;> simp [hk]

/-- A map filled from a list holds the latest entries of the list. -/
theorem entries_ofEntries (es : List (String × α)) :
    (ofEntries es).entries = Entries.latest es := by
  rw [Entries.eq_filterMap_get? (ofEntries es).nodup]
  have hkeys : Entries.keys (ofEntries es).entries = (Entries.keys es).eraseDups :=
    keys_ofEntries es
  rw [hkeys, Entries.latest]
  refine List.filterMap_congr fun k _ => ?_
  have hget : Entries.get? k (ofEntries es).entries = _ := get?_ofEntries es k
  rw [hget]
  cases hf : es.reverse.find? fun e => e.1 == k with
  | none => rfl
  | some e =>
    have hk : e.1 = k := by simpa using List.find?_some hf
    simp [← hk]

/-- A map filled from a list holds an entry for each key, where the key first comes, with the value
that comes last. -/
theorem isLatest_ofEntries (es : List (String × α)) :
    Entries.IsLatest es (ofEntries es).entries := by
  have hkeys : Entries.keys (ofEntries es).entries = (Entries.keys es).eraseDups :=
    keys_ofEntries es
  refine ⟨(ofEntries es).nodup, fun k => ?_, ?_, fun e he => ?_⟩
  · rw [hkeys, List.mem_eraseDups]
  · rw [hkeys]
    exact Entries.pairwise_idxOf_eraseDups _
  · rw [entries_ofEntries] at he
    exact Entries.mem_latest.1 he

/-- A map filled from entries with distinct keys holds these entries. -/
theorem entries_ofEntries_of_nodup {es : List (String × α)} (h : (Entries.keys es).Nodup) :
    (ofEntries es).entries = es := by
  induction es using List.reverseRecOn with
  | nil => rfl
  | append_singleton es e ih =>
    have hkeys : Entries.keys (es ++ [e]) = Entries.keys es ++ [e.1] := by simp [Entries.keys]
    rw [hkeys] at h
    have hes := ih (List.nodup_append.1 h).1
    have he : e.1 ∉ Entries.keys es := fun he => (List.nodup_append.1 h).2.2 _ he _ (by simp) rfl
    rw [ofEntries_concat]
    exact (congrArg (Entries.put e.1 e.2) hes).trans (Entries.put_of_notMem e.2 he)

/-- If a map has as many entries as the list that it is filled from, the keys of the list are
distinct. -/
theorem nodup_of_size_ofEntries {es : List (String × α)} (h : (ofEntries es).size = es.length) :
    (Entries.keys es).Nodup := by
  have hsubset : (ofEntries es).keys ⊆ Entries.keys es := by
    intro k hk
    rw [keys_ofEntries] at hk
    exact List.mem_eraseDups.1 hk
  have hlength : (Entries.keys es).length ≤ (ofEntries es).keys.length := by
    simp [keys, Entries.keys, ← h, size]
  have hnodup : (ofEntries es).keys.Nodup := (ofEntries es).nodup
  exact ((hnodup.subperm hsubset).perm_of_length_le hlength).nodup_iff.1 hnodup

end OrderedMap

end SqlAssembly
