import Mathlib.Data.List.Induction
import Mathlib.Data.List.Nodup
import SqlAssembly.Cache

/-!
# Texts in the order of their last use

A cache that is kept as one list: the texts under their keys, the most recently used first. What is
used comes to the front, and what is added drives out all but the first entries, as many as the
capacity. A `Cache` holds its texts in one place and their order in another; it keeps a list
(`Cache.Keeps`) if both say what the list says. Each operation on the cache then answers as the
operation on the list does, and keeps the list that the latter leaves.
-/

namespace SqlAssembly

/-! ### Entries in any order -/

namespace Entries

universe u

variable {α : Type u} {k : String} {a : α} {es l : List (String × α)}

theorem get?_eq_none : get? k es = none ↔ k ∉ keys es := by
  induction es with
  | nil => simp [get?]
  | cons e es ih =>
    rw [get?, keys_cons, List.mem_cons, not_or]
    by_cases he : e.1 = k
    · simp [he]
    · simp [he, ih, Ne.symm he]

theorem get?_eq_some (h : (keys es).Nodup) : get? k es = some a ↔ (k, a) ∈ es := by
  induction es with
  | nil => simp [get?]
  | cons e es ih =>
    obtain ⟨he, hes⟩ := List.nodup_cons.1 h
    rw [get?, List.mem_cons]
    by_cases hk : e.1 = k
    · have hmem : (k, a) ∉ es := fun hmem => he (hk ▸ List.mem_map_of_mem (f := Prod.fst) hmem)
      obtain ⟨k', a'⟩ := e
      obtain rfl : k' = k := hk
      simp [hmem, eq_comm]
    · have hne : (k, a) ≠ e := fun heq => hk (heq ▸ rfl)
      rw [if_neg hk, ih hes]
      simp [hne]

theorem erase_of_notMem (h : k ∉ keys es) : erase k es = es := by
  induction es with
  | nil => rfl
  | cons e es ih =>
    rw [keys_cons, List.mem_cons, not_or] at h
    rw [erase, if_neg (Ne.symm h.1), ih h.2]

/-- What is stored under a key stands in the place of what was stored under it before. -/
theorem perm_put (k : String) (a : α) (es : List (String × α)) :
    (put k a es).Perm ((k, a) :: erase k es) := by
  induction es with
  | nil => exact .refl _
  | cons e es ih =>
    rw [put, erase]
    split
    · exact .refl _
    · exact (ih.cons e).trans (.swap ..)

theorem perm_cons_erase (h : get? k es = some a) : es.Perm ((k, a) :: erase k es) := by
  induction es with
  | nil => cases h
  | cons e es ih =>
    rw [get?] at h
    rw [erase]
    split
    · rename_i hk
      rw [if_pos hk] at h
      obtain ⟨k', a'⟩ := e
      obtain rfl : k' = k := hk
      obtain rfl : a' = a := by simpa using h
      exact .refl _
    · rename_i hk
      rw [if_neg hk] at h
      exact ((ih h).cons e).trans (.swap ..)

variable (hperm : es.Perm l) (hnodup : (keys es).Nodup)

include hperm

theorem perm_keys : (keys es).Perm (keys l) := hperm.map Prod.fst

include hnodup

theorem nodup_keys_of_perm : (keys l).Nodup := (perm_keys hperm).nodup_iff.1 hnodup

/-- Where the keys are distinct, a search finds the same in any order of the entries. -/
theorem get?_of_perm (k : String) : get? k es = get? k l := by
  refine Option.ext fun a => ?_
  rw [get?_eq_some hnodup, get?_eq_some (nodup_keys_of_perm hperm hnodup), hperm.mem_iff]

theorem perm_erase (k : String) : (erase k es).Perm (erase k l) := by
  have hget := get?_of_perm hperm hnodup k
  cases hk : get? k es with
  | none =>
    rw [erase_of_notMem (get?_eq_none.1 hk), erase_of_notMem (get?_eq_none.1 (hget ▸ hk))]
    exact hperm
  | some a =>
    have hl := perm_cons_erase (hget ▸ hk)
    exact ((perm_cons_erase hk).symm.trans (hperm.trans hl)).cons_inv

end Entries

/-! ### The list -/

/-- Texts under their keys in the order of their last use, the most recent first. -/
abbrev RecencyList := List (String × String)

namespace RecencyList

/-- Put a text in front, in place of any other under its key. -/
def promote (l : RecencyList) (key text : String) : RecencyList :=
  (key, text) :: Entries.erase key l

/-- Look a key up; one that is found comes to the front. -/
def get (l : RecencyList) (key : String) : Option String × RecencyList :=
  match Entries.get? key l with
  | some text => (some text, l.promote key text)
  | none => (none, l)

/-- Put a text in front and keep the first entries, as many as the capacity. -/
def insert (capacity : Nat) (l : RecencyList) (key text : String) : RecencyList :=
  (l.promote key text).take capacity

/-- Remove the text under a key. -/
def remove (l : RecencyList) (key : String) : Option String × RecencyList :=
  (Entries.get? key l, Entries.erase key l)

/-- The text under a key, computed and put in front if there is none, also once it is computed. -/
def getOrCompute {α : Type} (capacity : Nat) (l : RecencyList) (key : String)
    (compute : RecencyList → (Except SqlError String × α) × RecencyList) :
    (Except SqlError String × Option α) × RecencyList :=
  match l.get key with
  | (some text, l) => ((.ok text, none), l)
  | (none, l) =>
    match compute l with
    | ((.error e, report), l) => ((.error e, some report), l)
    | ((.ok text, report), l) =>
      match l.get key with
      | (some present, l) => ((.ok present, some report), l)
      | (none, l) => ((.ok text, some report), l.insert capacity key text)

variable {l : RecencyList} {key text : String}

theorem length_promote (h : Entries.get? key l = some text) :
    (l.promote key text).length = l.length :=
  (Entries.perm_cons_erase h).length_eq.symm

theorem length_remove_le (l : RecencyList) (key : String) : (l.remove key).2.length ≤ l.length := by
  have hkeys := (List.erase_sublist (a := key) (l := Entries.keys l)).length_le
  rw [← Entries.keys_erase] at hkeys
  simpa [remove, Entries.keys] using hkeys

end RecencyList

/-! ### Caches that keep a list -/

/-- The texts of the cache are those of the list, and its queue is the order of the list. -/
structure Cache.Keeps (c : Cache) (l : RecencyList) : Prop where
  texts : c.texts.entries.Perm l
  queue : c.queue = (Entries.keys l).reverse

namespace Cache

variable {c : Cache} {l : RecencyList}

theorem keeps_new (capacity : Nat) : Keeps { capacity } [] := ⟨.refl _, rfl⟩

namespace Keeps

theorem nodup_keys (h : c.Keeps l) : (Entries.keys l).Nodup :=
  Entries.nodup_keys_of_perm h.texts c.texts.nodup

theorem peek_eq (h : c.Keeps l) (key : String) : c.peek key = Entries.get? key l :=
  Entries.get?_of_perm h.texts c.texts.nodup key

theorem contains_eq (h : c.Keeps l) (key : String) :
    c.contains key = (Entries.get? key l).isSome :=
  congrArg Option.isSome (h.peek_eq key)

theorem size_eq (h : c.Keeps l) : c.size = l.length := h.texts.length_eq

/-- In a queue without repetitions it does not matter from which end a key is looked for. -/
theorem queue_erase (h : c.Keeps l) (key : String) :
    c.queue.erase key = (Entries.keys (Entries.erase key l)).reverse := by
  rw [h.queue, List.Nodup.erase_eq_filter (List.nodup_reverse.2 h.nodup_keys),
    Entries.keys_erase, List.Nodup.erase_eq_filter h.nodup_keys, List.filter_reverse]

theorem put (h : c.Keeps l) (key text : String) :
    (c.texts.put key text).entries.Perm (l.promote key text) :=
  (Entries.perm_put key text _).trans
    ((Entries.perm_erase h.texts c.texts.nodup key).cons (key, text))

theorem erase (h : c.Keeps l) (key : String) :
    Keeps { c with texts := c.texts.erase key, queue := c.queue.erase key }
      (Entries.erase key l) :=
  ⟨Entries.perm_erase h.texts c.texts.nodup key, h.queue_erase key⟩

theorem queue_promote (h : c.Keeps l) (key text : String) :
    c.queue.erase key ++ [key] = (Entries.keys (l.promote key text)).reverse := by
  rw [h.queue_erase, RecencyList.promote, Entries.keys_cons, List.reverse_cons]

theorem mem_queue (h : c.Keeps l) {key text : String} (hkey : Entries.get? key l = some text) :
    key ∈ c.queue := by
  rw [h.queue, List.mem_reverse]
  by_contra hnot
  rw [Entries.get?_eq_none.2 hnot] at hkey
  cases hkey

theorem touch (h : c.Keeps l) {key text : String} (hkey : Entries.get? key l = some text) :
    (c.touch key).Keeps (l.promote key text) := by
  rw [Cache.touch, if_pos (h.mem_queue hkey)]
  exact ⟨h.texts.trans (Entries.perm_cons_erase hkey), h.queue_promote key text⟩

end Keeps

/-! ### Eviction -/

/-- Dropping from the front of the queue leaves the most recent entries, as many as the capacity. -/
theorem dropOldest_spec (capacity : Nat) (l : RecencyList) (texts : OrderedMap String)
    (h : texts.entries.Perm l) :
    (dropOldest capacity texts (Entries.keys l).reverse).1.entries.Perm (l.take capacity)
    ∧ (dropOldest capacity texts (Entries.keys l).reverse).2
        = (Entries.keys (l.take capacity)).reverse := by
  induction l using List.reverseRecOn generalizing texts with
  | nil => exact ⟨by simpa [dropOldest] using h, by simp [dropOldest]⟩
  | append_singleton l e ih =>
    have hqueue : (Entries.keys (l ++ [e])).reverse = e.1 :: (Entries.keys l).reverse := by
      simp [Entries.keys]
    have hsize : texts.size = l.length + 1 := by simpa [OrderedMap.size] using h.length_eq
    rw [hqueue, dropOldest]
    split
    · -- The last entry of the list is the one that goes.
      rename_i hfull
      have hmem : (e.1, e.2) ∈ texts.entries := h.mem_iff.2 (by simp)
      have hfound := Entries.perm_cons_erase ((Entries.get?_eq_some texts.nodup).2 hmem)
      have hrest : (texts.erase e.1).entries.Perm l :=
        (hfound.symm.trans (h.trans (List.perm_append_singleton e l))).cons_inv
      rw [List.take_append_of_le_length (by omega)]
      exact ih _ hrest
    · rename_i hfits
      rw [List.take_of_length_le (by simp; omega), hqueue]
      exact ⟨h, rfl⟩

/-- Eviction keeps the most recent entries, as many as the capacity. -/
theorem Keeps.evict (h : c.Keeps l) : c.evict.Keeps (l.take c.capacity) := by
  unfold Cache.evict
  split
  · rename_i hzero
    rw [hzero]
    exact ⟨.refl _, rfl⟩
  · obtain ⟨htexts, hqueue⟩ := dropOldest_spec c.capacity l c.texts h.texts
    rw [← h.queue] at htexts hqueue
    exact ⟨htexts, hqueue⟩

/-! ### The capacity stays -/

theorem capacity_touch (c : Cache) (key : String) : (c.touch key).capacity = c.capacity := by
  unfold Cache.touch
  split <;> rfl

theorem capacity_evict (c : Cache) : c.evict.capacity = c.capacity := by
  unfold Cache.evict
  split <;> rfl

theorem capacity_remove (c : Cache) (key : String) : (c.remove key).2.capacity = c.capacity := by
  unfold Cache.remove
  split <;> rfl

/-! ### Operations -/

/-- The cache with a text under a key that becomes the most recent one, before the eviction. -/
def stored (c : Cache) (key text : String) : Cache :=
  if c.contains key then touch { c with texts := c.texts.put key text } key
  else { c with texts := c.texts.put key text, queue := c.queue ++ [key] }

theorem insert_eq_evict (c : Cache) (key text : String) :
    c.insert key text = (c.stored key text).evict := by
  unfold insert stored
  split <;> rfl

theorem add_eq_insert {key : String} (h : c.peek key = none) (text : String) :
    c.add key text = c.insert key text := by
  have hkey : c.contains key = false := congrArg Option.isSome h
  rw [insert, if_neg (by simp [hkey])]

theorem capacity_stored (c : Cache) (key text : String) :
    (c.stored key text).capacity = c.capacity := by
  unfold stored
  split
  · exact capacity_touch _ _
  · rfl

theorem capacity_insert (c : Cache) (key text : String) :
    (c.insert key text).capacity = c.capacity := by
  rw [insert_eq_evict, capacity_evict, capacity_stored]

namespace Keeps

theorem stored (h : c.Keeps l) (key text : String) :
    (c.stored key text).Keeps (l.promote key text) := by
  rw [Cache.stored, h.contains_eq]
  cases hkey : Entries.get? key l with
  | none =>
    have hqueue : c.queue ++ [key] = (Entries.keys (l.promote key text)).reverse := by
      rw [← h.queue_promote, List.erase_of_not_mem]
      rw [h.queue, List.mem_reverse]
      exact Entries.get?_eq_none.1 hkey
    exact ⟨h.put key text, hqueue⟩
  | some present =>
    rw [if_pos (by rfl), Cache.touch, if_pos (h.mem_queue hkey)]
    exact ⟨h.put key text, h.queue_promote key text⟩

theorem insert (h : c.Keeps l) (key text : String) :
    (c.insert key text).Keeps (l.insert c.capacity key text) := by
  have hevict := (h.stored key text).evict
  rwa [capacity_stored, ← insert_eq_evict] at hevict

theorem remove (h : c.Keeps l) (key : String) :
    (c.remove key).1 = (l.remove key).1 ∧ (c.remove key).2.Keeps (l.remove key).2 := by
  rw [Cache.remove, RecencyList.remove, h.peek_eq]
  cases hkey : Entries.get? key l with
  | none =>
    rw [Entries.erase_of_notMem (Entries.get?_eq_none.1 hkey)]
    exact ⟨rfl, h⟩
  | some text => exact ⟨rfl, h.erase key⟩

theorem clear (c : Cache) : c.clear.Keeps [] := ⟨.refl _, rfl⟩

end Keeps

end Cache

end SqlAssembly
