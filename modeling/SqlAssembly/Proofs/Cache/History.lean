import SqlAssembly.Proofs.Cache.Clients

/-!
# The states that a cache goes through

A `CacheHistory` is a cache with a record of its past: the states that the operations left, those of
computations included, and the states that eviction began with. A client that works on a history is
answered as by the cache alone. Whatever the client, the queue of every recorded state holds each
key of the texts once and nothing else, the texts fit the capacity, and no eviction finds the queue
empty before they fit (`CacheClient.isConsistent_run`).
-/

namespace SqlAssembly

namespace Cache

variable {capacity : Nat} {c : Cache} {l : RecencyList} {key : String}

/-! ### Consistent states -/

/-- The cache has the capacity, each key of the texts is in the queue once and no other key is, and
there are no more texts than the capacity allows. -/
structure IsConsistent (capacity : Nat) (c : Cache) : Prop where
  capacity_eq : c.capacity = capacity
  queued (key : String) : c.queue.count key = if c.contains key then 1 else 0
  fits : c.size ≤ capacity

theorem Follows.isConsistent (h : Follows capacity c l) : c.IsConsistent capacity := by
  refine ⟨h.capacity_eq, fun key => ?_, h.keeps.size_eq ▸ h.fits⟩
  rw [h.keeps.contains_eq, h.keeps.queue, List.count_reverse]
  cases hkey : Entries.get? key l with
  | none => exact List.count_eq_zero.2 (Entries.get?_eq_none.1 hkey)
  | some text =>
    refine List.count_eq_one_of_mem h.keeps.nodup_keys ?_
    by_contra hnot
    rw [Entries.get?_eq_none.2 hnot] at hkey
    cases hkey

/-! ### Eviction -/

/-- Dropping the longest unused keys comes to the end of the queue while texts are too many. -/
def RunsDry (capacity : Nat) (texts : OrderedMap String) : List String → Prop
  | [] => capacity < texts.size
  | key :: queue => capacity < texts.size ∧ RunsDry capacity (texts.erase key) queue

/-- The queue runs dry exactly if too many texts are left. -/
theorem runsDry_iff (capacity : Nat) (texts : OrderedMap String) (queue : List String) :
    RunsDry capacity texts queue ↔ capacity < (dropOldest capacity texts queue).1.size := by
  induction queue generalizing texts with
  | nil => rfl
  | cons key queue ih =>
    rw [RunsDry, dropOldest]
    split
    · rename_i hfull
      rw [ih, and_iff_right hfull]
    · rename_i hfits
      simp [hfits]

/-- A queue that has a place for each text does not run dry. -/
theorem Keeps.not_runsDry (h : c.Keeps l) (capacity : Nat) :
    ¬ RunsDry capacity c.texts c.queue := by
  rw [runsDry_iff, h.queue, Nat.not_lt]
  have hsize := (dropOldest_spec capacity l c.texts h.texts).1.length_eq
  rw [OrderedMap.size, hsize]
  exact List.length_take_le _ _

end Cache

/-! ### Histories -/

/-- A cache and what was recorded of its past. -/
structure CacheHistory where
  cache : Cache
  /-- The states that operations left, in order. -/
  states : List Cache := []
  /-- The states that eviction began with, in order. -/
  evictions : List Cache := []

namespace CacheHistory

/-- An operation leaves the cache in a state. -/
def leave (h : CacheHistory) (c : Cache) : CacheHistory :=
  { h with cache := c, states := h.states ++ [c] }

/-- Store a text, then evict. -/
def store (h : CacheHistory) (key text : String) : CacheHistory :=
  let c := h.cache.stored key text
  leave { h with evictions := h.evictions ++ [c] } c.evict

/-- The text under a key, computed and stored if there is none. The computation leaves its own
states. -/
def getOrCompute {α : Type} (h : CacheHistory) (key : String)
    (compute : CacheHistory → (Except SqlError String × α) × CacheHistory) :
    (Except SqlError String × Option α) × CacheHistory :=
  match h.cache.peek key with
  | some text => ((.ok text, none), h.leave (h.cache.touch key))
  | none =>
    match compute h with
    | ((.error e, report), h) => ((.error e, some report), h.leave h.cache)
    | ((.ok text, report), h) =>
      match h.cache.peek key with
      | some present => ((.ok present, some report), h.leave (h.cache.touch key))
      | none => ((.ok text, some report), h.store key text)

/-- The operations on a cache, recorded. What asks without changing anything leaves no state. -/
def operations : CacheOperations CacheHistory where
  get h key := ((h.cache.get key).1, h.leave (h.cache.get key).2)
  insert := store
  remove h key := ((h.cache.remove key).1, h.leave (h.cache.remove key).2)
  contains h key := h.cache.contains key
  clear h := h.leave h.cache.clear
  size h := h.cache.size
  isEmpty h := h.cache.isEmpty
  getOrCompute := getOrCompute

/-- The history ends in the cache, which keeps some list; all recorded states are consistent, and no
eviction runs dry. -/
structure EndsIn (capacity : Nat) (h : CacheHistory) (c : Cache) : Prop where
  cache_eq : h.cache = c
  follows : ∃ l, Cache.Follows capacity c l
  states : ∀ s ∈ h.states, s.IsConsistent capacity
  evictions : ∀ s ∈ h.evictions, ¬ Cache.RunsDry s.capacity s.texts s.queue

variable {capacity : Nat} {h : CacheHistory} {c : Cache}

namespace EndsIn

/-- A step that keeps some list again leaves a consistent state. -/
theorem leave (hc : h.EndsIn capacity c) {c' : Cache} {l : RecencyList}
    (hl : Cache.Follows capacity c' l) : (h.leave c').EndsIn capacity c' := by
  refine ⟨rfl, ⟨l, hl⟩, ?_, hc.evictions⟩
  exact List.forall_mem_append.2 ⟨hc.states, List.forall_mem_singleton.2 hl.isConsistent⟩

/-- What is stored is evicted from a queue that does not run dry. -/
theorem store (hc : h.EndsIn capacity c) (key text : String) :
    (h.store key text).EndsIn capacity (c.insert key text) := by
  obtain ⟨rfl, ⟨l, hl⟩, hstates, hevictions⟩ := hc
  have hdry := (hl.keeps.stored key text).not_runsDry (h.cache.stored key text).capacity
  have hevicting : EndsIn capacity
      { h with evictions := h.evictions ++ [h.cache.stored key text] } h.cache :=
    ⟨rfl, ⟨l, hl⟩, hstates,
      List.forall_mem_append.2 ⟨hevictions, List.forall_mem_singleton.2 hdry⟩⟩
  have hinsert := hl.insert key text
  rw [Cache.insert_eq_evict] at hinsert ⊢
  exact hevicting.leave hinsert

theorem get (hc : h.EndsIn capacity c) (key : String) :
    Agree (EndsIn capacity) (operations.get h key) (c.get key) := by
  obtain ⟨l, hl⟩ := hc.follows
  obtain rfl := hc.cache_eq
  exact ⟨rfl, hc.leave (hl.get key).2⟩

theorem remove (hc : h.EndsIn capacity c) (key : String) :
    Agree (EndsIn capacity) (operations.remove h key) (c.remove key) := by
  obtain ⟨l, hl⟩ := hc.follows
  obtain rfl := hc.cache_eq
  exact ⟨rfl, hc.leave (hl.remove key).2⟩

theorem touch (hc : h.EndsIn capacity c) {key text : String} (hkey : c.peek key = some text) :
    (h.leave (c.touch key)).EndsIn capacity (c.touch key) := by
  obtain ⟨l, hl⟩ := hc.follows
  rw [hl.keeps.peek_eq] at hkey
  exact hc.leave (hl.touch hkey)

theorem getOrCompute {f : CacheHistory → (Except SqlError String × List CacheResult) × CacheHistory}
    {g : Cache → (Except SqlError String × List CacheResult) × Cache} (hc : h.EndsIn capacity c)
    (key : String)
    (hcompute : ∀ {h c}, EndsIn capacity h c → Agree (EndsIn capacity) (f h) (g c)) :
    Agree (EndsIn capacity) (h.getOrCompute key f) (c.getOrCompute key g) := by
  obtain rfl := hc.cache_eq
  cases hkey : h.cache.peek key with
  | some text =>
    rw [Cache.getOrCompute_of_peek_eq_some hkey]
    simp only [CacheHistory.getOrCompute, hkey]
    exact ⟨rfl, hc.touch hkey⟩
  | none =>
    obtain ⟨hanswer, hleft⟩ := hcompute hc
    rcases hf : f h with ⟨⟨outcome, report⟩, h'⟩
    rcases hg : g h.cache with ⟨⟨outcome', report'⟩, left⟩
    rw [hf, hg] at hanswer hleft
    cases hanswer
    obtain rfl : h'.cache = left := hleft.cache_eq
    obtain ⟨l, hl⟩ := hleft.follows
    cases outcome with
    | error e =>
      rw [Cache.getOrCompute_of_error hkey hg]
      simp only [CacheHistory.getOrCompute, hkey, hf]
      exact ⟨rfl, hleft.leave hl⟩
    | ok text =>
      rw [Cache.getOrCompute_of_ok hkey hg, Cache.settle]
      simp only [CacheHistory.getOrCompute, hkey, hf]
      cases hpresent : h'.cache.peek key with
      | some present => exact ⟨rfl, hleft.touch hpresent⟩
      | none =>
        have hstore := hleft.store key text
        rw [← Cache.add_eq_insert hpresent] at hstore
        exact ⟨rfl, hstore⟩

end EndsIn

/-- Each recorded operation does what it does to the cache that the history ends in. -/
theorem simulates (capacity : Nat) : operations.Simulates (EndsIn capacity) Cache.operations where
  get hc key := hc.get key
  insert hc key text := hc.store key text
  remove hc key := hc.remove key
  contains hc key := congrArg (Cache.contains · key) hc.cache_eq
  clear hc := by
    obtain ⟨l, hl⟩ := hc.follows
    obtain rfl := hc.cache_eq
    exact hc.leave hl.clear
  size hc := congrArg Cache.size hc.cache_eq
  isEmpty hc := congrArg Cache.isEmpty hc.cache_eq
  getOrCompute hc key hcompute := hc.getOrCompute key hcompute

/-- A history that begins with a new cache. -/
def new (capacity : Nat) : CacheHistory := { cache := { capacity } }

theorem endsIn_new (capacity : Nat) : (new capacity).EndsIn capacity { capacity } :=
  ⟨rfl, ⟨[], Cache.follows_new capacity⟩, List.forall_mem_nil _, List.forall_mem_nil _⟩

end CacheHistory

/-! ### Every state -/

/-- A client that works on a new cache is answered the same, and leaves the same cache, whether its
history is recorded or not. Each state that one of its operations left, in the computations that it
runs as well, is consistent, and no eviction came to the end of the queue with too many texts
left. -/
theorem CacheClient.isConsistent_run (client : CacheClient) (capacity : Nat) :
    let recorded := client.run CacheHistory.operations (.new capacity)
    let run := client.run Cache.operations { capacity }
    recorded.1 = run.1 ∧ recorded.2.cache = run.2 ∧ run.2.IsConsistent capacity
      ∧ (∀ c ∈ recorded.2.states, c.IsConsistent capacity)
      ∧ ∀ c ∈ recorded.2.evictions, ¬ Cache.RunsDry c.capacity c.texts c.queue := by
  intro recorded run
  obtain ⟨hanswers, hleft⟩ := agree_run (CacheHistory.simulates capacity) client
    (CacheHistory.endsIn_new capacity)
  obtain ⟨l, hl⟩ := hleft.follows
  exact ⟨hanswers, hleft.cache_eq, hl.isConsistent, hleft.states, hleft.evictions⟩

/-- A client that fills a cache of one place, and whose computation takes that place in turn. -/
def CacheClient.crowding : CacheClient :=
  .insert "a" "x" (.getOrCompute "k" (.insert "b" "y" (.remove "b" fun _ => .stop (.ok "z")))
    fun _ => .insert "k" "w" (.stop (.ok "")))

/-- The computation leaves two of the states, and each text that is stored is evicted for. -/
theorem CacheClient.isConsistent_run_crowding :
    let recorded := crowding.run CacheHistory.operations (.new 1)
    recorded.2.states.map Cache.queue = [["a"], ["b"], [], ["k"], ["k"]]
      ∧ recorded.2.evictions.map Cache.queue = [["a"], ["a", "b"], ["k"], ["k"]]
      ∧ (∃ c ∈ recorded.2.states, c.queue = ["b"] ∧ c.IsConsistent 1)
      ∧ ∃ c ∈ recorded.2.evictions, c.queue = ["a", "b"]
        ∧ ¬ Cache.RunsDry c.capacity c.texts c.queue := by
  intro recorded
  obtain ⟨-, -, -, hstates, hevictions⟩ := isConsistent_run crowding 1
  have hstate : ∃ c ∈ recorded.2.states, c.queue = ["b"] := ⟨_, .tail _ (.head _), rfl⟩
  have heviction : ∃ c ∈ recorded.2.evictions, c.queue = ["a", "b"] :=
    ⟨_, .tail _ (.head _), rfl⟩
  obtain ⟨c, hc, hqueue⟩ := hstate
  obtain ⟨c', hc', hqueue'⟩ := heviction
  exact ⟨rfl, rfl, ⟨c, hc, hqueue, hstates c hc⟩, c', hc', hqueue', hevictions c' hc'⟩

end SqlAssembly
