import SqlAssembly.Proofs.Cache.Recency

/-!
# Clients of a cache

A client works on a cache operation by operation, and what it does next may depend on all that was
answered before. So may a computation of a text, which is a client too. Whatever the client, the
answers of a `Cache` are those of a list of texts in the order of their last use
(`CacheClient.answers_eq`), and a computation may do to the cache whatever it likes
(`Cache.getOrCompute_of_reachable`).
-/

namespace SqlAssembly

/-! ### Clients -/

/-- The operations on a cache whose states are of a given type. -/
structure CacheOperations (S : Type) where
  get : S → String → Option String × S
  insert : S → String → String → S
  remove : S → String → Option String × S
  contains : S → String → Bool
  clear : S → S
  size : S → Nat
  isEmpty : S → Bool
  getOrCompute : S → String → (S → (Except SqlError String × List CacheResult) × S) →
    (Except SqlError String × Option (List CacheResult)) × S

/-- An operation and what is done next, for every answer. A client ends in an outcome, which counts
if it was run to compute a text. -/
inductive CacheClient where
  | stop (outcome : Except SqlError String)
  | get (key : String) (next : Option String → CacheClient)
  | insert (key text : String) (next : CacheClient)
  | remove (key : String) (next : Option String → CacheClient)
  | contains (key : String) (next : Bool → CacheClient)
  | clear (next : CacheClient)
  | size (next : Nat → CacheClient)
  | isEmpty (next : Bool → CacheClient)
  | getOrCompute (key : String) (computation : CacheClient) (next : CacheResult → CacheClient)

namespace CacheClient

variable {S T : Type}

/-- A run with one more answer before it. -/
def answering (r : CacheResult) (run : (Except SqlError String × List CacheResult) × S) :
    (Except SqlError String × List CacheResult) × S :=
  ((run.1.1, r :: run.1.2), run.2)

/-- Run a client: its outcome, the answers that it got, and the state that it leaves. -/
def run (ops : CacheOperations S) :
    CacheClient → S → (Except SqlError String × List CacheResult) × S
  | stop outcome, s => ((outcome, []), s)
  | get key next, s =>
    let (t, s) := ops.get s key
    answering (.text t) (run ops (next t) s)
  | insert key text next, s => answering (.text (some text)) (run ops next (ops.insert s key text))
  | remove key next, s =>
    let (t, s) := ops.remove s key
    answering (.text t) (run ops (next t) s)
  | contains key next, s =>
    answering (.flag (ops.contains s key)) (run ops (next (ops.contains s key)) s)
  | clear next, s => answering .done (run ops next (ops.clear s))
  | size next, s => answering (.count (ops.size s)) (run ops (next (ops.size s)) s)
  | isEmpty next, s => answering (.flag (ops.isEmpty s)) (run ops (next (ops.isEmpty s)) s)
  | getOrCompute key computation next, s =>
    let ((outcome, body), s) := ops.getOrCompute s key (run ops computation)
    answering (.computed body outcome) (run ops (next (.computed body outcome)) s)

end CacheClient

/-! ### Simulation -/

/-- Two steps give the same and leave related states. -/
def Agree {α S T : Type} (R : S → T → Prop) (x : α × S) (y : α × T) : Prop :=
  x.1 = y.1 ∧ R x.2 y.2

/-- On related states the operations answer the same and leave related states, computations being
given that do so. -/
structure CacheOperations.Simulates {S T : Type} (R : S → T → Prop) (ops : CacheOperations S)
    (ops' : CacheOperations T) : Prop where
  get {s t} (h : R s t) (key : String) : Agree R (ops.get s key) (ops'.get t key)
  insert {s t} (h : R s t) (key text : String) : R (ops.insert s key text) (ops'.insert t key text)
  remove {s t} (h : R s t) (key : String) : Agree R (ops.remove s key) (ops'.remove t key)
  contains {s t} (h : R s t) (key : String) : ops.contains s key = ops'.contains t key
  clear {s t} (h : R s t) : R (ops.clear s) (ops'.clear t)
  size {s t} (h : R s t) : ops.size s = ops'.size t
  isEmpty {s t} (h : R s t) : ops.isEmpty s = ops'.isEmpty t
  getOrCompute {s t f g} (h : R s t) (key : String)
    (hcompute : ∀ {s t}, R s t → Agree R (f s) (g t)) :
    Agree R (ops.getOrCompute s key f) (ops'.getOrCompute t key g)

namespace CacheClient

variable {S T : Type} {R : S → T → Prop}

theorem agree_answering {r : CacheResult}
    {x : (Except SqlError String × List CacheResult) × S}
    {y : (Except SqlError String × List CacheResult) × T} (h : Agree R x y) :
    Agree R (answering r x) (answering r y) := by
  obtain ⟨⟨outcome, answers⟩, s⟩ := x
  obtain ⟨⟨outcome', answers'⟩, t⟩ := y
  obtain ⟨heq, hR⟩ := h
  cases heq
  exact ⟨rfl, hR⟩

/-- What the operations do one by one they do in every run. -/
theorem agree_run {ops : CacheOperations S} {ops' : CacheOperations T}
    (hops : ops.Simulates R ops') (client : CacheClient) {s : S} {t : T} (h : R s t) :
    Agree R (client.run ops s) (client.run ops' t) := by
  induction client generalizing s t with
  | stop outcome => exact ⟨rfl, h⟩
  | get key next ih =>
    obtain ⟨hanswer, hR⟩ := hops.get h key
    simp only [run, hanswer]
    exact agree_answering (ih _ hR)
  | insert key text next ih => exact agree_answering (ih (hops.insert h key text))
  | remove key next ih =>
    obtain ⟨hanswer, hR⟩ := hops.remove h key
    simp only [run, hanswer]
    exact agree_answering (ih _ hR)
  | contains key next ih =>
    simp only [run, hops.contains h key]
    exact agree_answering (ih _ h)
  | clear next ih => exact agree_answering (ih (hops.clear h))
  | size next ih =>
    simp only [run, hops.size h]
    exact agree_answering (ih _ h)
  | isEmpty next ih =>
    simp only [run, hops.isEmpty h]
    exact agree_answering (ih _ h)
  | getOrCompute key computation next ih ihnext =>
    obtain ⟨hanswer, hR⟩ := hops.getOrCompute h key ih
    simp only [run, hanswer]
    exact agree_answering (ihnext _ hR)

end CacheClient

/-! ### Caches -/

/-- The operations on a cache. -/
def Cache.operations : CacheOperations Cache where
  get := Cache.get
  insert := Cache.insert
  remove := Cache.remove
  contains := Cache.contains
  clear := Cache.clear
  size := Cache.size
  isEmpty := Cache.isEmpty
  getOrCompute := Cache.getOrCompute

/-- The operations on a list of texts in the order of their last use. -/
def RecencyList.operations (capacity : Nat) : CacheOperations RecencyList where
  get := RecencyList.get
  insert := RecencyList.insert capacity
  remove := RecencyList.remove
  contains l key := (Entries.get? key l).isSome
  clear _ := []
  size := List.length
  isEmpty := List.isEmpty
  getOrCompute := RecencyList.getOrCompute capacity

/-- The cache has the capacity and keeps the list, which fits it. -/
structure Cache.Follows (capacity : Nat) (c : Cache) (l : RecencyList) : Prop where
  keeps : c.Keeps l
  capacity_eq : c.capacity = capacity
  fits : l.length ≤ capacity

namespace Cache

variable {capacity : Nat} {c : Cache} {l : RecencyList} {key : String}

theorem follows_new (capacity : Nat) : Follows capacity { capacity } [] :=
  ⟨keeps_new capacity, rfl, Nat.zero_le _⟩

/-! #### Computing a text -/

section Compute

variable {α : Type} {compute : Cache → (Except SqlError String × α) × Cache} {left : Cache}
  {report : α} {text : String}

theorem getOrCompute_of_peek_eq_some (h : c.peek key = some text) :
    c.getOrCompute key compute = ((.ok text, none), c.touch key) := by
  simp [getOrCompute, get, h]

theorem getOrCompute_of_error {e : SqlError} (h : c.peek key = none)
    (hcompute : compute c = ((.error e, report), left)) :
    c.getOrCompute key compute = ((.error e, some report), left) := by
  simp [getOrCompute, get, h, hcompute]

theorem getOrCompute_of_ok (h : c.peek key = none)
    (hcompute : compute c = ((.ok text, report), left)) :
    c.getOrCompute key compute
      = ((.ok (left.settle key text).1, some report), (left.settle key text).2) := by
  simp [getOrCompute, get, h, hcompute]

end Compute

/-! #### Operations -/

namespace Follows

variable (h : Follows capacity c l)

include h

theorem touch {text : String} (hkey : Entries.get? key l = some text) :
    Follows capacity (c.touch key) (l.promote key text) := by
  refine ⟨h.keeps.touch hkey, by rw [capacity_touch, h.capacity_eq], ?_⟩
  rw [RecencyList.length_promote hkey]
  exact h.fits

theorem get (key : String) : Agree (Follows capacity) (c.get key) (l.get key) := by
  rw [Cache.get, RecencyList.get, h.keeps.peek_eq]
  cases hkey : Entries.get? key l with
  | none => exact ⟨rfl, h⟩
  | some text => exact ⟨rfl, h.touch hkey⟩

theorem insert (key text : String) :
    Follows capacity (c.insert key text) (l.insert capacity key text) := by
  obtain ⟨hkeeps, rfl, -⟩ := h
  exact ⟨hkeeps.insert key text, capacity_insert .., List.length_take_le ..⟩

theorem add (hkey : Entries.get? key l = none) (text : String) :
    Follows capacity (c.add key text) (l.insert capacity key text) := by
  rw [add_eq_insert ((h.keeps.peek_eq key).trans hkey)]
  exact h.insert key text

theorem remove (key : String) : Agree (Follows capacity) (c.remove key) (l.remove key) := by
  obtain ⟨hkeeps, hcapacity, hfits⟩ := h
  obtain ⟨hanswer, hkeeps⟩ := hkeeps.remove key
  refine ⟨hanswer, hkeeps, by rw [capacity_remove, hcapacity], ?_⟩
  exact Nat.le_trans (RecencyList.length_remove_le l key) hfits

theorem clear : Follows capacity c.clear [] :=
  ⟨.clear c, h.capacity_eq, Nat.zero_le _⟩

theorem isEmpty : c.isEmpty = l.isEmpty := by
  rw [Cache.isEmpty, h.keeps.size_eq]
  cases l <;> rfl

theorem getOrCompute {α : Type} {f : Cache → (Except SqlError String × α) × Cache}
    {g : RecencyList → (Except SqlError String × α) × RecencyList} (key : String)
    (hcompute : ∀ {c l}, Follows capacity c l → Agree (Follows capacity) (f c) (g l)) :
    Agree (Follows capacity) (c.getOrCompute key f) (l.getOrCompute capacity key g) := by
  have hpeek := h.keeps.peek_eq key
  cases hkey : Entries.get? key l with
  | some text =>
    rw [hkey] at hpeek
    rw [getOrCompute_of_peek_eq_some hpeek]
    simp only [RecencyList.getOrCompute, RecencyList.get, hkey]
    exact ⟨rfl, h.touch hkey⟩
  | none =>
    rw [hkey] at hpeek
    obtain ⟨hanswer, hleft⟩ := hcompute h
    rcases hf : f c with ⟨⟨outcome, report⟩, left⟩
    rcases hg : g l with ⟨⟨outcome', report'⟩, left'⟩
    rw [hf, hg] at hanswer hleft
    cases hanswer
    cases outcome with
    | error e =>
      rw [getOrCompute_of_error hpeek hf]
      simp only [RecencyList.getOrCompute, RecencyList.get, hkey, hg]
      exact ⟨rfl, hleft⟩
    | ok text =>
      rw [getOrCompute_of_ok hpeek hf, settle, hleft.keeps.peek_eq]
      simp only [RecencyList.getOrCompute, RecencyList.get, hkey, hg]
      cases hpresent : Entries.get? key left' with
      | some present => exact ⟨rfl, hleft.touch hpresent⟩
      | none => exact ⟨rfl, hleft.add hpresent text⟩

end Follows

/-- Each operation on a cache does what it does to the list that the cache follows. -/
theorem simulates (capacity : Nat) :
    operations.Simulates (Follows capacity) (RecencyList.operations capacity) where
  get h key := h.get key
  insert h key text := h.insert key text
  remove h key := h.remove key
  contains h key := h.keeps.contains_eq key
  clear h := h.clear
  size h := h.keeps.size_eq
  isEmpty h := h.isEmpty
  getOrCompute h key hcompute := h.getOrCompute key hcompute

end Cache

/-! ### Calls as data -/

namespace CacheClient

mutual

/-- The client that makes a call and goes on in the same way whatever the answer is. -/
def ofCall : CacheCall → CacheClient → CacheClient
  | .get key, next => .get key fun _ => next
  | .insert key text, next => .insert key text next
  | .remove key, next => .remove key fun _ => next
  | .contains key, next => .contains key fun _ => next
  | .clear, next => .clear next
  | .size, next => .size fun _ => next
  | .isEmpty, next => .isEmpty fun _ => next
  | .getOrCompute key body outcome, next => .getOrCompute key (ofCalls body outcome) fun _ => next

/-- The client that makes calls one after the other. -/
def ofCalls : List CacheCall → Except SqlError String → CacheClient
  | [], outcome => .stop outcome
  | call :: calls, outcome => ofCall call (ofCalls calls outcome)

end

mutual

theorem run_ofCall (call : CacheCall) (next : CacheClient) (c : Cache) :
    (ofCall call next).run Cache.operations c
      = answering (c.perform call).1 (next.run Cache.operations (c.perform call).2) := by
  match call with
  | .get _ | .insert _ _ | .remove _ | .contains _ | .clear | .size | .isEmpty => rfl
  | .getOrCompute key body outcome =>
    have hbody : (ofCalls body outcome).run Cache.operations
        = fun c => ((outcome, (c.performAll body).1), (c.performAll body).2) :=
      funext (run_ofCalls body outcome)
    simp only [ofCall, run, hbody]
    rfl

/-- To perform calls is to run the client that makes them. -/
theorem run_ofCalls (calls : List CacheCall) (outcome : Except SqlError String) (c : Cache) :
    (ofCalls calls outcome).run Cache.operations c
      = ((outcome, (c.performAll calls).1), (c.performAll calls).2) := by
  match calls with
  | [] => rfl
  | call :: calls =>
    rw [ofCalls, run_ofCall call, run_ofCalls calls]
    rfl

end

end CacheClient

/-! ### Every answer -/

/-- All that a client is answered by a new cache, in the computations that it runs as well, and what
it ends in are as with a list of texts in the order of their last use. -/
theorem CacheClient.answers_eq (client : CacheClient) (capacity : Nat) :
    (client.run Cache.operations { capacity }).1
      = (client.run (RecencyList.operations capacity) []).1 :=
  (agree_run (Cache.simulates capacity) client (Cache.follows_new capacity)).1

/-! ### Computations that use the cache -/

namespace Cache

/-- The states that a new cache comes to when clients work on it. -/
inductive Reachable : Cache → Prop
  | new (capacity : Nat) : Reachable { capacity }
  | run {c : Cache} (client : CacheClient) (h : Reachable c) :
    Reachable (client.run operations c).2

theorem Reachable.follows {c : Cache} (h : c.Reachable) : ∃ l, Follows c.capacity c l := by
  induction h with
  | new capacity => exact ⟨[], follows_new capacity⟩
  | run client _ ih =>
    obtain ⟨l, hl⟩ := ih
    have hrun := (CacheClient.agree_run (simulates _) client hl).2
    exact ⟨_, hrun.capacity_eq ▸ hrun⟩

/-- What a computation leads to comes to the front of what it left. -/
theorem Follows.settle {capacity : Nat} {c : Cache} {l : RecencyList} (h : Follows capacity c l)
    (key text : String) :
    (c.settle key text).1 = (c.peek key).getD text
    ∧ Follows capacity (c.settle key text).2
        ((l.promote key ((c.peek key).getD text)).take capacity) := by
  rw [Cache.settle, h.keeps.peek_eq]
  cases hkey : Entries.get? key l with
  | some present =>
    refine ⟨rfl, ?_⟩
    rw [Option.getD_some, List.take_of_length_le]
    · exact h.touch hkey
    · rw [RecencyList.length_promote hkey]
      exact h.fits
  | none => exact ⟨rfl, h.add hkey text⟩

theorem Keeps.eq_new {c : Cache} (h : c.Keeps []) : c = { capacity := c.capacity } := by
  obtain ⟨capacity, ⟨entries, nodup⟩, queue⟩ := c
  obtain ⟨htexts, hqueue⟩ := h
  obtain rfl : entries = [] := List.perm_nil.1 htexts
  obtain rfl : queue = [] := hqueue
  rfl

theorem Keeps.front {c : Cache} {l : RecencyList} {key text : String}
    (h : c.Keeps ((key, text) :: l)) :
    c.peek key = some text ∧ ∃ older, c.queue = older ++ [key] ∧ key ∉ older := by
  refine ⟨by rw [h.peek_eq, Entries.get?, if_pos rfl], (Entries.keys l).reverse, ?_, ?_⟩
  · rw [h.queue, Entries.keys_cons, List.reverse_cons]
  · rw [List.mem_reverse]
    exact (List.nodup_cons.1 h.nodup_keys).1

/-- A computation may use the cache in any way. It is not run for a key that is there. If it fails,
the cache stays as it left it; otherwise a text that it left under the key is kept and given, and
only if there is none its own. The key is the most recent one then, once in the queue; but a cache
of capacity zero is empty. -/
theorem getOrCompute_of_reachable {c : Cache} (hc : c.Reachable) (key : String)
    (computation : CacheClient) :
    (∀ text, c.peek key = some text →
      ∀ compute : Cache → (Except SqlError String × List CacheResult) × Cache,
        c.getOrCompute key compute = ((.ok text, none), c.touch key))
    ∧ (c.peek key = none → ∀ e report left,
      computation.run operations c = ((.error e, report), left) →
        c.getOrCompute key (computation.run operations) = ((.error e, some report), left))
    ∧ (c.peek key = none → ∀ computed report left,
      computation.run operations c = ((.ok computed, report), left) →
        ∃ text after, text = (left.peek key).getD computed
          ∧ c.getOrCompute key (computation.run operations) = ((.ok text, some report), after)
          ∧ (0 < c.capacity →
            after.peek key = some text ∧ ∃ older, after.queue = older ++ [key] ∧ key ∉ older)
          ∧ (c.capacity = 0 → after = { capacity := 0 })) := by
  refine ⟨fun text hkey compute => getOrCompute_of_peek_eq_some hkey,
    fun hkey e report left => getOrCompute_of_error hkey, fun hkey computed report left hrun => ?_⟩
  obtain ⟨l, hl⟩ := hc.follows
  have hleft := (CacheClient.agree_run (simulates _) computation hl).2
  rw [hrun] at hleft
  obtain ⟨htext, hafter⟩ := hleft.settle key computed
  refine ⟨_, _, htext, getOrCompute_of_ok hkey hrun, fun hpositive => ?_, fun hzero => ?_⟩
  · rw [htext]
    obtain ⟨n, hn⟩ := Nat.exists_eq_add_one.2 hpositive
    have hkeeps := hafter.keeps
    rw [hn, RecencyList.promote, List.take_succ_cons] at hkeeps
    exact hkeeps.front
  · have hkeeps := hafter.keeps
    rw [hzero, List.take_zero] at hkeeps
    have hcapacity := hafter.capacity_eq.trans hzero
    rw [hkeeps.eq_new, hcapacity]

theorem Reachable.performAll {c : Cache} (h : c.Reachable) (calls : List CacheCall) :
    (c.performAll calls).2.Reachable := by
  have hrun := h.run (CacheClient.ofCalls calls (.ok ""))
  rwa [CacheClient.run_ofCalls] at hrun

/-- A computation that clears the cache, stores a text under the key that it is run for, asks for
the key again and ends in another text. -/
def reentrant : CacheClient :=
  .clear (.insert "k" "inner" (.getOrCompute "k" (.stop (.ok "again")) fun _ =>
    .stop (.ok "outer")))

theorem getOrCompute_of_reachable_reentrant :
    let c := (performAll { capacity := 1 } [.insert "a" "x"]).2
    c.Reachable ∧ c.peek "k" = none ∧ 0 < c.capacity
    ∧ ∃ report after,
      c.getOrCompute "k" (reentrant.run operations) = ((.ok "inner", some report), after)
      ∧ after.peek "k" = some "inner" ∧ ∃ older, after.queue = older ++ ["k"] ∧ "k" ∉ older := by
  intro c
  have hc : c.Reachable := (Reachable.new 1).performAll _
  have hkey : c.peek "k" = none := by decide
  have hpositive : 0 < c.capacity := by decide
  obtain ⟨report, left, hrun, hleft⟩ : ∃ report left,
      reentrant.run operations c = ((.ok "outer", report), left)
      ∧ left.peek "k" = some "inner" := ⟨_, _, rfl, by decide⟩
  obtain ⟨text, after, htext, hresult, hfront, -⟩ :=
    (getOrCompute_of_reachable hc "k" reentrant).2.2 hkey "outer" report left hrun
  obtain rfl : text = "inner" := by rw [htext, hleft]; rfl
  exact ⟨hc, hkey, hpositive, report, after, hresult, hfront hpositive⟩

end Cache

end SqlAssembly
