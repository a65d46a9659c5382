import SqlAssembly.Error

/-!
# A cache of assembled SQL

Texts under keys chosen by the caller, at most as many as the capacity, beside a queue of the keys
in the order of their last use. A text that is added beyond the capacity drives out the key that was
not used for the longest time. A cache of capacity zero stores nothing.
-/

namespace SqlAssembly

/-- A bounded store of texts. -/
structure Cache where
  capacity : Nat
  texts : OrderedMap String := .empty
  /-- The keys in the order of their last use, the longest unused first. -/
  queue : List String := []

namespace Cache

/-- The text under a key, if there is one. -/
def peek (c : Cache) (key : String) : Option String := c.texts.get? key

/-- Whether there is a text under a key. -/
def contains (c : Cache) (key : String) : Bool := c.texts.contains key

/-- The number of texts. -/
def size (c : Cache) : Nat := c.texts.size

/-- Whether there is no text. -/
def isEmpty (c : Cache) : Bool := c.size == 0

/-- Make a key that is in the queue the most recent one. -/
def touch (c : Cache) (key : String) : Cache :=
  if key ∈ c.queue then { c with queue := c.queue.erase key ++ [key] } else c

/-- Drop the longest unused keys until the texts fit. -/
def dropOldest (capacity : Nat) (texts : OrderedMap String) :
    List String → OrderedMap String × List String
  | [] => (texts, [])
  | key :: queue =>
    if capacity < texts.size then dropOldest capacity (texts.erase key) queue
    else (texts, key :: queue)

/-- Bring the cache down to its capacity. -/
def evict (c : Cache) : Cache :=
  if c.capacity = 0 then { c with texts := .empty, queue := [] }
  else
    let (texts, queue) := dropOldest c.capacity c.texts c.queue
    { c with texts, queue }

/-- Look a key up; one that is found becomes the most recent. -/
def get (c : Cache) (key : String) : Option String × Cache :=
  match c.peek key with
  | some text => (some text, c.touch key)
  | none => (none, c)

/-- Add a text under a key that has none. -/
def add (c : Cache) (key text : String) : Cache :=
  evict { c with texts := c.texts.put key text, queue := c.queue ++ [key] }

/-- Store a text under a key, in place of any other. -/
def insert (c : Cache) (key text : String) : Cache :=
  if c.contains key then evict (touch { c with texts := c.texts.put key text } key)
  else c.add key text

/-- Remove the text under a key. -/
def remove (c : Cache) (key : String) : Option String × Cache :=
  match c.peek key with
  | some text => (some text, { c with texts := c.texts.erase key, queue := c.queue.erase key })
  | none => (none, c)

/-- Remove all texts. -/
def clear (c : Cache) : Cache := { c with texts := .empty, queue := [] }

/-- Store a computed text, unless the computation itself has left one under the key. -/
def settle (c : Cache) (key text : String) : String × Cache :=
  match c.peek key with
  | some present => (present, c.touch key)
  | none => (text, c.add key text)

/-- The text under a key, computed and stored if there is none. The computation may use the cache
and may report something beside its outcome; if it fails, nothing is stored. -/
def getOrCompute {α : Type} (c : Cache) (key : String)
    (compute : Cache → (Except SqlError String × α) × Cache) :
    (Except SqlError String × Option α) × Cache :=
  match c.get key with
  | (some text, c) => ((.ok text, none), c)
  | (none, c) =>
    match compute c with
    | ((.error e, report), c) => ((.error e, some report), c)
    | ((.ok text, report), c) =>
      let (text, c) := c.settle key text
      ((.ok text, some report), c)

end Cache

/-! ### Operations as data -/

/-- An operation on a cache. -/
inductive CacheCall where
  | get (key : String)
  | insert (key text : String)
  | remove (key : String)
  | contains (key : String)
  | clear
  | size
  | isEmpty
  /-- Look a key up and, on a miss, run the body and then end in the outcome. -/
  | getOrCompute (key : String) (body : List CacheCall) (outcome : Except SqlError String)

/-- What an operation answers. -/
inductive CacheResult where
  | done
  | text (t : Option String)
  | flag (b : Bool)
  | count (n : Nat)
  /-- The text, found or computed; with what the body answered if it was run. -/
  | computed (body : Option (List CacheResult)) (outcome : Except SqlError String)

namespace Cache

mutual

/-- Perform an operation. -/
def perform (c : Cache) : CacheCall → CacheResult × Cache
  | .get key => let (t, c) := c.get key; (.text t, c)
  | .insert key text => (.text (some text), c.insert key text)
  | .remove key => let (t, c) := c.remove key; (.text t, c)
  | .contains key => (.flag (c.contains key), c)
  | .clear => (.done, c.clear)
  | .size => (.count c.size, c)
  | .isEmpty => (.flag c.isEmpty, c)
  | .getOrCompute key body outcome =>
    let ((outcome, results), c) := c.getOrCompute key fun c =>
      let (results, c) := performAll c body
      ((outcome, results), c)
    (.computed results outcome, c)

/-- Perform operations one after the other. -/
def performAll (c : Cache) : List CacheCall → List CacheResult × Cache
  | [] => ([], c)
  | call :: calls =>
    let (r, c) := perform c call
    let (rs, c) := performAll c calls
    (r :: rs, c)

end

end Cache

end SqlAssembly
