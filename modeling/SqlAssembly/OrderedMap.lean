/-!
# Ordered maps

A map from names to values that remembers the order in which the names first came. Storing under a
name that is present replaces the value and keeps the place, so the keys after `put` are the old
keys, with the new one behind them if it is new.
-/

namespace SqlAssembly

universe u

/-! ### Entry lists -/

namespace Entries

variable {α β : Type u}

def keys (es : List (String × α)) : List String := es.map Prod.fst

/-- The value of the first entry under a key. -/
def get? (k : String) : List (String × α) → Option α
  | [] => none
  | e :: es => if e.1 = k then some e.2 else get? k es

/-- Replace the value of the first entry under a key, or append an entry. -/
def put (k : String) (a : α) : List (String × α) → List (String × α)
  | [] => [(k, a)]
  | e :: es => if e.1 = k then (k, a) :: es else e :: put k a es

/-- Drop the first entry under a key. -/
def erase (k : String) : List (String × α) → List (String × α)
  | [] => []
  | e :: es => if e.1 = k then es else e :: erase k es

def map (f : α → β) (es : List (String × α)) : List (String × β) := es.map fun e => (e.1, f e.2)

@[simp] theorem keys_nil : keys ([] : List (String × α)) = [] := rfl

@[simp] theorem keys_cons (e : String × α) (es : List (String × α)) :
    keys (e :: es) = e.1 :: keys es := rfl

theorem keys_put (k : String) (a : α) (es : List (String × α)) :
    keys (put k a es) = if k ∈ keys es then keys es else keys es ++ [k] := by
  induction es with
  | nil => simp [put]
  | cons e es ih =>
    rw [put]
    by_cases h : e.1 = k
    · simp [h]
    · have h' : ¬ k = e.1 := fun h' => h h'.symm
      by_cases hk : k ∈ keys es <;> simp [h, h', hk, ih]

theorem nodup_keys_put (k : String) (a : α) {es : List (String × α)} (h : (keys es).Nodup) :
    (keys (put k a es)).Nodup := by
  rw [keys_put]
  split
  · exact h
  · rename_i hk
    refine List.nodup_append.2 ⟨h, by simp, ?_⟩
    intro x hx y hy
    rw [List.mem_singleton] at hy
    rintro rfl
    exact hk (hy ▸ hx)

theorem keys_erase (k : String) (es : List (String × α)) :
    keys (erase k es) = (keys es).erase k := by
  induction es with
  | nil => rfl
  | cons e es ih => by_cases h : e.1 = k <;> simp [erase, h, ih]

theorem nodup_keys_erase (k : String) {es : List (String × α)} (h : (keys es).Nodup) :
    (keys (erase k es)).Nodup := by
  rw [keys_erase]
  exact h.sublist List.erase_sublist

@[simp] theorem keys_map (f : α → β) (es : List (String × α)) : keys (map f es) = keys es := by
  simp [keys, map]

theorem put_map (f : α → β) (k : String) (a : α) (es : List (String × α)) :
    put k (f a) (map f es) = map f (put k a es) := by
  induction es with
  | nil => rfl
  | cons e es ih =>
    by_cases h : e.1 = k
    · simp [map, put, h]
    · simp only [map, List.map_cons, put, h, if_false] at ih ⊢
      rw [ih]

end Entries

/-! ### Maps -/

/-- Entries with pairwise distinct keys. -/
structure OrderedMap (α : Type u) where
  /-- The entries, in the order in which their keys first came. -/
  entries : List (String × α)
  nodup : (Entries.keys entries).Nodup
  deriving DecidableEq

namespace OrderedMap

variable {α β : Type u}

/-- The map without entries. -/
def empty : OrderedMap α := ⟨[], List.nodup_nil⟩

instance : Inhabited (OrderedMap α) := ⟨empty⟩

def keys (m : OrderedMap α) : List String := Entries.keys m.entries

/-- The values, in order. -/
def values (m : OrderedMap α) : List α := m.entries.map Prod.snd

/-- The number of entries. -/
def size (m : OrderedMap α) : Nat := m.entries.length

/-- The value stored under a key. -/
def get? (m : OrderedMap α) (k : String) : Option α := Entries.get? k m.entries

/-- Whether a value is stored under a key. -/
def contains (m : OrderedMap α) (k : String) : Bool := (m.get? k).isSome

/-- Store a value under a key. -/
def put (m : OrderedMap α) (k : String) (a : α) : OrderedMap α :=
  ⟨Entries.put k a m.entries, Entries.nodup_keys_put k a m.nodup⟩

/-- Remove what is stored under a key. -/
def erase (m : OrderedMap α) (k : String) : OrderedMap α :=
  ⟨Entries.erase k m.entries, Entries.nodup_keys_erase k m.nodup⟩

/-- The map that results from storing the given entries one after the other. -/
def ofEntries (es : List (String × α)) : OrderedMap α :=
  es.foldl (fun m e => m.put e.1 e.2) empty

def map (f : α → β) (m : OrderedMap α) : OrderedMap β :=
  ⟨Entries.map f m.entries, (Entries.keys_map f m.entries).symm ▸ m.nodup⟩

@[simp] theorem entries_empty : (empty : OrderedMap α).entries = [] := rfl

@[simp] theorem keys_put (m : OrderedMap α) (k : String) (a : α) :
    (m.put k a).keys = if k ∈ m.keys then m.keys else m.keys ++ [k] :=
  Entries.keys_put k a m.entries

@[simp] theorem keys_erase (m : OrderedMap α) (k : String) :
    (m.erase k).keys = m.keys.erase k :=
  Entries.keys_erase k m.entries

@[simp] theorem entries_map (f : α → β) (m : OrderedMap α) :
    (m.map f).entries = Entries.map f m.entries := rfl

theorem put_map (f : α → β) (m : OrderedMap α) (k : String) (a : α) :
    (m.map f).put k (f a) = (m.put k a).map f := by
  simp only [map, put, Entries.put_map]

theorem foldl_put_map (f : α → β) (m : OrderedMap α) (es : List (String × α)) :
    (Entries.map f es).foldl (fun m e => m.put e.1 e.2) (m.map f)
      = (es.foldl (fun m e => m.put e.1 e.2) m).map f := by
  induction es generalizing m with
  | nil => rfl
  | cons e es ih =>
    show (Entries.map f es).foldl (fun m e => m.put e.1 e.2) ((m.map f).put e.1 (f e.2)) = _
    rw [put_map, ih]
    rfl

theorem ofEntries_map (f : α → β) (es : List (String × α)) :
    ofEntries (Entries.map f es) = (ofEntries es).map f :=
  foldl_put_map f empty es

theorem get?_put (m : OrderedMap α) (k l : String) (a : α) :
    (m.put k a).get? l = if k = l then some a else m.get? l := by
  obtain ⟨es, _⟩ := m
  show Entries.get? l (Entries.put k a es) = if k = l then some a else Entries.get? l es
  induction es with
  | nil => simp [Entries.put, Entries.get?]
  | cons e es ih =>
    rename_i h
    have ih := ih (List.nodup_cons.1 h).2
    rw [Entries.put]
    split
    · rename_i hk
      by_cases hl : k = l <;> simp [Entries.get?, hk, hl]
    · rename_i hk
      rw [Entries.get?, ih, Entries.get?]
      by_cases hl : k = l
      · have : ¬ e.1 = l := fun h' => hk (h'.trans hl.symm)
        simp [hl, this]
      · simp [hl]

end OrderedMap

end SqlAssembly
