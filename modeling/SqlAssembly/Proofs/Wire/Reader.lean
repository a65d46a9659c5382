import SqlAssembly.Proofs.Outcome
import SqlAssembly.Proofs.Wire.Bytes

/-!
# Reading PostgreSQL's binary format

What bytes stand for as a value of a type. An array is read in two steps: its items as bytes, each
behind its length, and then each item as a value of the element type. How the text of a JSON
document is read is a parameter.
-/

namespace SqlAssembly

/-! ### Single values -/

/-- The value that bytes stand for in the format of a type. -/
def ScalarType.read? (parse : String → Option Json) (type : ScalarType) (bs : List UInt8) :
    Option Value :=
  match type with
  | bool => match bs with
    | [b] => some (.bool (b != 0))
    | _ => none
  | int2 => (readInt? 2 bs).map fun n => .int (.ofInt n)
  | int4 => (readInt? 4 bs).map fun n => .int (.ofInt n)
  | int8 => (readInt? 8 bs).map fun n => .int (.ofInt n)
  | float4 => (readWord? 4 bs).map fun w => .float (.ofBinary32 (.ofNat w))
  | float8 => (readWord? 8 bs).map fun w => .float ⟨.ofNat w⟩
  | text | varchar => (readUtf8? bs).map .text
  | bytea => some (.bytes bs)
  | json => (readUtf8? bs >>= parse).map .json
  -- behind the number of the version
  | jsonb => match bs with
    | 1 :: bs => (readUtf8? bs >>= parse).map .json
    | _ => none
  | uuid => (readUuid? bs).map .uuid
  | date => (readInt? 4 bs).map fun n => .date ⟨n⟩
  | timestamp => (readInt? 8 bs).map fun n => .timestamp { nanoseconds := 1000 * n }
  | timestamptz => (readInt? 8 bs).map fun n => .instant { nanoseconds := 1000 * n }

/-! ### Arrays -/

/-- A number at the start of bytes, and what follows it. -/
def takeInt? (width : Nat) (bs : List UInt8) : Option (Int × List UInt8) :=
  (readInt? width (bs.take width)).map fun n => (n, bs.drop width)

/-- An item of an array: its bytes behind their number, or the number `-1` for a null. -/
def readItem? (bs : List UInt8) : Option (Option (List UInt8) × List UInt8) := do
  let (length, bs) ← takeInt? 4 bs
  if length = -1 then some (none, bs)
  else if 0 ≤ length ∧ length ≤ bs.length then
    some (some (bs.take length.toNat), bs.drop length.toNat)
  else none

/-- A given count of items, and what follows them. -/
def readItems? : Nat → List UInt8 → Option (List (Option (List UInt8)) × List UInt8)
  | 0, bs => some ([], bs)
  | n + 1, bs => do
    let (item, bs) ← readItem? bs
    let (items, bs) ← readItems? n bs
    some (item :: items, bs)

/-- The items of an array of one dimension whose lower bound is one: the number of dimensions,
whether there is a null, the element type, the length and the lower bound stand before them. -/
def readArray? (element : ScalarType) (bs : List UInt8) : Option (List (Option (List UInt8))) := do
  let (dimensions, bs) ← takeInt? 4 bs
  let (nulls, bs) ← takeInt? 4 bs
  let (oid, bs) ← takeInt? 4 bs
  let (length, bs) ← takeInt? 4 bs
  let (lower, bs) ← takeInt? 4 bs
  guard (dimensions = 1 ∧ oid = element.oid ∧ 0 ≤ length ∧ lower = 1)
  let (items, rest) ← readItems? length.toNat bs
  guard (rest = [] ∧ nulls = if items.any Option.isNone then 1 else 0)
  some items

theorem takeInt?_append {width : Nat} (hwidth : 0 < width) {n : Int} (h : Fits width n)
    (rest : List UInt8) : takeInt? width (bigEndian width n ++ rest) = some (n, rest) := by
  rw [takeInt?, List.take_left' (length_bigEndian width n),
    List.drop_left' (length_bigEndian width n), readInt?_of_fits hwidth h, Option.map_some]

theorem takeInt?_bind {α : Type} {width : Nat} (hwidth : 0 < width) {n : Int} (h : Fits width n)
    (rest : List UInt8) (f : Int × List UInt8 → Option α) :
    (takeInt? width (bigEndian width n ++ rest) >>= f) = f (n, rest) := by
  rw [takeInt?_append hwidth h]
  rfl

theorem ScalarType.fits_oid (t : ScalarType) : Fits 4 t.oid := by
  cases t <;> decide

namespace Value

/-- An item that is written is read back, whatever follows it. -/
theorem readItem?_append {item : Option (List UInt8)} {bs : List UInt8} (h : wireItem item = .ok bs)
    (rest : List UInt8) : readItem? (bs ++ rest) = some (item, rest) := by
  cases item with
  | none =>
    cases h
    rw [readItem?, takeInt?_append (by decide) (by decide)]
    rfl
  | some item =>
    obtain ⟨length, hlength, h⟩ := Except.bind_eq_ok.1 h
    obtain ⟨hfits, rfl⟩ := counted_eq_ok.1 hlength
    cases h
    rw [readItem?, List.append_assoc, takeInt?_append (by decide) hfits]
    simp

/-- Each value as the bytes that it is sent as, or none for a null. -/
def SentAs (element : ScalarType) (items : List Value) (sent : List (Option (List UInt8))) : Prop :=
  List.Forall₂ (fun v bs => v.wire (.scalar element) = .ok bs) items sent

theorem readItems?_append {element : ScalarType} {items : List Value} {bs : List UInt8}
    (h : wireItems element items = .ok bs) :
    ∃ sent, SentAs element items sent
      ∧ ∀ rest, readItems? items.length (bs ++ rest) = some (sent, rest) := by
  induction items generalizing bs with
  | nil =>
    cases h
    exact ⟨[], .nil, fun rest => rfl⟩
  | cons v vs ih =>
    obtain ⟨value, hvalue, h⟩ := Except.bind_eq_ok.1 (by simpa only [wireItems] using h)
    obtain ⟨item, hitem, h⟩ := Except.bind_eq_ok.1 h
    obtain ⟨items, hitems, h⟩ := Except.bind_eq_ok.1 h
    cases h
    obtain ⟨sent, hsent, hread⟩ := ih hitems
    refine ⟨value :: sent, .cons hvalue hsent, fun rest => ?_⟩
    rw [List.length_cons, readItems?, List.append_assoc, readItem?_append hitem]
    simp [hread]

/-- Only a null is sent without bytes. -/
theorem isNull_of_wire {type : WireType} {v : Value} {bs : Option (List UInt8)}
    (h : v.wire type = .ok bs) : v.isNull = bs.isNone := by
  have hmap {x : Except WireError (List UInt8)} (hx : (x >>= fun b => pure (some b)) = .ok bs) :
      false = bs.isNone := by
    obtain ⟨b, -, hb⟩ := Except.bind_eq_ok.1 hx
    cases hb
    rfl
  cases v with
  | int n =>
    simp only [wire] at h
    split at h
    · exact hmap h
    · exact hmap h
    · cases h
      rfl
  | float x =>
    simp only [wire] at h
    split at h <;> cases h <;> rfl
  | date d | timestamp t | instant t => exact hmap (by simpa only [wire] using h)
  | list items =>
    simp only [wire] at h
    split at h
    · cases h
    · obtain ⟨_, -, h⟩ := Except.bind_eq_ok.1 h
      obtain ⟨_, -, h⟩ := Except.bind_eq_ok.1 h
      cases h
      rfl
  | _ =>
    simp only [wire] at h
    cases h
    rfl

theorem any_isNull_of_sentAs {element : ScalarType} {items : List Value}
    {sent : List (Option (List UInt8))} (h : SentAs element items sent) :
    items.any isNull = sent.any Option.isNone := by
  induction h with
  | nil => rfl
  | cons hv _ ih => rw [List.any_cons, List.any_cons, ih, isNull_of_wire hv]

/-- The items of an array that is written are read back as bytes. -/
theorem readArray?_of_wire {element : ScalarType} {items : List Value} {bs : List UInt8}
    (h : (list items).wire (.array element) = .ok (some bs)) :
    ∃ sent, SentAs element items sent ∧ readArray? element bs = some sent := by
  obtain ⟨length, hlength, h⟩ := Except.bind_eq_ok.1 (by simpa only [wire] using h)
  obtain ⟨body, hbody, h⟩ := Except.bind_eq_ok.1 h
  obtain ⟨hfits, rfl⟩ := counted_eq_ok.1 hlength
  cases h
  obtain ⟨sent, hsent, hread⟩ := readItems?_append hbody
  refine ⟨sent, hsent, ?_⟩
  have hnulls := any_isNull_of_sentAs hsent
  have hflag : Fits 4 (if items.any isNull then 1 else 0) := by
    split <;> decide
  have hbody : readItems? items.length body = some (sent, []) := by
    simpa using hread []
  simp only [List.append_assoc]
  unfold readArray?
  refine (takeInt?_bind (by decide) (by decide) _ _).trans ?_
  refine (takeInt?_bind (by decide) hflag _ _).trans ?_
  refine (takeInt?_bind (by decide) element.fits_oid _ _).trans ?_
  refine (takeInt?_bind (by decide) hfits _ _).trans ?_
  refine (takeInt?_bind (by decide) (by decide) _ _).trans ?_
  rw [hnulls]
  simp [hbody]

end Value

end SqlAssembly
