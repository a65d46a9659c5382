import SqlAssembly.Proofs.Wire.Sending

/-!
# Arrays of integers

A list of integers and nulls is sent for an array of integers exactly if each integer fits the
element type, and it is read back from the bytes as it is (`IntegerType.wire_integers_lossless`).
-/

namespace SqlAssembly

/-! ### Types of integers -/

/-- The types of integers. -/
inductive IntegerType where
  | int2 | int4 | int8
  deriving DecidableEq, Repr

namespace IntegerType

/-- The type among those of single values. -/
def scalar : IntegerType → ScalarType
  | int2 => .int2
  | int4 => .int4
  | int8 => .int8

/-- The count of bytes of an integer. -/
def width : IntegerType → Nat
  | int2 => 2
  | int4 => 4
  | int8 => 8

theorem width_pos (t : IntegerType) : 0 < t.width := by
  cases t <;> decide

/-- The integer of an item of an array, or none for a null. -/
def readItem? (t : IntegerType) : Option (List UInt8) → Option (Option Int)
  | none => some none
  | some item => (readInt? t.width item).map some

/-- The integers of an array, and none for each null. -/
def readArray? (t : IntegerType) (bs : List UInt8) : Option (List (Option Int)) :=
  SqlAssembly.readArray? t.scalar bs >>= List.mapM t.readItem?

theorem wire_int_eq_ok {t : IntegerType} {n : Int64} {sent : Option (List UInt8)} :
    (Value.int n).wire (.scalar t.scalar) = .ok sent
      ↔ Fits t.width n.toInt ∧ sent = some (bigEndian t.width n.toInt) := by
  have hnarrowed (width : Nat) :
      (narrowed width n.toInt >>= fun bs => pure (some bs)) = .ok sent
        ↔ Fits width n.toInt ∧ sent = some (bigEndian width n.toInt) := by
    simp only [Except.bind_eq_ok, narrowed_eq_ok, Except.pure_eq, Except.ok.injEq]
    constructor
    · rintro ⟨_, ⟨hfits, rfl⟩, rfl⟩
      exact ⟨hfits, rfl⟩
    · rintro ⟨hfits, rfl⟩
      exact ⟨_, ⟨hfits, rfl⟩, rfl⟩
  cases t with
  | int2 => exact hnarrowed 2
  | int4 => exact hnarrowed 4
  | int8 =>
    have hwire : (Value.int n).wire (.scalar .int8) = .ok (some (bigEndian 8 n.toInt)) := rfl
    simp [scalar, width, hwire, fits_int64, eq_comm]

end IntegerType

/-! ### Lists of integers -/

namespace Value

/-- An integer, or a null. -/
def ofInteger? : Option Int64 → Value
  | none => null
  | some n => int n

/-- A list of integers and nulls. -/
def integers (ns : List (Option Int64)) : Value := list (ns.map ofInteger?)

end Value

namespace IntegerType

open Value

theorem wire_ofInteger?_eq_ok {t : IntegerType} {n : Option Int64} {sent : Option (List UInt8)} :
    (ofInteger? n).wire (.scalar t.scalar) = .ok sent
      ↔ (∀ m ∈ n, Fits t.width m.toInt) ∧ sent = n.map fun m => bigEndian t.width m.toInt := by
  cases n with
  | none =>
    have hwire : null.wire (.scalar t.scalar) = .ok none := rfl
    simp [ofInteger?, hwire, eq_comm]
  | some n => simpa [ofInteger?] using wire_int_eq_ok

theorem succeeds_wireItem_ofInteger? {t : IntegerType} {n : Option Int64} :
    Except.Succeeds ((ofInteger? n).wire (.scalar t.scalar) >>= wireItem)
      ↔ ∀ m ∈ n, Fits t.width m.toInt := by
  rw [Except.succeeds_bind]
  constructor
  · rintro ⟨sent, hsent, -⟩
    exact (wire_ofInteger?_eq_ok.1 hsent).1
  · intro hfits
    refine ⟨_, wire_ofInteger?_eq_ok.2 ⟨hfits, rfl⟩, ?_⟩
    cases n with
    | none => exact Except.succeeds_ok _
    | some n =>
      have hlength : Fits 4 (bigEndian t.width n.toInt).length := by
        rw [length_bigEndian]
        cases t <;> decide
      exact Except.succeeds_bind.2
        ⟨_, counted_eq_ok.2 ⟨hlength, rfl⟩, Except.succeeds_ok _⟩

theorem succeeds_wire_integers {t : IntegerType} {ns : List (Option Int64)} :
    Except.Succeeds ((integers ns).wire (.array t.scalar))
      ↔ Fits 4 ns.length ∧ ∀ n, some n ∈ ns → Fits t.width n.toInt := by
  rw [integers, succeeds_wire_array, List.length_map, List.forall_mem_map]
  simp only [succeeds_wireItem_ofInteger?]
  refine and_congr_right' ⟨fun h n hn => h _ hn n rfl, ?_⟩
  rintro h _ hn m rfl
  exact h m hn

theorem mapM_readItem?_of_sentAs {t : IntegerType} {ns : List (Option Int64)}
    {sent : List (Option (List UInt8))} (h : SentAs t.scalar (ns.map ofInteger?) sent) :
    sent.mapM t.readItem? = some (ns.map (Option.map Int64.toInt)) := by
  rw [SentAs, List.forall₂_map_left_iff] at h
  induction h with
  | nil => rfl
  | @cons n item ns sent hitem _ ih =>
    obtain ⟨hfits, rfl⟩ := wire_ofInteger?_eq_ok.1 hitem
    have hread : t.readItem? (n.map fun m => bigEndian t.width m.toInt)
        = some (n.map Int64.toInt) := by
      cases n with
      | none => rfl
      | some m => simp [readItem?, readInt?_of_fits t.width_pos (hfits m rfl)]
    simp [List.mapM_cons, hread, ih]

/-- What is sent for a list of integers and nulls is the list. -/
theorem readArray?_of_wire {t : IntegerType} {ns : List (Option Int64)}
    {sent : Option (List UInt8)} (h : (integers ns).wire (.array t.scalar) = .ok sent) :
    ∃ bs, sent = some bs ∧ t.readArray? bs = some (ns.map (Option.map Int64.toInt)) := by
  have hnull := isNull_of_wire h
  cases sent with
  | none => cases hnull
  | some bs =>
    obtain ⟨items, hitems, hread⟩ := Value.readArray?_of_wire h
    refine ⟨bs, rfl, ?_⟩
    rw [readArray?, hread]
    exact mapM_readItem?_of_sentAs hitems

/-- A list of integers and nulls is sent for an array of integers exactly if each integer fits the
element type and the length fits four bytes, and then the list is read back from the bytes. A list
for a type that is no array, or with a list in it at any depth, is refused with an error. In all
cases sending gives what `Value.wire` gives, so there is no panic. -/
theorem wire_integers_lossless :
    (∀ (t : IntegerType) (ns : List (Option Int64)),
      (Except.Succeeds ((integers ns).wire (.array t.scalar))
          ↔ Fits 4 ns.length ∧ ∀ n, some n ∈ ns → Fits t.width n.toInt)
        ∧ ∀ sent, (integers ns).wire (.array t.scalar) = .ok sent →
          ∃ bs, sent = some bs ∧ t.readArray? bs = some (ns.map (Option.map Int64.toInt)))
    ∧ (∀ items t, (list items).send (.scalar t) = .error (.refused (.listForScalar t)))
    ∧ (∀ inner items type, Within (list inner) (list items) →
      ∃ e, (list items).send type = .error (.refused e))
    ∧ ∀ (v : Value) (type : WireType), v.send type = (v.wire type).mapError .refused := by
  refine ⟨fun t ns => ⟨succeeds_wire_integers, fun sent => readArray?_of_wire⟩,
    fun items t => ?_, fun inner items type h => ?_, send_eq⟩
  · rw [send_eq]
    rfl
  · obtain ⟨e, he⟩ := exists_wire_eq_error_of_within h type
    exact ⟨e, by rw [send_eq, he, Except.mapError_error]⟩

/-- Both ends of a range around a null, one number beyond it, and a list two levels deep. Without
the check of the type, an array writer would panic. -/
theorem wire_integers_lossless_extremes :
    (integers [some 32767, none, some (-32768)]).wire (.array .int2)
        = .ok (some [0, 0, 0, 1, 0, 0, 0, 1, 0, 0, 0, 21, 0, 0, 0, 3, 0, 0, 0, 1,
          0, 0, 0, 2, 127, 255, 255, 255, 255, 255, 0, 0, 0, 2, 128, 0])
      ∧ int2.readArray? [0, 0, 0, 1, 0, 0, 0, 1, 0, 0, 0, 21, 0, 0, 0, 3, 0, 0, 0, 1,
          0, 0, 0, 2, 127, 255, 255, 255, 255, 255, 0, 0, 0, 2, 128, 0]
        = some [some 32767, none, some (-32768)]
      ∧ ¬ Except.Succeeds ((integers [none, some 32768]).wire (.array .int2))
      ∧ (∃ e, (list [.int 1, list [list []]]).send (.array .int8) = .error (.refused e))
      ∧ sendArray [] (.scalar .int8) = .error .panicked := by
  obtain ⟨hintegers, -, hnested, -⟩ := wire_integers_lossless
  have hwire : (integers [some 32767, none, some (-32768)]).wire (.array .int2)
      = .ok (some [0, 0, 0, 1, 0, 0, 0, 1, 0, 0, 0, 21, 0, 0, 0, 3, 0, 0, 0, 1,
        0, 0, 0, 2, 127, 255, 255, 255, 255, 255, 0, 0, 0, 2, 128, 0]) := rfl
  obtain ⟨bs, hsent, hread⟩ := (hintegers int2 _).2 _ hwire
  obtain rfl := Option.some.inj hsent
  refine ⟨hwire, hread, ?_, ?_, rfl⟩
  · rw [show (WireType.array .int2) = .array int2.scalar from rfl, (hintegers int2 _).1]
    intro h
    exact absurd (h.2 32768 (by simp)) (by decide)
  · exact hnested [] _ _ (.inner (.item (List.mem_singleton_self _)) (by simp))

end IntegerType

end SqlAssembly
