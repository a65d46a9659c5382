import SqlAssembly.Json.Reader
import SqlAssembly.Proofs.Wire.Numbers
import SqlAssembly.Proofs.Wire.Reader

/-!
# What the bytes of a value stand for

A value is written in the format of its own kind. So its bytes stand for the value if the type of
the placeholder is of this kind, and hardly ever else: the exact condition is `WireType.takes`. No
error is reported where it fails, if only the bytes can be written.
-/

namespace SqlAssembly

variable {parse : String → Option Json}

/-! ### The same value -/

namespace Value

/-- The number that a value is, if it is one. -/
def toRat? : Value → Option ℚ
  | int n => some n.toInt
  | float x => x.toRat?
  | _ => none

/-- Whether two values are the same. Integers and doubles may be the same number. -/
def SameAs (v w : Value) : Prop := v = w ∨ ∃ q, v.toRat? = some q ∧ w.toRat? = some q

/-- The value as a type can hold it: `float4` is of single precision. -/
def roundedTo : ScalarType → Value → Value
  | .float4, float x => float x.toSingle
  | _, v => v

/-- The kinds of single values. -/
inductive Kind where
  | bool | number | text | bytes | json | uuid | date | timestamp | instant
  deriving DecidableEq

/-- The kind of a single value. -/
def kind? : Value → Option Kind
  | bool _ => some .bool
  | int _ | float _ => some .number
  | text _ => some .text
  | bytes _ => some .bytes
  | json _ => some .json
  | uuid _ => some .uuid
  | date _ => some .date
  | timestamp _ => some .timestamp
  | instant _ => some .instant
  | null | list _ => none

theorem SameAs.kind?_eq {v w : Value} (h : v.SameAs w) : v.kind? = w.kind? := by
  rcases h with rfl | ⟨q, hv, hw⟩
  · rfl
  · have hnumber (u : Value) (hu : u.toRat? = some q) : u.kind? = some .number := by
      cases u with
      | int n | float x => rfl
      | _ => cases hu
    rw [hnumber v hv, hnumber w hw]

/-- Values that are no numbers are the same only if they are equal. -/
theorem sameAs_iff_eq {v w : Value} (h : v.toRat? = none) : v.SameAs w ↔ v = w := by
  simp [SameAs, h]

theorem kind?_roundedTo (t : ScalarType) (v : Value) : (v.roundedTo t).kind? = v.kind? := by
  cases t <;> cases v <;> rfl

mutual

/-- The JSON documents in a value. -/
def documents : Value → List Json
  | .json j => [j]
  | .list items => documentsAll items
  | _ => []

/-- The JSON documents in a list of values. -/
def documentsAll : List Value → List Json
  | [] => []
  | v :: vs => documents v ++ documentsAll vs

end

end Value

/-- Whether a timestamp is a number of microseconds, and in no leap second. -/
def Timestamp.isWhole (t : Timestamp) : Bool := t.nanoseconds % 1000 == 0 && !t.leap

namespace ScalarType

/-- The kind of the values of a type. -/
def kind : ScalarType → Value.Kind
  | bool => .bool
  | int2 | int4 | int8 | float4 | float8 => .number
  | text | varchar => .text
  | bytea => .bytes
  | json | jsonb => .json
  | uuid => .uuid
  | date => .date
  | timestamp => .timestamp
  | timestamptz => .instant

/-- Whether the bytes of a value stand for it as a value of a type: its kind must be that of the
type. Integers are not written as doubles, nor doubles as integers, but zero has the same bytes. -/
def takes : ScalarType → Value → Bool
  | bool, .bool _ | int2, .int _ | int4, .int _ | int8, .int _ | float4, .float _ | float8, .float _
  | text, .text _ | varchar, .text _ | bytea, .bytes _ | json, .json _ | jsonb, .json _
  | uuid, .uuid _ | date, .date _ => true
  | timestamp, .timestamp t | timestamptz, .instant t => t.isWhole
  | float8, .int n => n == 0
  | int8, .float x => x.bits == 0
  | _, _ => false

/-- Whether bytes stand for a value in the format of a type. -/
def Denotes (parse : String → Option Json) (t : ScalarType) (bs : List UInt8) (v : Value) : Prop :=
  ∃ w, t.read? parse bs = some w ∧ (v.roundedTo t).SameAs w

theorem kind?_of_read? {t : ScalarType} {bs : List UInt8} {w : Value}
    (h : t.read? parse bs = some w) : w.kind? = some t.kind := by
  cases t with
  | bool =>
    simp only [read?] at h
    split at h <;> cases h
    rfl
  | jsonb =>
    simp only [read?] at h
    split at h
    · obtain ⟨_, -, rfl⟩ := Option.map_eq_some_iff.1 h
      rfl
    · cases h
  | bytea =>
    cases h
    rfl
  | _ =>
    obtain ⟨_, -, rfl⟩ := Option.map_eq_some_iff.1 h
    rfl

theorem kind?_of_takes {t : ScalarType} {v : Value} (h : t.takes v) : v.kind? = some t.kind := by
  cases t <;> cases v <;> first | rfl | cases h

theorem denotes_of_read? {t : ScalarType} {bs : List UInt8} {v : Value}
    (h : t.read? parse bs = some (v.roundedTo t)) : t.Denotes parse bs v :=
  ⟨_, h, .inl rfl⟩

theorem not_denotes_of_read? {t : ScalarType} {bs : List UInt8} (v : Value)
    (h : t.read? parse bs = none) : ¬ t.Denotes parse bs v := by
  rintro ⟨w, hw, -⟩
  rw [h] at hw
  cases hw

end ScalarType

/-! ### Integers -/

theorem readWord?_eq_none {width : Nat} {bs : List UInt8} (h : bs.length ≠ width) :
    readWord? width bs = none := if_neg h

theorem readInt?_eq_none {width : Nat} {bs : List UInt8} (h : bs.length ≠ width) :
    readInt? width bs = none := if_neg h

/-- The double of the word of an integer. -/
def Binary64.ofWord (n : Int64) : Binary64 := ⟨.ofNat (n.toInt % (256 ^ 8 : Nat)).toNat⟩

theorem Binary64.bmod_bits_ofWord (n : Int64) :
    ((Binary64.ofWord n).bits.toNat : Int).bmod (256 ^ 8) = n.toInt := by
  have hnonneg := Int.emod_nonneg n.toInt (b := (256 ^ 8 : Nat)) (by norm_num)
  have hlt := Int.emod_lt_of_pos n.toInt (b := (256 ^ 8 : Nat)) (by norm_num)
  have hbits : ((Binary64.ofWord n).bits.toNat : Int) = n.toInt % (256 ^ 8 : Nat) := by
    rw [ofWord, UInt64.toNat_ofNat', Nat.mod_eq_of_lt (by omega), Int.toNat_of_nonneg hnonneg]
  rw [hbits, Int.emod_bmod, bmod_of_fits (by norm_num) (fits_int64 n)]

theorem Binary64.ofWord_bits_eq_zero (n : Int64) : (Binary64.ofWord n).bits = 0 ↔ n = 0 := by
  constructor
  · intro h
    have hword := bmod_bits_ofWord n
    rw [h, UInt64.toNat_zero, Nat.cast_zero, Int.zero_bmod] at hword
    exact Int64.toInt_inj.1 (hword.symm.trans rfl)
  · rintro rfl
    rfl

namespace ScalarType

theorem denotes_int {t : ScalarType} {n : Int64} {bs : List UInt8}
    (h : (Value.int n).wire (.scalar t) = .ok (some bs)) (hkind : t.kind = .number) :
    t.Denotes parse bs (.int n) ↔ t.takes (.int n) := by
  cases t with
  | int2 | int4 =>
    obtain ⟨bytes, hbytes, h⟩ := Except.bind_eq_ok.1 (by simpa only [Value.wire] using h)
    obtain ⟨hfits, rfl⟩ := narrowed_eq_ok.1 hbytes
    cases h
    refine iff_of_true (denotes_of_read? ?_) rfl
    rw [read?, readInt?_of_fits (by norm_num) hfits, Option.map_some, Int64.ofInt_toInt]
    rfl
  | int8 =>
    simp only [Value.wire] at h
    cases h
    refine iff_of_true (denotes_of_read? ?_) rfl
    rw [read?, readInt?_of_fits (by norm_num) (fits_int64 n), Option.map_some, Int64.ofInt_toInt]
    rfl
  | float4 =>
    simp only [Value.wire] at h
    cases h
    refine iff_of_false (not_denotes_of_read? _ ?_) Bool.false_ne_true
    rw [read?, readWord?_eq_none (by simp), Option.map_none]
  | float8 =>
    simp only [Value.wire] at h
    cases h
    have hread : float8.read? parse (bigEndian 8 n.toInt) = some (.float (.ofWord n)) := by
      rw [read?, readWord?_bigEndian, Option.map_some]
      rfl
    -- The same word is read as a double: that is the number only for the word zero.
    have htakes : float8.takes (.int n) = (n == 0) := rfl
    rw [htakes, beq_iff_eq, ← Binary64.ofWord_bits_eq_zero, ← Binary64.toRat?_eq_bmod_iff,
      Binary64.bmod_bits_ofWord]
    simp [Denotes, hread, Value.SameAs, Value.roundedTo, Value.toRat?]
  | _ => cases hkind

theorem denotes_float {t : ScalarType} {x : Binary64} {bs : List UInt8}
    (h : (Value.float x).wire (.scalar t) = .ok (some bs)) (hkind : t.kind = .number) :
    t.Denotes parse bs (.float x) ↔ t.takes (.float x) := by
  cases t with
  | int2 | int4 =>
    simp only [Value.wire] at h
    cases h
    refine iff_of_false (not_denotes_of_read? _ ?_) Bool.false_ne_true
    rw [read?, readInt?_eq_none (by simp), Option.map_none]
  | int8 =>
    simp only [Value.wire] at h
    cases h
    have htakes : int8.takes (.float x) = (x.bits == 0) := rfl
    rw [htakes, beq_iff_eq, ← Binary64.toRat?_eq_bmod_iff]
    simp [Denotes, read?, readInt?_bigEndian, Value.SameAs, Value.roundedTo, Value.toRat?]
  | float4 =>
    simp only [Value.wire] at h
    cases h
    refine iff_of_true (denotes_of_read? ?_) rfl
    rw [read?, readWord?_of_lt x.toBinary32.toNat_lt, Option.map_some, UInt32.ofNat_toNat]
    rfl
  | float8 =>
    simp only [Value.wire] at h
    cases h
    refine iff_of_true (denotes_of_read? ?_) rfl
    rw [read?, readWord?_of_lt x.bits.toNat_lt, Option.map_some, UInt64.ofNat_toNat]
    rfl
  | _ => cases hkind

/-! ### Timestamps -/

end ScalarType

theorem Timestamp.eq_microseconds_iff (t : Timestamp) :
    t = { nanoseconds := 1000 * t.microseconds } ↔ t.isWhole := by
  obtain ⟨nanoseconds, leap⟩ := t
  simp only [microseconds, isWhole, mk.injEq, Bool.and_eq_true, beq_iff_eq, Bool.not_eq_true']
  refine and_congr_left' ?_
  rw [← Int.dvd_iff_emod_eq_zero]
  exact ⟨fun h => ⟨_, h⟩, fun h => (Int.mul_tdiv_cancel' h).symm⟩

namespace ScalarType

/-- Where a value has the kind of a type, its bytes stand for it exactly if the type takes it. -/
theorem denotes_of_kind {t : ScalarType} {v : Value} {bs : List UInt8}
    (h : v.wire (.scalar t) = .ok (some bs)) (hkind : v.kind? = some t.kind)
    (hjson : ∀ j ∈ v.documents, parse j.compact = some j) :
    t.Denotes parse bs v ↔ t.takes v := by
  cases v with
  | null | list items => cases hkind
  | int n => exact denotes_int h (Option.some.inj hkind).symm
  | float x => exact denotes_float h (Option.some.inj hkind).symm
  | bool b =>
    simp only [Value.wire] at h
    cases h
    cases t <;> cases hkind
    refine iff_of_true (denotes_of_read? ?_) rfl
    cases b <;> rfl
  | text s =>
    simp only [Value.wire] at h
    cases h
    cases t <;> cases hkind <;>
      exact iff_of_true (denotes_of_read? (by rw [read?, readUtf8?_utf8]; rfl)) rfl
  | bytes bs =>
    simp only [Value.wire] at h
    cases h
    cases t <;> cases hkind
    exact iff_of_true (denotes_of_read? rfl) rfl
  | json j =>
    have hparse : parse j.compact = some j := hjson j (by simp [Value.documents])
    simp only [Value.wire] at h
    cases h
    cases t <;> cases hkind
    · refine iff_of_true (denotes_of_read? ?_) rfl
      rw [read?, if_neg (by simp), List.nil_append, readUtf8?_utf8, Option.bind_eq_bind,
        Option.bind_some, hparse]
      rfl
    · refine iff_of_true (denotes_of_read? ?_) rfl
      show ((readUtf8? (utf8 j.compact) >>= parse).map Value.json) = _
      rw [readUtf8?_utf8, Option.bind_eq_bind, Option.bind_some, hparse]
      rfl
  | uuid u =>
    simp only [Value.wire] at h
    cases h
    cases t <;> cases hkind
    exact iff_of_true (denotes_of_read? (by rw [read?, readUuid?_bytes]; rfl)) rfl
  | date d =>
    obtain ⟨bytes, hbytes, h⟩ := Except.bind_eq_ok.1 (by simpa only [Value.wire] using h)
    obtain ⟨hfits, rfl⟩ := counted_eq_ok.1 hbytes
    cases h
    cases t <;> cases hkind
    refine iff_of_true (denotes_of_read? ?_) rfl
    rw [read?, readInt?_of_fits (by norm_num) hfits]
    rfl
  | timestamp s =>
    obtain ⟨bytes, hbytes, h⟩ := Except.bind_eq_ok.1 (by simpa only [Value.wire] using h)
    obtain ⟨hfits, rfl⟩ := counted_eq_ok.1 hbytes
    cases h
    cases t <;> cases hkind
    have htakes : timestamp.takes (.timestamp s) = s.isWhole := rfl
    have hsame (w : Value) := Value.sameAs_iff_eq (v := .timestamp s) (w := w) rfl
    rw [htakes, ← Timestamp.eq_microseconds_iff]
    simp [Denotes, read?, readInt?_of_fits (by norm_num) hfits, Value.roundedTo, hsame]
  | instant s =>
    obtain ⟨bytes, hbytes, h⟩ := Except.bind_eq_ok.1 (by simpa only [Value.wire] using h)
    obtain ⟨hfits, rfl⟩ := counted_eq_ok.1 hbytes
    cases h
    cases t <;> cases hkind
    have htakes : timestamptz.takes (.instant s) = s.isWhole := rfl
    have hsame (w : Value) := Value.sameAs_iff_eq (v := .instant s) (w := w) rfl
    rw [htakes, ← Timestamp.eq_microseconds_iff]
    simp [Denotes, read?, readInt?_of_fits (by norm_num) hfits, Value.roundedTo, hsame]

/-- The bytes of a single value stand for it exactly if the type takes it. -/
theorem denotes_iff_takes {t : ScalarType} {v : Value} {bs : List UInt8}
    (h : v.wire (.scalar t) = .ok (some bs)) (hjson : ∀ j ∈ v.documents, parse j.compact = some j) :
    t.Denotes parse bs v ↔ t.takes v := by
  by_cases hkind : v.kind? = some t.kind
  · exact denotes_of_kind h hkind hjson
  · refine iff_of_false (fun hdenotes => hkind ?_) fun htakes => hkind (kind?_of_takes htakes)
    obtain ⟨w, hw, hsame⟩ := hdenotes
    rw [← kind?_of_read? hw, ← hsame.kind?_eq, Value.kind?_roundedTo]

/-- Whether an item of an array stands for a value: no bytes for a null, and else the bytes. -/
def ItemDenotes (parse : String → Option Json) (t : ScalarType) (item : Option (List UInt8))
    (v : Value) : Prop :=
  match item with
  | none => v = .null
  | some bs => t.Denotes parse bs v

theorem itemDenotes_wire_iff {t : ScalarType} {v : Value} {item : Option (List UInt8)}
    (h : v.wire (.scalar t) = .ok item) (hjson : ∀ j ∈ v.documents, parse j.compact = some j) :
    t.ItemDenotes parse item v ↔ v.isNull || t.takes v := by
  have hnull := Value.isNull_of_wire h
  cases item with
  | none =>
    cases v with
    | null => exact iff_of_true rfl rfl
    | _ => cases hnull
  | some bs =>
    rw [hnull, Option.isNone_some, Bool.false_or]
    exact denotes_iff_takes h hjson

end ScalarType

/-! ### All types -/

namespace WireType

/-- Whether the bytes of a value stand for it as a value of a type. A list is taken item by item,
nulls by every element type. -/
def takes : WireType → Value → Bool
  | scalar t, v => t.takes v
  | array t, .list items => items.all fun v => v.isNull || t.takes v
  | array _, _ => false

/-- Whether bytes stand for a value in the format of a type. -/
def Denotes (parse : String → Option Json) : WireType → List UInt8 → Value → Prop
  | scalar t, bs, v => t.Denotes parse bs v
  | array t, bs, v => ∃ items sent, v = .list items ∧ readArray? t bs = some sent
      ∧ List.Forall₂ (t.ItemDenotes parse) sent items

theorem forall₂_itemDenotes_iff {t : ScalarType} {items : List Value}
    {sent : List (Option (List UInt8))} (h : Value.SentAs t items sent)
    (hjson : ∀ j ∈ Value.documentsAll items, parse j.compact = some j) :
    List.Forall₂ (t.ItemDenotes parse) sent items
      ↔ items.all fun v => v.isNull || t.takes v := by
  induction h with
  | nil => simp
  | cons hv _ ih =>
    obtain ⟨hfirst, hrest⟩ := List.forall_mem_append.1 hjson
    rw [List.forall₂_cons, ScalarType.itemDenotes_wire_iff hv hfirst, ih hrest, List.all_cons,
      Bool.and_eq_true]

theorem denotes_array_iff {t : ScalarType} {v : Value} {bs : List UInt8}
    (h : v.wire (.array t) = .ok (some bs)) (hjson : ∀ j ∈ v.documents, parse j.compact = some j) :
    (array t).Denotes parse bs v ↔ (array t).takes v := by
  cases v with
  | list items =>
    obtain ⟨sent, hsent, hread⟩ := Value.readArray?_of_wire h
    have hitems := forall₂_itemDenotes_iff hsent (by simpa only [Value.documents] using hjson)
    simp only [Denotes, takes, ← hitems, hread, Value.list.injEq, Option.some.injEq]
    constructor
    · rintro ⟨_, _, rfl, rfl, hdenotes⟩
      exact hdenotes
    · exact fun hdenotes => ⟨items, sent, rfl, rfl, hdenotes⟩
  | _ => simp [Denotes, takes]

/-- If a value that is no null can be sent for a placeholder of a type, then as bytes, and these
stand for the value exactly if the type takes it. How the text of a document is read is left open,
but for the documents in the value: these are read back. -/
theorem denotes_wire_iff {type : WireType} {v : Value} {sent : Option (List UInt8)}
    (hv : v ≠ .null) (h : v.wire type = .ok sent)
    (hjson : ∀ j ∈ v.documents, parse j.compact = some j) :
    ∃ bs, sent = some bs ∧ (type.Denotes parse bs v ↔ type.takes v) := by
  have hnull := Value.isNull_of_wire h
  cases sent with
  | none =>
    cases v with
    | null => exact absurd rfl hv
    | _ => cases hnull
  | some bs =>
    refine ⟨bs, rfl, ?_⟩
    cases type with
    | scalar t => exact ScalarType.denotes_iff_takes h hjson
    | array t => exact denotes_array_iff h hjson

/-- A document with a null in it. -/
def nullDocument : Json := .array [.null, .bool true]

theorem denotes_nullDocument :
    (∃ bs, (Value.json nullDocument).wire (.scalar .jsonb) = .ok (some bs)
      ∧ (scalar .jsonb).Denotes Json.parse? bs (.json nullDocument))
    ∧ (Value.list [.int 300, .null]).wire (.array .int2)
        = .ok (some [0, 0, 0, 1, 0, 0, 0, 1, 0, 0, 0, 21, 0, 0, 0, 2, 0, 0, 0, 1,
          0, 0, 0, 2, 1, 44, 255, 255, 255, 255])
      ∧ (array .int2).Denotes Json.parse? [0, 0, 0, 1, 0, 0, 0, 1, 0, 0, 0, 21, 0, 0, 0, 2,
          0, 0, 0, 1, 0, 0, 0, 2, 1, 44, 255, 255, 255, 255] (.list [.int 300, .null]) := by
  have hparse : ∀ j ∈ (Value.json nullDocument).documents, Json.parse? j.compact = some j := by
    intro j hj
    obtain rfl : j = nullDocument := by simpa [Value.documents] using hj
    cbv
  have hjson : (Value.json nullDocument).wire (.scalar .jsonb)
      = .ok (some (1 :: utf8 nullDocument.compact)) := rfl
  have hlist : (Value.list [.int 300, .null]).wire (.array .int2)
      = .ok (some [0, 0, 0, 1, 0, 0, 0, 1, 0, 0, 0, 21, 0, 0, 0, 2, 0, 0, 0, 1,
        0, 0, 0, 2, 1, 44, 255, 255, 255, 255]) := rfl
  obtain ⟨bs, hsent, hdenotes⟩ := denotes_wire_iff (by simp) hjson hparse
  have hnone : ∀ j ∈ (Value.list [.int 300, .null]).documents, Json.parse? j.compact = some j := by
    simp [Value.documents, Value.documentsAll]
  obtain ⟨bs', hsent', hdenotes'⟩ := denotes_wire_iff (by simp) hlist hnone
  obtain rfl := Option.some.inj hsent'
  exact ⟨⟨bs, hsent ▸ hjson, hdenotes.2 rfl⟩, hlist, hdenotes'.2 rfl⟩

/-- The integer one, sent for a double, stands for another number. -/
theorem not_denotes_one :
    (Value.int 1).wire (.scalar .float8) = .ok (some [0, 0, 0, 0, 0, 0, 0, 1])
      ∧ ∀ parse, ¬ (scalar .float8).Denotes parse [0, 0, 0, 0, 0, 0, 0, 1] (.int 1) := by
  have hwire : (Value.int 1).wire (.scalar .float8) = .ok (some [0, 0, 0, 0, 0, 0, 0, 1]) := rfl
  refine ⟨hwire, fun parse hdenotes => ?_⟩
  have htakes := (ScalarType.denotes_iff_takes hwire (by simp [Value.documents])).1 hdenotes
  cases htakes

end WireType

end SqlAssembly
