import Mathlib.Tactic.Positivity
import Mathlib.Tactic.Ring
import SqlAssembly.Value.Wire

/-!
# Reading bytes

Numbers in two's complement, texts in UTF-8 and identifiers can be read back from their bytes.
-/

namespace SqlAssembly

/-! ### Numbers -/

/-- The number that bytes write, the most significant first. -/
def ofBigEndian (bs : List UInt8) : Nat := bs.foldl (fun n b => 256 * n + b.toNat) 0

/-- The number of the given count of bytes in two's complement. -/
def readInt? (width : Nat) (bs : List UInt8) : Option Int :=
  if bs.length = width then some ((ofBigEndian bs : Int).bmod (256 ^ width)) else none

/-- The word of the given count of bytes. -/
def readWord? (width : Nat) (bs : List UInt8) : Option Nat :=
  if bs.length = width then some (ofBigEndian bs) else none

/-- The last bytes of a number, the most significant first. -/
def lastBytes (width n : Nat) : List UInt8 :=
  (List.range width).map fun i => UInt8.ofNat (n / Nat.pow 256 (width - 1 - i))

theorem bigEndian_eq_lastBytes (width : Nat) (n : Int) :
    bigEndian width n = lastBytes width (n % (256 ^ width : Nat)).toNat := rfl

@[simp] theorem length_lastBytes (width n : Nat) : (lastBytes width n).length = width := by
  simp [lastBytes]

@[simp] theorem length_bigEndian (width : Nat) (n : Int) : (bigEndian width n).length = width :=
  length_lastBytes width _

theorem lastBytes_succ (width n : Nat) :
    lastBytes (width + 1) n = lastBytes width (n / 256) ++ [UInt8.ofNat n] := by
  rw [lastBytes, List.range_succ, List.map_append, List.map_singleton]
  congr 1
  · refine List.map_congr_left fun i hi => ?_
    have hi := List.mem_range.1 hi
    rw [Nat.div_div_eq_div_mul]
    congr 2
    show 256 ^ (width + 1 - 1 - i) = 256 * 256 ^ (width - 1 - i)
    rw [← Nat.pow_succ', Nat.succ_eq_add_one]
    congr 1
    omega
  · simp

theorem ofBigEndian_append_singleton (bs : List UInt8) (b : UInt8) :
    ofBigEndian (bs ++ [b]) = 256 * ofBigEndian bs + b.toNat := by
  simp [ofBigEndian]

theorem ofBigEndian_lastBytes (width n : Nat) : ofBigEndian (lastBytes width n) = n % 256 ^ width := by
  induction width generalizing n with
  | zero => simp [lastBytes, ofBigEndian, Nat.mod_one]
  | succ width ih =>
    rw [lastBytes_succ, ofBigEndian_append_singleton, ih, UInt8.toNat_ofNat',
      pow_succ' 256 width, Nat.mod_mul, add_comm]

theorem ofBigEndian_bigEndian (width : Nat) (n : Int) :
    (ofBigEndian (bigEndian width n) : Int) = n % (256 ^ width : Nat) := by
  have hpos : (0 : Int) < (256 ^ width : Nat) := by positivity
  have hnonneg := Int.emod_nonneg n hpos.ne'
  have hlt := Int.emod_lt_of_pos n hpos
  rw [bigEndian_eq_lastBytes, ofBigEndian_lastBytes, Nat.mod_eq_of_lt (by omega)]
  omega

/-- What is read is the number that is congruent to the one written. -/
theorem readInt?_bigEndian (width : Nat) (n : Int) :
    readInt? width (bigEndian width n) = some (n.bmod (256 ^ width)) := by
  rw [readInt?, if_pos (length_bigEndian width n), ofBigEndian_bigEndian, Int.emod_bmod]

theorem readWord?_bigEndian (width : Nat) (n : Int) :
    readWord? width (bigEndian width n) = some (n % (256 ^ width : Nat)).toNat := by
  rw [readWord?, if_pos (length_bigEndian width n), ← ofBigEndian_bigEndian, Int.toNat_natCast]

/-- A word that fits is read back. -/
theorem readWord?_of_lt {width n : Nat} (h : n < 256 ^ width) :
    readWord? width (bigEndian width n) = some n := by
  rw [readWord?_bigEndian, ← Int.natCast_mod, Int.toNat_natCast, Nat.mod_eq_of_lt h]

/-- Whether a number fits the given count of bytes in two's complement. -/
def Fits (width : Nat) (n : Int) : Prop := -2 ^ (8 * width - 1) ≤ n ∧ n < 2 ^ (8 * width - 1)

instance (width : Nat) (n : Int) : Decidable (Fits width n) :=
  inferInstanceAs (Decidable (_ ∧ _))

theorem bmod_of_fits {width : Nat} (hwidth : 0 < width) {n : Int} (h : Fits width n) :
    n.bmod (256 ^ width) = n := by
  have hpow : 256 ^ width = 2 * 2 ^ (8 * width - 1) := by
    rw [← pow_succ', show 8 * width - 1 + 1 = 8 * width by omega, pow_mul]
    rfl
  obtain ⟨hlow, hhigh⟩ := h
  rw [hpow]
  apply Int.bmod_eq_of_le <;> push_cast <;> omega

/-- A number that fits is read back. -/
theorem readInt?_of_fits {width : Nat} (hwidth : 0 < width) {n : Int} (h : Fits width n) :
    readInt? width (bigEndian width n) = some n := by
  rw [readInt?_bigEndian, bmod_of_fits hwidth h]

theorem narrowed_eq_ok {width : Nat} {n : Int} {bs : List UInt8} :
    narrowed width n = .ok bs ↔ Fits width n ∧ bs = bigEndian width n := by
  have hbound : ((Nat.pow 2 (8 * width - 1) : Nat) : Int) = 2 ^ (8 * width - 1) := by simp
  simp only [narrowed, Fits, hbound]
  by_cases hlow : n < -2 ^ (8 * width - 1)
  · simp [hlow]
  · by_cases hhigh : (2 : Int) ^ (8 * width - 1) ≤ n
    · simp [hlow, hhigh]
    · rw [if_neg hlow, if_neg hhigh, Except.ok.injEq, eq_comm]
      simp [not_lt.1 hlow, not_le.1 hhigh]

theorem counted_eq_ok {width : Nat} {n : Int} {bs : List UInt8} :
    counted width n = .ok bs ↔ Fits width n ∧ bs = bigEndian width n := by
  have hbound : ((Nat.pow 2 (8 * width - 1) : Nat) : Int) = 2 ^ (8 * width - 1) := by simp
  simp only [counted, Fits, hbound]
  by_cases hout : n < -2 ^ (8 * width - 1) ∨ (2 : Int) ^ (8 * width - 1) ≤ n
  · rw [if_pos hout]
    simp
    omega
  · rw [if_neg hout, Except.ok.injEq, eq_comm]
    rw [not_or, not_lt, not_le] at hout
    simp [hout]

theorem fits_int64 (n : Int64) : Fits 8 n.toInt := ⟨n.le_toInt, n.toInt_lt⟩

/-! ### Texts -/

/-- The text of UTF-8 bytes. -/
def readUtf8? (bs : List UInt8) : Option String := String.fromUTF8? bs.toByteArray

theorem toList_loop (bs : ByteArray) (i : Nat) (r : List UInt8) :
    ByteArray.toList.loop bs i r = r.reverse ++ bs.data.toList.drop i := by
  fun_induction ByteArray.toList.loop bs i r with
  | case1 i r h ih =>
    have hlt : i < bs.data.toList.length := h
    have hget : bs.get! i = bs.data.toList[i] := by
      rw [Array.getElem_toList]
      exact getElem!_pos bs.data i h
    rw [ih, List.drop_eq_getElem_cons hlt, hget, List.reverse_cons, List.append_assoc,
      List.singleton_append]
  | case2 i r h =>
    rw [List.drop_eq_nil_of_le (not_lt.1 h), List.append_nil]

theorem toByteArray_utf8 (s : String) : (utf8 s).toByteArray = s.toByteArray := by
  apply ByteArray.ext
  rw [List.data_toByteArray, utf8, ByteArray.toList, toList_loop]
  rfl

theorem readUtf8?_utf8 (s : String) : readUtf8? (utf8 s) = some s := by
  rw [readUtf8?, toByteArray_utf8, String.fromUTF8?, dif_pos s.isValidUTF8]
  rfl

/-! ### Identifiers -/

/-- The identifier of sixteen bytes. -/
def readUuid? (bs : List UInt8) : Option Uuid :=
  (readWord? 16 bs).map fun n => ⟨BitVec.ofNat 128 n⟩

theorem readUuid?_bytes (u : Uuid) : readUuid? u.bytes = some u := by
  have hbytes : u.bytes = lastBytes 16 u.bits.toNat := rfl
  have hlt : u.bits.toNat < 256 ^ 16 := u.bits.isLt
  rw [readUuid?, readWord?, hbytes, if_pos (length_lastBytes 16 _), ofBigEndian_lastBytes,
    Nat.mod_eq_of_lt hlt, Option.map_some, BitVec.ofNat_toNat, BitVec.setWidth_eq]

end SqlAssembly
