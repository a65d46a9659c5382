/-!
# Universally unique identifiers

Sixteen bytes, written as thirty-two hexadecimal digits in groups of 8, 4, 4, 4 and 12.
-/

namespace SqlAssembly

/-- A universally unique identifier. -/
structure Uuid where
  bits : BitVec 128
  deriving DecidableEq, Repr

namespace Uuid

/-- The thirty-two digits. -/
def digits (u : Uuid) : List Char :=
  let ds := Nat.toDigits 16 u.bits.toNat
  List.replicate (32 - ds.length) '0' ++ ds

/-- The digits in lower case, grouped by hyphens. -/
def text (u : Uuid) : String :=
  let ds := u.digits
  String.ofList (ds.take 8 ++ '-' :: (ds.drop 8).take 4 ++ '-' :: (ds.drop 12).take 4
    ++ '-' :: (ds.drop 16).take 4 ++ '-' :: ds.drop 20)

/-- The sixteen bytes, the most significant first. -/
def bytes (u : Uuid) : List UInt8 :=
  (List.range 16).map fun i => UInt8.ofNat (u.bits.toNat / Nat.pow 256 (15 - i))

/-- The value of a hexadecimal digit. -/
def digitValue? (c : Char) : Option Nat :=
  if c.isDigit then some (c.toNat - '0'.toNat)
  else if 'a' ≤ c.toLower ∧ c.toLower ≤ 'f' then some (c.toLower.toNat - 'a'.toNat + 10)
  else none

/-- The number that hexadecimal digits write. -/
def number? (cs : List Char) : Option Nat :=
  cs.foldlM (fun n c => (digitValue? c).map (16 * n + ·)) 0

/-- The identifier that a text writes: the digits alone or grouped by hyphens. -/
def ofText? (s : String) : Option Uuid :=
  let cs := s.toList
  let hyphens := [8, 13, 18, 23]
  let digits :=
    if cs.length = 36 ∧ hyphens.all (fun i => cs[i]? == some '-') then cs.filter (· != '-') else cs
  if digits.length = 32 then (number? digits).map fun n => ⟨BitVec.ofNat 128 n⟩ else none

end Uuid

end SqlAssembly
