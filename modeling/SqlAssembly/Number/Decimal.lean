import SqlAssembly.Number.Binary

/-!
# Decimal numerals

A numeral is an optional sign, an integer part, an optional fraction and an optional exponent. Its
value is an integer when it has neither fraction nor exponent and fits sixty-four bits with or
without a sign (`WordInt`), else a double. `Numeral.value?` reads a double in two roundings: the
significant digits, as many as fit an unsigned sixty-four-bit word, are rounded to a double, which
is then multiplied or divided by the double nearest to the power of ten that is left.
`Numeral.isFinite64` judges the exact value.
-/

namespace SqlAssembly

/-- A numeral, taken apart. -/
structure Numeral where
  negative : Bool
  /-- The digits before the point. -/
  whole : List Nat
  /-- The digits behind the point, if there is one. -/
  fraction : Option (List Nat)
  /-- The sign and the digits of the exponent, if there is one. -/
  exponent : Option (Bool × List Nat)

/-- Whether an integer fits a word of sixty-four bits, with or without a sign. -/
def FitsWord (n : Int) : Prop := Int64.minValue.toInt ≤ n ∧ n < UInt64.size

instance (n : Int) : Decidable (FitsWord n) := inferInstanceAs (Decidable (_ ∧ _))

/-- An integer that fits a word of sixty-four bits, with or without a sign. -/
@[ext]
structure WordInt where
  toInt : Int
  fits : FitsWord toInt
  deriving DecidableEq, Repr

namespace WordInt

/-- The integer, if it fits a word. -/
def ofInt? (n : Int) : Option WordInt := if h : FitsWord n then some ⟨n, h⟩ else none

/-- The integer of a word with a sign. -/
def ofInt64 (n : Int64) : WordInt :=
  ⟨n.toInt, n.le_toInt, Int.lt_trans n.toInt_lt (by decide)⟩

/-- The integer of a byte. -/
def ofByte (b : UInt8) : WordInt :=
  ⟨b.toNat, Int.le_trans (by decide) (Int.natCast_nonneg _),
    Int.lt_trans (Int.ofNat_lt.2 b.toNat_lt) (by decide)⟩

@[simp] theorem toInt_ofInt64 (n : Int64) : (ofInt64 n).toInt = n.toInt := rfl

end WordInt

/-- The value of a numeral. -/
inductive NumeralValue where
  | int (n : WordInt)
  | float (x : Binary64)
  deriving DecidableEq, Repr

/-- The number that a list of decimal digits writes. -/
def ofDigits (ds : List Nat) : Nat := ds.foldl (fun n d => 10 * n + d) 0

/-- Digits gathered into a word, and the power of ten by which they are to be scaled. -/
structure Significand where
  word : Nat
  exponent : Int

namespace Significand

/-- The largest unsigned word. -/
def maxWord : Nat := UInt64.size - 1

/-- Digits before the point. Once one does not fit, it and all later ones raise the exponent. -/
def takeWhole (word : Nat) : List Nat → Significand
  | [] => ⟨word, 0⟩
  | d :: ds =>
    if 10 * word + d ≤ maxWord then takeWhole (10 * word + d) ds else ⟨word, ds.length + 1⟩

/-- Digits behind the point, each lowering the exponent. Once one does not fit, it and all later
ones are dropped. -/
def takeFraction (s : Significand) : List Nat → Significand
  | [] => s
  | d :: ds =>
    if 10 * s.word + d ≤ maxWord then takeFraction ⟨10 * s.word + d, s.exponent - 1⟩ ds else s

/-- The bits of a double divided by `10 ^ 308` as often as is needed to bring the exponent within
308 places of zero, and the exponent left. -/
def descend : Nat → Nat → Nat → Nat × Nat
  | 0, bits, e => (bits, e)
  | steps + 1, bits, e =>
    if e ≤ 308 ∨ bits = 0 then (bits, e)
    else
      let f := BinaryFormat.binary64
      descend steps (f.div bits (f.ofNat (Nat.pow 10 308))) (e - 308)

/-- The double nearest to the word, scaled; none when it is too large for a double. -/
def toBinary64? (s : Significand) : Option Binary64 :=
  let f := BinaryFormat.binary64
  let bits := f.ofNat s.word
  if 0 ≤ s.exponent then
    if s.exponent ≤ 308 then
      let scaled := f.mul bits (f.ofNat (Nat.pow 10 s.exponent.toNat))
      if scaled = f.infinityBits then none else some ⟨UInt64.ofNat scaled⟩
    else if bits = 0 then some ⟨0⟩ else none
  else
    -- three divisions bring every double to zero
    let (bits, e) := descend 4 bits s.exponent.natAbs
    if 308 < e then some ⟨0⟩ else some ⟨UInt64.ofNat (f.div bits (f.ofNat (Nat.pow 10 e)))⟩

end Significand

namespace Numeral

/-- The exponent as a number; none when it is beyond thirty-one bits. -/
def exponentValue? (negative : Bool) (ds : List Nat) : Option Int :=
  let n := ofDigits ds
  if n ≤ Int32.maxValue.toInt then some (if negative then -n else n) else none

/-- The value as a double; none when it is too large. -/
def toBinary64? (n : Numeral) : Option Binary64 :=
  let s := (Significand.takeWhole 0 n.whole).takeFraction (n.fraction.getD [])
  let magnitude := match n.exponent with
    | none => s.toBinary64?
    | some (negative, ds) =>
      match exponentValue? negative ds with
      | some e => Significand.toBinary64? ⟨s.word, s.exponent + e⟩
      | none => if s.word = 0 ∨ negative then some ⟨0⟩ else none
  magnitude.map fun x => if n.negative then x.neg else x

/-- Whether the double nearest to the value of a numeral is finite. The value is less than `10 ^ top`
and, unless it is zero, at least `10 ^ (top - 1)`; the largest double lies between `10 ^ 308` and
`10 ^ 309`. -/
def isFinite64 (n : Numeral) : Bool :=
  let fraction := n.fraction.getD []
  let ds := (n.whole ++ fraction).dropWhile (· == 0)
  let scale : Int := match n.exponent with
    | none => 0
    | some (negative, es) => if negative then -(ofDigits es : Int) else ofDigits es
  let scale := scale - fraction.length
  let top := ds.length + scale
  if ds.isEmpty || top < 309 then true
  else if 309 < top then false
  else
    let f := BinaryFormat.binary64
    let m := ofDigits ds
    let bits :=
      if 0 ≤ scale then f.round (m * Nat.pow 10 scale.toNat) 1
      else f.round m (Nat.pow 10 scale.natAbs)
    bits != f.infinityBits

/-- The value of a numeral; none when it is too large for a double. A numeral without fraction and
exponent is an integer from `-2 ^ 63` to `2 ^ 64 - 1`, except that `-0` is a double. -/
def value? (n : Numeral) : Option NumeralValue :=
  match n.fraction, n.exponent with
  | none, none =>
    let magnitude : Int := ofDigits n.whole
    if n.negative ∧ magnitude = 0 then n.toBinary64?.map .float
    else
      match WordInt.ofInt? (if n.negative then -magnitude else magnitude) with
      | some i => some (.int i)
      | none => n.toBinary64?.map .float
  | _, _ => n.toBinary64?.map .float

end Numeral

end SqlAssembly
