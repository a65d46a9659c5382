/-!
# Binary floating point

Bit patterns of the interchange formats `binary64` and `binary32`, decoded into an integer times a
power of two, and the rounding of a quotient of naturals to the nearest pattern, ties to even.
Everything is exact integer arithmetic.
-/

namespace SqlAssembly

/-- The layout of a format: a sign bit, then the exponent field, then the fraction field. -/
structure BinaryFormat where
  fractionBits : Nat
  exponentBits : Nat
  deriving DecidableEq, Repr

/-- What a bit pattern stands for. -/
inductive BinaryValue where
  /-- `± mantissa * 2 ^ exponent`. -/
  | finite (negative : Bool) (mantissa : Nat) (exponent : Int)
  | infinity (negative : Bool)
  | nan (negative : Bool) (payload : Nat)
  deriving DecidableEq, Repr

namespace BinaryFormat

/-- Eleven bits of exponent, fifty-two of fraction. -/
def binary64 : BinaryFormat := ⟨52, 11⟩

/-- Eight bits of exponent, twenty-three of fraction. -/
def binary32 : BinaryFormat := ⟨23, 8⟩

/-- The leading bit of a normal number, which is not stored; fractions are below it. -/
def hiddenBit (f : BinaryFormat) : Nat := Nat.pow 2 f.fractionBits

/-- The biased exponent of infinities and NaN. -/
def topExponent (f : BinaryFormat) : Nat := Nat.pow 2 f.exponentBits - 1

/-- The exponent of the last place of the subnormal numbers. -/
def minExponent (f : BinaryFormat) : Int :=
  2 - (Nat.pow 2 (f.exponentBits - 1) : Int) - f.fractionBits

/-- The pattern of positive infinity. -/
def infinityBits (f : BinaryFormat) : Nat := f.topExponent * f.hiddenBit

/-- The sign bit alone. -/
def signBit (f : BinaryFormat) : Nat := Nat.pow 2 (f.fractionBits + f.exponentBits)

/-! ### Decoding -/

/-- The value of a bit pattern. -/
def decode (f : BinaryFormat) (bits : Nat) : BinaryValue :=
  let fraction := bits % f.hiddenBit
  let biased := bits / f.hiddenBit % (f.topExponent + 1)
  let negative := bits / f.signBit % 2 == 1
  if biased = f.topExponent then
    if fraction = 0 then .infinity negative else .nan negative fraction
  else if biased = 0 then .finite negative fraction f.minExponent
  else .finite negative (f.hiddenBit + fraction) (f.minExponent + biased - 1)

/-! ### Rounding -/

/-- The quotient `num / (den * 2 ^ e)` as a numerator and a denominator. -/
def scaled (num den : Nat) (e : Int) : Nat × Nat :=
  if 0 ≤ e then (num, den * Nat.pow 2 e.toNat) else (num * Nat.pow 2 (-e).toNat, den)

/-- The integer nearest to a quotient, a tie going to the even one. -/
def nearest (num den : Nat) : Nat :=
  let q := num / den
  let r := num % den
  if den < 2 * r ∨ (2 * r = den ∧ q % 2 = 1) then q + 1 else q

/-- The exponent `k` with `2 ^ k ≤ num / den < 2 ^ (k + 1)`. -/
def magnitude (num den : Nat) : Int :=
  let k : Int := (num.log2 : Int) - den.log2
  let (n, d) := scaled num den k
  if n < d then k - 1 else k

/-- The pattern nearest to `num / den`, without its sign; what is too large is infinite. -/
def round (f : BinaryFormat) (num den : Nat) : Nat :=
  if num = 0 then 0 else
    let e := max f.minExponent (magnitude num den - f.fractionBits)
    let (n, d) := scaled num den e
    min ((e - f.minExponent).toNat * f.hiddenBit + nearest n d) f.infinityBits

/-- The pattern nearest to `mantissa * 2 ^ exponent`, without its sign. -/
def roundScaled (f : BinaryFormat) (mantissa : Nat) (exponent : Int) : Nat :=
  let (n, d) := scaled mantissa 1 (-exponent)
  f.round n d

/-- A pattern with its sign bit set or not. -/
def signed (f : BinaryFormat) (negative : Bool) (bits : Nat) : Nat :=
  if negative then f.signBit + bits else bits

/-- The pattern of a value in another format. A NaN keeps the leading bits of its payload and
becomes quiet. -/
def encode (f : BinaryFormat) (payloadBits : Nat) : BinaryValue → Nat
  | .finite negative m e => f.signed negative (f.roundScaled m e)
  | .infinity negative => f.signed negative f.infinityBits
  | .nan negative payload =>
    let moved := payload * f.hiddenBit / Nat.pow 2 payloadBits % f.hiddenBit
    let quiet := f.hiddenBit / 2
    f.signed negative (f.infinityBits + (if moved < quiet then moved + quiet else moved))

/-- The pattern in `target` of what a pattern of `f` stands for. -/
def convert (f target : BinaryFormat) (bits : Nat) : Nat :=
  target.encode f.fractionBits (f.decode bits)

/-- A natural number, rounded. -/
def ofNat (f : BinaryFormat) (n : Nat) : Nat := f.round n 1

/-- The product of two finite patterns without sign, rounded. -/
def mul (f : BinaryFormat) (a b : Nat) : Nat :=
  match f.decode a, f.decode b with
  | .finite _ m e, .finite _ n k => f.roundScaled (m * n) (e + k)
  | _, _ => f.infinityBits

/-- The quotient of two finite patterns without sign, rounded; the divisor is not zero. -/
def div (f : BinaryFormat) (a b : Nat) : Nat :=
  match f.decode a, f.decode b with
  | .finite _ m e, .finite _ n k =>
    let (num, den) := scaled m n (k - e)
    f.round num den
  | _, _ => f.infinityBits

end BinaryFormat

/-! ### Double precision -/

/-- A double-precision number, as its bit pattern. -/
structure Binary64 where
  bits : UInt64
  deriving DecidableEq, Repr

namespace Binary64

/-- The value of the pattern. -/
def value (x : Binary64) : BinaryValue := BinaryFormat.binary64.decode x.bits.toNat

/-- The bits of the nearest single-precision number. -/
def toBinary32 (x : Binary64) : UInt32 :=
  UInt32.ofNat (BinaryFormat.binary64.convert .binary32 x.bits.toNat)

/-- A single-precision number, widened. -/
def ofBinary32 (bits : UInt32) : Binary64 :=
  ⟨UInt64.ofNat (BinaryFormat.binary32.convert .binary64 bits.toNat)⟩

/-- The number rounded to single precision. -/
def toSingle (x : Binary64) : Binary64 := ofBinary32 x.toBinary32

/-- The double-precision number nearest to a natural number. -/
def ofNat (n : Nat) : Binary64 := ⟨UInt64.ofNat (BinaryFormat.binary64.ofNat n)⟩

/-- The number with its sign turned. -/
def neg (x : Binary64) : Binary64 := ⟨x.bits ^^^ 0x8000000000000000⟩

end Binary64

end SqlAssembly
