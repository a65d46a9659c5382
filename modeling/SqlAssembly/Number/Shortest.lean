import SqlAssembly.Number.Binary

/-!
# Shortest decimals

The decimal with the fewest digits among those that read back as a given double, and of these the
one nearest to it. `Binary64.shortest` finds it; `Binary64.text` writes it, positionally when its
leading digit stands between the places 10⁻⁵ and 10¹⁵, and with an exponent otherwise.
-/

namespace SqlAssembly

/-! ### The digits -/

/-- The numbers that round to a mantissa times a power of two, in quarters of its last place: from
`low` to `high` around `value`, the ends included or not, all times `2 ^ exponent`. -/
structure RoundingInterval where
  low : Nat
  value : Nat
  high : Nat
  exponent : Int
  closed : Bool

namespace RoundingInterval

/-- The interval of a finite double. It is narrower below a power of two, and the ends belong to it
iff the mantissa is even, as ties go to even. -/
def ofFinite (mantissa : Nat) (exponent : Int) : RoundingInterval :=
  let f := BinaryFormat.binary64
  let atPower := mantissa == f.hiddenBit && exponent != f.minExponent
  { low := 4 * mantissa - (if atPower then 1 else 2)
    value := 4 * mantissa
    high := 4 * mantissa + 2
    exponent := exponent - 2
    closed := mantissa % 2 == 0 }

/-- Whether `n / d`, in the unit of the bounds, lies in the interval. -/
def holds (r : RoundingInterval) (n d : Nat) : Bool :=
  if r.closed then r.low * d ≤ n && n ≤ r.high * d else r.low * d < n && n < r.high * d

/-- The digits `c` for which `c * 10 ^ place` lies in the interval and is nearest to the value; of
two that are equally near the even one. -/
def digitsAt? (r : RoundingInterval) (place : Int) : Option Nat :=
  let ten := Nat.pow 10 place.natAbs
  let two := Nat.pow 2 r.exponent.natAbs
  -- one unit of the decimal grid is `unit / scale` units of the bounds
  let unit := (if 0 ≤ place then ten else 1) * (if 0 ≤ r.exponent then 1 else two)
  let scale := (if 0 ≤ place then 1 else ten) * (if 0 ≤ r.exponent then two else 1)
  let below := r.value * scale / unit
  let rest := r.value * scale % unit
  match r.holds (below * unit) scale, r.holds ((below + 1) * unit) scale with
  | true, true =>
    if 2 * rest < unit ∨ (2 * rest = unit ∧ below % 2 = 0) then some below else some (below + 1)
  | true, false => some below
  | false, true => some (below + 1)
  | false, false => none

/-- A decimal place above every number of the interval. -/
def topPlace (r : RoundingInterval) : Int :=
  ((r.value.log2 : Int) + r.exponent + 1) * 30103 / 100000 + 1

/-- Digits and place of the shortest decimal: the first grid with a hit, coarse before fine. Any
grid of seventeen places has one. -/
def shortest (r : RoundingInterval) : Nat × Int :=
  let found := (List.range 24).findSome? fun (i : Nat) =>
    (r.digitsAt? (r.topPlace - i)).map fun c => (c, r.topPlace - i)
  found.getD (0, 0)

end RoundingInterval

/-! ### The text -/

/-- How a decimal is laid out: which places of the leading digit are written positionally. -/
structure DecimalLayout where
  lowest : Int
  highest : Int

namespace DecimalLayout

/-- Positional from 10⁻⁵ to 10¹⁵. -/
def json : DecimalLayout := ⟨-5, 15⟩

/-- The text of `digits * 10 ^ place`. Positional numbers have a digit after the point; exponents
have a sign. -/
def write (l : DecimalLayout) (digits : Nat) (place : Int) : String :=
  let ds := Nat.toDigits 10 digits
  let top := place + ds.length - 1
  if l.lowest ≤ top ∧ top ≤ l.highest then
    if top < 0 then "0." ++ String.ofList (List.replicate (-top - 1).toNat '0' ++ ds)
    else if 0 ≤ place then String.ofList (ds ++ List.replicate place.toNat '0') ++ ".0"
    else String.ofList (ds.take (top.toNat + 1)) ++ "." ++ String.ofList (ds.drop (top.toNat + 1))
  else
    let mantissa := match ds with
      | d :: rest@(_ :: _) => String.ofList (d :: '.' :: rest)
      | ds => String.ofList ds
    mantissa ++ "e" ++ (if top < 0 then "-" else "+") ++ String.ofList (Nat.toDigits 10 top.natAbs)

end DecimalLayout

/-- The shortest text that reads back as a finite double; none for infinities and NaN. -/
def Binary64.text? (x : Binary64) : Option String :=
  match x.value with
  | .finite negative mantissa exponent =>
    let sign := if negative then "-" else ""
    if mantissa = 0 then some (sign ++ "0.0")
    else
      let (digits, place) := (RoundingInterval.ofFinite mantissa exponent).shortest
      some (sign ++ DecimalLayout.json.write digits place)
  | _ => none

end SqlAssembly
