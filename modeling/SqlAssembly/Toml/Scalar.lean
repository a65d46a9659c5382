import SqlAssembly.Calendar
import SqlAssembly.Number.Decimal
import SqlAssembly.Toml.Basic

/-!
# TOML numbers and dates

A word that is not quoted is a truth value, an integer, a float, or a date or time. Underscores may
stand between digits; decimal numbers have no leading zeros; a float may not be too large.
-/

namespace SqlAssembly.Toml

/-! ### Integers and floats -/

/-- The digits of a number, single underscores between them left out. -/
def digits? (isDigit : Char → Bool) : List Char → Option (List Char)
  | [] => none
  | [c] => if isDigit c then some [c] else none
  | c :: '_' :: cs => if isDigit c then (digits? isDigit cs).map (c :: ·) else none
  | c :: cs => if isDigit c then (digits? isDigit cs).map (c :: ·) else none

/-- The value of a digit. -/
def digitValue (c : Char) : Nat :=
  if c.isDigit then c.toNat - '0'.toNat else c.toLower.toNat - 'a'.toNat + 10

/-- Whether a character is a digit in the given base. -/
def isDigitIn (base : Nat) (c : Char) : Bool :=
  (c.isDigit || ('a' ≤ c.toLower && c.toLower ≤ 'f')) && digitValue c < base

/-- A natural number in the given base. -/
def natural? (base : Nat) (cs : List Char) : Option Nat :=
  (digits? (isDigitIn base) cs).map fun ds => ds.foldl (fun n c => base * n + digitValue c) 0

/-- Decimal digits without a leading zero, as numbers. -/
def decimal? (cs : List Char) : Option (List Nat) := do
  let ds ← digits? Char.isDigit cs
  guard (ds.length = 1 ∨ ds.head? ≠ some '0')
  return ds.map digitValue

/-- A sign, if there is one, and what follows it. -/
def sign (cs : List Char) : Bool × List Char :=
  match cs with
  | '-' :: cs => (true, cs)
  | '+' :: cs => (false, cs)
  | cs => (false, cs)

/-- An integer, which must fit 128 bits. -/
def integer? (cs : List Char) : Option Int := do
  let n : Int ← match cs with
    | '0' :: 'x' :: cs => (natural? 16 cs).map Int.ofNat
    | '0' :: 'o' :: cs => (natural? 8 cs).map Int.ofNat
    | '0' :: 'b' :: cs => (natural? 2 cs).map Int.ofNat
    | cs =>
      let (negative, ds) := sign cs
      (decimal? ds).map fun ds => if negative then -(ofDigits ds : Int) else ofDigits ds
  let bound : Int := Nat.pow 2 127
  guard (-bound ≤ n ∧ n < 2 * bound)
  return n

/-- Whether a word is a float. -/
def isFloat (cs : List Char) : Bool :=
  let (negative, cs) := sign cs
  if cs = "inf".toList ∨ cs = "nan".toList then true
  else
    let mantissa := cs.takeWhile fun c => c != 'e' && c != 'E'
    let exponent := cs.drop (mantissa.length + 1)
    let whole := mantissa.takeWhile (· != '.')
    let fraction := mantissa.drop (whole.length + 1)
    let hasExponent := mantissa.length < cs.length
    let hasFraction := whole.length < mantissa.length
    let (low, exponentDigits) := sign exponent
    let numeral? : Option Numeral := do
      guard (hasExponent || hasFraction)
      let whole ← decimal? whole
      let fraction ← if hasFraction then (digits? Char.isDigit fraction).map some else some none
      let exponent ←
        if hasExponent then (digits? Char.isDigit exponentDigits).map some else some none
      return { negative, whole, fraction := fraction.map (List.map digitValue)
               exponent := exponent.map fun ds => (low, ds.map digitValue) }
    numeral?.any Numeral.isFinite64

/-! ### Dates and times -/

/-- Whether two characters write a number up to the given one; the result is what follows them. -/
def upTo? (last : Nat) (cs : List Char) : Option (List Char) := do
  let (n, rest) ← Calendar.twoDigits? cs
  guard (n ≤ last)
  return rest

/-- What follows a date: four digits of the year, the month and the day. -/
def afterDate? (cs : List Char) : Option (List Char) := do
  guard ((cs.takeWhile Char.isDigit).length = 4)
  let (_, rest) ← Calendar.readDate? cs
  return rest

/-- What follows a time of day; seconds and their fraction may be left out. -/
def afterTime? (cs : List Char) : Option (List Char) := do
  let cs ← upTo? 23 cs >>= Calendar.after? ':' >>= upTo? 59
  match cs with
  | ':' :: cs =>
    let cs ← upTo? 60 cs
    match cs with
    | '.' :: cs =>
      guard (cs.takeWhile Char.isDigit ≠ [])
      return cs.dropWhile Char.isDigit
    | cs => return cs
  | cs => return cs

/-- Whether a text is empty or an offset from universal time. -/
def isOffset (cs : List Char) : Bool :=
  cs = [] || cs = ['Z'] || cs = ['z']
    || match cs with
      | c :: cs =>
        (c = '+' || c = '-') && (upTo? 23 cs >>= Calendar.after? ':' >>= upTo? 59) = some []
      | [] => false

/-- Whether a text is a time of day, with an offset or without. -/
def isTime (offset : Bool) (cs : List Char) : Bool :=
  match afterTime? cs with
  | some [] => true
  | some rest => offset && isOffset rest
  | none => false

/-- Whether a text is a date, a time, or both with a separator between them. -/
def isDateTime (cs : List Char) : Bool :=
  isTime false cs
    || match afterDate? cs with
      | some [] => true
      | some (c :: rest) => (c = 'T' || c = 't' || c = ' ') && isTime true rest
      | none => false

/-! ### Words -/

/-- The value of a word that is not quoted. -/
def ofWord? (cs : List Char) : Option Toml :=
  if cs = "true".toList then some (bool true)
  else if cs = "false".toList then some (bool false)
  else match integer? cs with
    | some n => some (integer n)
    | none => if isFloat cs then some float else if isDateTime cs then some dateTime else none

end SqlAssembly.Toml
