import SqlAssembly.Json.Basic

/-!
# Reading JSON

Reading has two steps. `JsonTree.read?` checks the grammar and keeps numerals, escapes and repeated
keys as they were written; `JsonTree.toJson?` gives them their meaning, which can fail where a
numeral is too large or an escape is half of a surrogate pair. A reader that ignores a part of a
document ignores the second step for it.
-/

namespace SqlAssembly

/-- One element of a written string: a character, or the code unit of a `\u` escape. -/
inductive JsonUnit where
  | char (c : Char)
  | unit (n : Nat)

/-- A document as it was written. -/
inductive JsonTree where
  | null
  | bool (b : Bool)
  | number (n : Numeral)
  | text (units : List JsonUnit)
  | array (items : List JsonTree)
  | object (members : List (List JsonUnit × JsonTree))

namespace JsonUnit

/-- The characters that units stand for: a high surrogate must be followed by a low one, and a low
one may not stand alone. -/
def decode? : List JsonUnit → Option (List Char)
  | [] => some []
  | .char c :: us => (decode? us).map (c :: ·)
  | .unit high :: .unit low :: us =>
    if 0xD800 ≤ high ∧ high < 0xDC00 then
      if 0xDC00 ≤ low ∧ low < 0xE000 then
        (decode? us).map (Char.ofNat (0x10000 + (high - 0xD800) * 0x400 + (low - 0xDC00)) :: ·)
      else none
    else if 0xDC00 ≤ high ∧ high < 0xE000 then none
    else (decode? (.unit low :: us)).map (Char.ofNat high :: ·)
  | .unit n :: us =>
    if 0xD800 ≤ n ∧ n < 0xE000 then none else (decode? us).map (Char.ofNat n :: ·)

/-- The text that units stand for. -/
def text? (us : List JsonUnit) : Option String := (decode? us).map String.ofList

end JsonUnit

namespace JsonTree

/-! ### Tokens -/

/-- The text behind the blanks that separate tokens. -/
def skipBlanks (cs : List Char) : List Char :=
  cs.dropWhile fun c => c == ' ' || c == '\n' || c == '\r' || c == '\t'

/-- The leading decimal digits, as numbers, and the rest. -/
def takeDigits (cs : List Char) : List Nat × List Char :=
  ((cs.takeWhile Char.isDigit).map fun c => c.toNat - '0'.toNat, cs.dropWhile Char.isDigit)

/-- A numeral: no leading zeros, and at least one digit in each part. -/
def readNumeral? (cs : List Char) : Option (Numeral × List Char) := do
  let (negative, cs) := match cs with
    | '-' :: cs => (true, cs)
    | cs => (false, cs)
  let (whole, cs) := takeDigits cs
  guard (whole = [0] ∨ (whole ≠ [] ∧ whole.head? ≠ some 0))
  let (fraction, cs) ← match cs with
    | '.' :: cs =>
      let (ds, cs) := takeDigits cs
      if ds = [] then none else some (some ds, cs)
    | cs => some (none, cs)
  let (exponent, cs) ← match cs with
    | c :: cs' =>
      if c = 'e' ∨ c = 'E' then
        let (low, cs) := match cs' with
          | '-' :: cs => (true, cs)
          | '+' :: cs => (false, cs)
          | cs => (false, cs)
        let (ds, cs) := takeDigits cs
        if ds = [] then none else some (some (low, ds), cs)
      else some (none, cs)
    | [] => some (none, [])
  some (⟨negative, whole, fraction, exponent⟩, cs)

/-- The value of a hexadecimal digit. -/
def hexValue? (c : Char) : Option Nat :=
  if c.isDigit then some (c.toNat - '0'.toNat)
  else if 'a' ≤ c ∧ c ≤ 'f' then some (c.toNat - 'a'.toNat + 10)
  else if 'A' ≤ c ∧ c ≤ 'F' then some (c.toNat - 'A'.toNat + 10)
  else none

/-- The character that a one-letter escape stands for. -/
def escaped? : Char → Option Char
  | '"' => some '"'
  | '\\' => some '\\'
  | '/' => some '/'
  | 'b' => some '\x08'
  | 'f' => some '\x0c'
  | 'n' => some '\n'
  | 'r' => some '\r'
  | 't' => some '\t'
  | _ => none

/-- The units of a string up to its closing quote, and what follows it. -/
def readUnits? : List Char → Option (List JsonUnit × List Char)
  | [] => none
  | '"' :: cs => some ([], cs)
  | '\\' :: 'u' :: a :: b :: c :: d :: cs => do
    let n := (← hexValue? a) * 4096 + (← hexValue? b) * 256 + (← hexValue? c) * 16 + (← hexValue? d)
    let (us, rest) ← readUnits? cs
    some (.unit n :: us, rest)
  | '\\' :: e :: cs => do
    let c ← escaped? e
    let (us, rest) ← readUnits? cs
    some (.char c :: us, rest)
  | c :: cs =>
    if c = '\\' ∨ c.toNat < 0x20 then none
    else do
      let (us, rest) ← readUnits? cs
      some (.char c :: us, rest)

/-- The text behind a word, if it starts with the word. -/
def afterWord? : List Char → List Char → Option (List Char)
  | [], cs => some cs
  | w :: ws, c :: cs => if w = c then afterWord? ws cs else none
  | _ :: _, [] => none

/-! ### Trees -/

mutual

/-- A value, in as many steps as the first argument allows. -/
def readValue? : Nat → List Char → Option (JsonTree × List Char)
  | 0, _ => none
  | steps + 1, cs =>
    match skipBlanks cs with
    | 'n' :: cs => (afterWord? "ull".toList cs).map fun rest => (.null, rest)
    | 't' :: cs => (afterWord? "rue".toList cs).map fun rest => (.bool true, rest)
    | 'f' :: cs => (afterWord? "alse".toList cs).map fun rest => (.bool false, rest)
    | '"' :: cs => (readUnits? cs).map fun (us, rest) => (.text us, rest)
    | '[' :: cs =>
      match skipBlanks cs with
      | ']' :: rest => some (.array [], rest)
      | cs => (readItems? steps cs).map fun (ts, rest) => (.array ts, rest)
    | '\x7b' :: cs =>
      match skipBlanks cs with
      | '\x7d' :: rest => some (.object [], rest)
      | cs => (readMembers? steps cs).map fun (ms, rest) => (.object ms, rest)
    | cs => (readNumeral? cs).map fun (n, rest) => (.number n, rest)

/-- One or more items, up to the bracket that closes the array. -/
def readItems? : Nat → List Char → Option (List JsonTree × List Char)
  | 0, _ => none
  | steps + 1, cs => do
    let (t, cs) ← readValue? steps cs
    match skipBlanks cs with
    | ',' :: cs =>
      let (ts, rest) ← readItems? steps cs
      some (t :: ts, rest)
    | ']' :: rest => some ([t], rest)
    | _ => none

/-- One or more members, up to the brace that closes the object. -/
def readMembers? : Nat → List Char → Option (List (List JsonUnit × JsonTree) × List Char)
  | 0, _ => none
  | steps + 1, cs => do
    let cs ← afterWord? ['"'] (skipBlanks cs)
    let (key, cs) ← readUnits? cs
    let cs ← afterWord? [':'] (skipBlanks cs)
    let (t, cs) ← readValue? steps cs
    match skipBlanks cs with
    | ',' :: cs =>
      let (ms, rest) ← readMembers? steps cs
      some ((key, t) :: ms, rest)
    | '\x7d' :: rest => some ([(key, t)], rest)
    | _ => none

end

/-- The tree of a text that is one document. Each step but every second reads a character, so twice
the length of the text is steps enough. -/
def read? (s : String) : Option JsonTree := do
  let cs := s.toList
  let (t, rest) ← readValue? (2 * cs.length + 2) cs
  guard (skipBlanks rest = [])
  some t

/-! ### Meaning -/

mutual

/-- The document that a tree stands for. -/
def toJson? : JsonTree → Option Json
  | .null => some .null
  | .bool b => some (.bool b)
  | .number n => n.value?.map .number
  | .text us => (JsonUnit.text? us).map .text
  | .array ts => (itemsToJson? ts).map .array
  | .object ms => (membersToJson? ms).map .ofMembers

/-- The items of an array. -/
def itemsToJson? : List JsonTree → Option (List Json)
  | [] => some []
  | t :: ts => do
    let j ← toJson? t
    let js ← itemsToJson? ts
    some (j :: js)

/-- The members of an object. -/
def membersToJson? : List (List JsonUnit × JsonTree) → Option (List (String × Json))
  | [] => some []
  | m :: ms => do
    let key ← JsonUnit.text? m.1
    let j ← toJson? m.2
    let rest ← membersToJson? ms
    some ((key, j) :: rest)

end

end JsonTree

/-- The document that a text writes. -/
def Json.parse? (s : String) : Option Json := JsonTree.read? s >>= JsonTree.toJson?

end SqlAssembly
