import SqlAssembly.Json.Reader
import SqlAssembly.Toml.Scalar

/-!
# Reading TOML

`Toml.read?` gives the root table of a document, or nothing if the text is not a document. A key has
no more than `Toml.nestingLimit` parts, and arrays and inline tables nest no deeper than that. The
recursion of the reader is bounded by a count of steps that grows with the text.
-/

namespace SqlAssembly.Toml

/-! ### Blanks and comments -/

/-- Blanks within a line. -/
def isSpace (c : Char) : Bool := c == ' ' || c == '\t'

/-- Whether a character may stand in a comment or a quoted string: no control but the tab. -/
def isPlain (c : Char) : Bool := c == '\t' || (0x20 ≤ c.toNat && c.toNat != 0x7F)

/-- The text behind the blanks of a line. -/
def skipSpaces (cs : List Char) : List Char := cs.dropWhile isSpace

/-- What follows the end of a line. -/
def afterNewline? : List Char → Option (List Char)
  | '\n' :: cs => some cs
  | '\r' :: '\n' :: cs => some cs
  | _ => none

/-- The text behind a comment, if it starts with one. -/
def skipComment (cs : List Char) : List Char :=
  match cs with
  | '#' :: cs => cs.dropWhile isPlain
  | cs => cs

/-- What follows the rest of a line: blanks, a comment, and the end of the line or of the text. -/
def afterLine? (cs : List Char) : Option (List Char) :=
  match skipComment (skipSpaces cs) with
  | [] => some []
  | cs => afterNewline? cs

/-- The text behind any number of blanks, ends of lines and comments. -/
def skipLines : Nat → List Char → List Char
  | 0, cs => cs
  | steps + 1, cs =>
    let rest := skipComment (skipSpaces cs)
    match afterNewline? rest with
    | some rest => skipLines steps rest
    | none => rest

/-- The text behind any number of blanks and ends of lines. -/
def skipEmptyLines : Nat → List Char → List Char
  | 0, cs => cs
  | steps + 1, cs =>
    let rest := skipSpaces cs
    match afterNewline? rest with
    | some rest => skipEmptyLines steps rest
    | none => rest

/-! ### Strings -/

/-- The value of hexadecimal digits, all of which must be there. -/
def hex? (count : Nat) (cs : List Char) : Option (Nat × List Char) := do
  let ds := cs.take count
  guard (ds.length = count)
  let n ← ds.foldlM (fun n c => (JsonTree.hexValue? c).map (16 * n + ·)) 0
  return (n, cs.drop count)

/-- The character of a code point; surrogates have none. -/
def charOf? (n : Nat) : Option Char := if h : n.isValidChar then some (Char.ofNatAux n h) else none

/-- The character that an escape stands for, given what follows the backslash. -/
def escape? : List Char → Option (Char × List Char)
  | 'b' :: cs => some ('\x08', cs)
  | 't' :: cs => some ('\t', cs)
  | 'n' :: cs => some ('\n', cs)
  | 'f' :: cs => some ('\x0c', cs)
  | 'r' :: cs => some ('\r', cs)
  | 'e' :: cs => some ('\x1b', cs)
  | '"' :: cs => some ('"', cs)
  | '\\' :: cs => some ('\\', cs)
  | 'x' :: cs => coded 2 cs
  | 'u' :: cs => coded 4 cs
  | 'U' :: cs => coded 8 cs
  | _ => none
where
  /-- A character given by its code point. -/
  coded (count : Nat) (cs : List Char) : Option (Char × List Char) := do
    let (n, rest) ← hex? count cs
    return (← charOf? n, rest)

/-- The characters of a basic string up to its closing quote. -/
def basic? : Nat → List Char → Option (List Char × List Char)
  | 0, _ => none
  | steps + 1, cs =>
    match cs with
    | '"' :: rest => some ([], rest)
    | '\\' :: cs => do
      let (c, cs) ← escape? cs
      let (s, rest) ← basic? steps cs
      return (c :: s, rest)
    | c :: cs =>
      if isPlain c then (basic? steps cs).map fun (s, rest) => (c :: s, rest) else none
    | [] => none

/-- The characters of a literal string up to its closing quote. -/
def literal? (cs : List Char) : Option (List Char × List Char) :=
  let s := cs.takeWhile fun c => isPlain c && c != '\''
  match cs.drop s.length with
  | '\'' :: rest => some (s, rest)
  | _ => none

/-- What closes a string of several lines: three quotes, with up to two of the string's own before
them. -/
def closing? (quote : Char) (cs : List Char) : Option (List Char × List Char) :=
  let quotes := (cs.takeWhile (· == quote)).length
  if quotes < 3 then none
  else some (List.replicate (min quotes 5 - 3) quote, cs.drop (min quotes 5))

/-- Whether a backslash ends its line, given what follows it. -/
def continues? (cs : List Char) : Option (List Char) := afterNewline? (skipSpaces cs)

/-- The characters of a string of several lines. In a basic one a backslash at the end of a line
joins it to the next that is not blank. -/
def lines? (quote : Char) : Nat → List Char → Option (List Char × List Char)
  | 0, _ => none
  | steps + 1, cs =>
    match closing? quote cs with
    | some closed => some closed
    | none =>
      match cs with
      | [] => none
      | c :: cs =>
        if quote = '"' ∧ c = '\\' then
          match continues? cs with
          | some rest => lines? quote steps (skipEmptyLines steps rest)
          | none => do
            let (c, cs) ← escape? cs
            let (s, rest) ← lines? quote steps cs
            return (c :: s, rest)
        else match afterNewline? (c :: cs) with
          | some cs => do
            let (s, rest) ← lines? quote steps cs
            return ('\n' :: s, rest)
          | none =>
            if isPlain c then (lines? quote steps cs).map fun (s, rest) => (c :: s, rest) else none

/-- A string of several lines; a line that ends behind the opening quotes is dropped. -/
def block? (quote : Char) (steps : Nat) (cs : List Char) : Option (List Char × List Char) :=
  lines? quote steps ((afterNewline? cs).getD cs)

/-- A string in any of the four forms. -/
def string? (steps : Nat) : List Char → Option (String × List Char)
  | '"' :: '"' :: '"' :: cs => (block? '"' steps cs).map fun (s, rest) => (String.ofList s, rest)
  | '"' :: cs => (basic? steps cs).map fun (s, rest) => (String.ofList s, rest)
  | '\'' :: '\'' :: '\'' :: cs =>
    (block? '\'' steps cs).map fun (s, rest) => (String.ofList s, rest)
  | '\'' :: cs => (literal? cs).map fun (s, rest) => (String.ofList s, rest)
  | _ => none

/-! ### Keys -/

/-- The most parts of a key, and the most arrays and inline tables that stand in one another. -/
def nestingLimit : Nat := 80

/-- Whether a character may stand in a key without quotes. -/
def isKeyChar (c : Char) : Bool := c.isAlphanum || c == '_' || c == '-'

/-- One part of a key: a word, or a string on one line. -/
def keyPart? (steps : Nat) (cs : List Char) : Option (String × List Char) :=
  match cs with
  | '"' :: cs => (basic? steps cs).map fun (s, rest) => (String.ofList s, rest)
  | '\'' :: cs => (literal? cs).map fun (s, rest) => (String.ofList s, rest)
  | cs =>
    let word := cs.takeWhile isKeyChar
    if word.isEmpty then none else some (String.ofList word, cs.drop word.length)

/-- The parts of a key before the last, the last part, and what follows the blanks behind it. -/
def keyParts? : Nat → List Char → Option (List String × String × List Char)
  | 0, _ => none
  | steps + 1, cs => do
    let (part, cs) ← keyPart? steps (skipSpaces cs)
    match skipSpaces cs with
    | '.' :: cs =>
      let (path, last, rest) ← keyParts? steps cs
      return (part :: path, last, rest)
    | rest => return ([], part, rest)

/-- A key that is not too long, as its path, its last part, and what follows it. -/
def key? (steps : Nat) (cs : List Char) : Option (List String × String × List Char) := do
  let (path, last, rest) ← keyParts? steps cs
  guard (path.length < nestingLimit)
  return (path, last, rest)

/-! ### Values -/

/-- Whether a character may stand in a value without quotes. -/
def isWordChar (c : Char) : Bool := isKeyChar c || c == '+' || c == '.' || c == ':'

/-- A value without quotes. A date may be followed by a blank and a time. -/
def word? (cs : List Char) : Option (Toml × List Char) := do
  let word := cs.takeWhile isWordChar
  let rest := cs.drop word.length
  let word := match afterDate? word, rest with
    | some [], ' ' :: c :: more =>
      if c.isDigit then word ++ ' ' :: (c :: more).takeWhile isWordChar else word
    | _, _ => word
  return (← ofWord? word, cs.drop word.length)

mutual

/-- A value, in as many steps as the first argument allows, in which no more arrays and inline
tables stand in one another than the second allows. -/
def value? : Nat → Nat → List Char → Option (Toml × List Char)
  | 0, _, _ => none
  | steps + 1, depth, cs =>
    match cs, depth with
    | '[' :: cs, depth + 1 => (items? steps depth cs).map fun (ts, rest) => (array ts, rest)
    | '\x7b' :: cs, depth + 1 =>
      (entries? steps depth [] cs).map fun (t, rest) => (table .inline t, rest)
    | '"' :: _, _ | '\'' :: _, _ => (string? steps cs).map fun (s, rest) => (text s, rest)
    | cs, _ => word? cs

/-- The items of an array up to its closing bracket; a comma may follow the last. -/
def items? : Nat → Nat → List Char → Option (List Toml × List Char)
  | 0, _, _ => none
  | steps + 1, depth, cs =>
    match skipLines steps cs with
    | ']' :: rest => some ([], rest)
    | cs => do
      let (t, cs) ← value? steps depth cs
      match skipLines steps cs with
      | ',' :: cs =>
        let (ts, rest) ← items? steps depth cs
        return (t :: ts, rest)
      | ']' :: rest => return ([t], rest)
      | _ => none

/-- The entries of an inline table up to its closing brace, added to those before. A comma may
follow the last, and lines may end anywhere but within a key. -/
def entries? : Nat → Nat → Table → List Char → Option (Table × List Char)
  | 0, _, _, _ => none
  | steps + 1, depth, t, cs =>
    match skipLines steps cs with
    | '\x7d' :: rest => some (t, rest)
    | cs => do
      let (path, last, cs) ← key? steps cs
      let cs ← Calendar.after? '=' (skipLines steps cs)
      let (v, cs) ← value? steps depth (skipLines steps cs)
      let t ← assign? last v path t
      match skipLines steps cs with
      | ',' :: cs => entries? steps depth t cs
      | '\x7d' :: rest => return (t, rest)
      | _ => none

end

/-! ### Documents -/

/-- The root table, and the path of the table that keys are given values in. -/
structure Document where
  root : Table := []
  current : List String := []

/-- Read an entry or a header, and what follows its line. -/
def line? (steps : Nat) (d : Document) (cs : List Char) : Option (Document × List Char) :=
  match cs with
  | '[' :: '[' :: cs => do
    let (path, last, cs) ← key? steps cs
    let cs ← Calendar.after? ']' cs >>= Calendar.after? ']'
    let root ← changeAt? (declareItem? last) path d.root
    return ({ root, current := path ++ [last] }, cs)
  | '[' :: cs => do
    let (path, last, cs) ← key? steps cs
    let cs ← Calendar.after? ']' cs
    let root ← changeAt? (declareTable? last) path d.root
    return ({ root, current := path ++ [last] }, cs)
  | cs => do
    let (path, last, cs) ← key? steps cs
    let cs ← Calendar.after? '=' cs
    let (v, cs) ← value? steps nestingLimit (skipSpaces cs)
    let root ← changeAt? (assign? last v path) d.current d.root
    return ({ d with root }, cs)

/-- Read lines to the end of the text. -/
def document? : Nat → Document → List Char → Option Document
  | 0, _, _ => none
  | steps + 1, d, cs =>
    match skipLines steps cs with
    | [] => some d
    | cs => do
      let (d, cs) ← line? steps d cs
      document? steps d (← afterLine? cs)

/-- The root table of a text. A byte order mark in front is ignored. Each step but every second
reads a character, so twice the length of the text is steps enough. -/
def read? (s : String) : Option Table :=
  let cs := match s.toList with
    | '\ufeff' :: cs => cs
    | cs => cs
  (document? (2 * cs.length + 2) {} cs).map Document.root

end SqlAssembly.Toml
