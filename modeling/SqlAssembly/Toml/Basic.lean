import SqlAssembly.OrderedMap

/-!
# TOML documents

A document is a tree of tables. Each table knows how it came to be, because that decides how it may
be extended: a table is declared once, a table that a dotted key made is extended by dotted keys
only, and an inline table not at all.
-/

namespace SqlAssembly

/-- How a table came to be. -/
inductive TableOrigin where
  /-- Named on the way to another table in a header. -/
  | implied
  /-- Named by a header. -/
  | declared
  /-- Named on the way in a dotted key. -/
  | dotted
  /-- Written between braces. -/
  | inline
  deriving DecidableEq, Repr

/-- A value or a table. -/
inductive Toml where
  | text (s : String)
  | integer (n : Int)
  | float
  | bool (b : Bool)
  | dateTime
  | array (items : List Toml)
  | table (origin : TableOrigin) (entries : List (String × Toml))
  /-- An array of tables made by headers, the last one last. -/
  | tables (items : List (List (String × Toml)))
  deriving Inhabited

namespace Toml

/-- The entries of a table. -/
abbrev Table := List (String × Toml)

/-- Change the last table of an array of tables. -/
def changeLast? (change : Table → Option Table) : List Table → Option (List Table)
  | [] => none
  | [t] => do return [← change t]
  | t :: ts => do return t :: (← changeLast? change ts)

/-- Change the table that a header's path leads to. What is missing on the way is implied, and of an
array of tables the last one is meant. -/
def changeAt? (change : Table → Option Table) : List String → Table → Option Table
  | [], t => change t
  | key :: path, t =>
    match Entries.get? key t with
    | none => do return Entries.put key (table .implied (← changeAt? change path [])) t
    | some (table .inline _) => none
    | some (table origin sub) => do
      return Entries.put key (table origin (← changeAt? change path sub)) t
    | some (tables items) => do
      return Entries.put key (tables (← changeLast? (changeAt? change path) items)) t
    | some _ => none

/-- Declare a table. It may have been implied before, but nothing else. -/
def declareTable? (key : String) (t : Table) : Option Table :=
  match Entries.get? key t with
  | none => some (Entries.put key (table .declared []) t)
  | some (table .implied sub) => some (Entries.put key (table .declared sub) t)
  | some _ => none

/-- Add a table to an array of tables. -/
def declareItem? (key : String) (t : Table) : Option Table :=
  match Entries.get? key t with
  | none => some (Entries.put key (tables [[]]) t)
  | some (tables items) => some (Entries.put key (tables (items ++ [[]])) t)
  | some _ => none

/-- Give a new key a value. The tables on the way are dotted; the last of them must have been made
so. -/
def assign? (key : String) (value : Toml) : List String → Table → Option Table
  | [], t =>
    match Entries.get? key t with
    | none => some (Entries.put key value t)
    | some _ => none
  | part :: path, t =>
    match Entries.get? part t with
    | none => do return Entries.put part (table .dotted (← assign? key value path [])) t
    | some (table .dotted sub) => do
      return Entries.put part (table .dotted (← assign? key value path sub)) t
    | some (table .implied sub) =>
      if path.isEmpty then none
      else do return Entries.put part (table .implied (← assign? key value path sub)) t
    | some (tables items) =>
      if path.isEmpty then none
      else do return Entries.put part (tables (← changeLast? (assign? key value path) items)) t
    | some _ => none

end Toml

end SqlAssembly
