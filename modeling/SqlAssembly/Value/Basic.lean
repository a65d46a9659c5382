import SqlAssembly.Calendar
import SqlAssembly.Json.Basic
import SqlAssembly.Uuid

/-!
# Values

What a placeholder of a statement can stand for. A list is one value and takes one placeholder.
-/

namespace SqlAssembly

/-- A bound parameter. -/
inductive Value where
  | null
  | bool (b : Bool)
  | int (n : Int64)
  | float (x : Binary64)
  | text (s : String)
  | bytes (bs : List UInt8)
  | json (j : Json)
  | uuid (u : Uuid)
  | date (d : Date)
  | timestamp (t : Timestamp)
  /-- An instant; it is written in universal time. -/
  | instant (t : Timestamp)
  | list (items : List Value)
  deriving Inhabited

namespace Value

/-- Whether a value is the SQL `NULL`. -/
def isNull : Value → Bool
  | null => true
  | _ => false

/-- The text of a text value. -/
def text? : Value → Option String
  | text s => some s
  | _ => none

/-- The number of an integer value. -/
def int? : Value → Option Int64
  | int n => some n
  | _ => none

end Value

/-- Equality of doubles as numbers: the two zeros are equal and a NaN equals nothing. -/
def Binary64.numEq (x y : Binary64) : Bool :=
  match x.value, y.value with
  | .finite _ 0 _, .finite _ 0 _ => true
  | .nan _ _, _ => false
  | _, _ => x.bits == y.bits

namespace Value

mutual

/-- Equality of values, floats compared as numbers. -/
def eqv : Value → Value → Bool
  | .null, .null => true
  | .bool a, .bool b => a == b
  | .int a, .int b => a == b
  | .float a, .float b => a.numEq b
  | .text a, .text b => a == b
  | .bytes a, .bytes b => a == b
  | .json a, .json b => a == b
  | .uuid a, .uuid b => a == b
  | .date a, .date b => a == b
  | .timestamp a, .timestamp b => a == b
  | .instant a, .instant b => a == b
  | .list as, .list bs => eqvAll as bs
  | _, _ => false

/-- Equality of lists of values, one by one. -/
def eqvAll : List Value → List Value → Bool
  | [], [] => true
  | a :: as, b :: bs => eqv a b && eqvAll as bs
  | _, _ => false

end

end Value

end SqlAssembly
