import SqlAssembly.Json.Printer
import SqlAssembly.Value.Json

/-!
# PostgreSQL's binary format

The bytes that a value is sent as. A value is written in the format of its own kind, whatever type
the placeholder has, with these exceptions: integers and floats narrow to the type, JSON has a
version byte in front for `jsonb`, and a list needs an array type, whose element type its items are
written for.

The bytes of a single value and of an array are PostgreSQL's documented ones, and so are the object
identifiers of the types. The definitions for them (`bigEndian`, `narrowed`, `counted`, `utf8`,
`Value.wireItem`, the head of an array) stand for the encoders of a client library, and
`Json.compact` for those of a JSON library. What is decided here is which of these formats a value
takes for which type.
-/

namespace SqlAssembly

/-! ### Types -/

/-- The types of single values. -/
inductive ScalarType where
  | bool | int2 | int4 | int8 | float4 | float8 | text | varchar | bytea | json | jsonb | uuid
  | date | timestamp | timestamptz
  deriving DecidableEq, Repr

namespace ScalarType

/-- The name of a type. -/
def name : ScalarType → String
  | bool => "bool"
  | int2 => "int2"
  | int4 => "int4"
  | int8 => "int8"
  | float4 => "float4"
  | float8 => "float8"
  | text => "text"
  | varchar => "varchar"
  | bytea => "bytea"
  | json => "json"
  | jsonb => "jsonb"
  | uuid => "uuid"
  | date => "date"
  | timestamp => "timestamp"
  | timestamptz => "timestamptz"

/-- All types. -/
def all : List ScalarType :=
  [bool, int2, int4, int8, float4, float8, text, varchar, bytea, json, jsonb, uuid, date, timestamp,
    timestamptz]

/-- The object identifier of a type. -/
def oid : ScalarType → Nat
  | bool => 16
  | bytea => 17
  | int8 => 20
  | int2 => 21
  | int4 => 23
  | text => 25
  | json => 114
  | float4 => 700
  | float8 => 701
  | varchar => 1043
  | date => 1082
  | timestamp => 1114
  | timestamptz => 1184
  | uuid => 2950
  | jsonb => 3802

end ScalarType

/-- The type of a placeholder. -/
inductive WireType where
  | scalar (t : ScalarType)
  /-- An array of one dimension. -/
  | array (element : ScalarType)
  deriving DecidableEq, Repr

/-- The type of a name; a name with brackets behind it is that of an array. -/
def WireType.ofName? (s : String) : Option WireType :=
  match ScalarType.all.find? fun t => t.name == s with
  | some t => some (.scalar t)
  | none => (ScalarType.all.find? fun t => t.name ++ "[]" == s).map .array

/-! ### Errors -/

/-- Why a value cannot be sent. -/
inductive WireError where
  | numberTooLarge
  | numberTooSmall
  | listForScalar (t : ScalarType)
  | tooLarge
  deriving DecidableEq, Repr

/-- The cause in words. -/
def WireError.message : WireError → String
  | numberTooLarge => "number too large to fit in target type"
  | numberTooSmall => "number too small to fit in target type"
  | listForScalar t => "list value bound to non-array type: " ++ t.name
  | tooLarge => "value too large to transmit"

/-! ### Bytes -/

/-- A number in two's complement, the most significant byte first. -/
def bigEndian (width : Nat) (n : Int) : List UInt8 :=
  let word := (n % Nat.pow 256 width).toNat
  (List.range width).map fun i => UInt8.ofNat (word / Nat.pow 256 (width - 1 - i))

/-- A number of the given count of bytes, which it must fit. -/
def narrowed (width : Nat) (n : Int) : Except WireError (List UInt8) :=
  let bound : Int := Nat.pow 2 (8 * width - 1)
  if n < -bound then .error .numberTooSmall
  else if bound ≤ n then .error .numberTooLarge
  else .ok (bigEndian width n)

/-- A number that is too large to send if it does not fit. -/
def counted (width : Nat) (n : Int) : Except WireError (List UInt8) :=
  let bound : Int := Nat.pow 2 (8 * width - 1)
  if n < -bound ∨ bound ≤ n then .error .tooLarge else .ok (bigEndian width n)

/-- The UTF-8 bytes of a text. -/
def utf8 (s : String) : List UInt8 := s.toUTF8.toList

namespace Value

/-- An array item: its length and its bytes, or the length `-1` for a null. -/
def wireItem : Option (List UInt8) → Except WireError (List UInt8)
  | none => .ok (bigEndian 4 (-1))
  | some bs => do return (← counted 4 bs.length) ++ bs

mutual

/-- The bytes of a value for a placeholder of the given type; none for a null. -/
def wire (type : WireType) : Value → Except WireError (Option (List UInt8))
  | .null => return none
  | .bool b => return some [if b then 1 else 0]
  | .int n =>
    match type with
    | .scalar .int2 => do return some (← narrowed 2 n.toInt)
    | .scalar .int4 => do return some (← narrowed 4 n.toInt)
    | _ => return some (bigEndian 8 n.toInt)
  | .float x =>
    match type with
    | .scalar .float4 => return some (bigEndian 4 x.toBinary32.toNat)
    | _ => return some (bigEndian 8 x.bits.toNat)
  | .text s => return some (utf8 s)
  | .bytes bs => return some bs
  | .json j => return some ((if type = .scalar .jsonb then [1] else []) ++ utf8 j.compact)
  | .uuid u => return some u.bytes
  | .date d => do return some (← counted 4 d.days)
  | .timestamp t => do return some (← counted 8 t.microseconds)
  | .instant t => do return some (← counted 8 t.microseconds)
  | .list items =>
    match type with
    | .scalar t => throw (.listForScalar t)
    | .array element => do
      let length ← counted 4 items.length
      let body ← wireItems element items
      return some (bigEndian 4 1 ++ bigEndian 4 (if items.any isNull then 1 else 0)
        ++ bigEndian 4 element.oid ++ length ++ bigEndian 4 1 ++ body)

/-- The items of an array, one after the other. -/
def wireItems (element : ScalarType) : List Value → Except WireError (List UInt8)
  | [] => return []
  | v :: vs => do
    let first ← wireItem (← wire (.scalar element) v)
    return first ++ (← wireItems element vs)

end

end Value

end SqlAssembly
