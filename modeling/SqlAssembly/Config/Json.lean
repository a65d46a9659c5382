import SqlAssembly.Config.Basic
import SqlAssembly.Json.Reader

/-!
# Configuration in JSON

An object with a member for each setting, or an array of the settings in their order. Settings may
be left out, in an array from the end; other members are ignored; a setting may not be given twice,
and a dialect is a name or an object with the name as its only key and `null` under it.
-/

namespace SqlAssembly.Config

/-- The dialect that a document names. -/
def dialectOfJson? : Json → Option BuiltinDialect
  | .text name => BuiltinDialect.ofName? name
  | .object [(name, .null)] => BuiltinDialect.ofName? name
  | _ => none

/-- The dialect that a tree names. Here a repeated key is an error. -/
def dialectOfTree? : JsonTree → Option BuiltinDialect
  | .object [m] => (JsonTree.object [m]).toJson? >>= dialectOfJson?
  | .object _ => none
  | t => t.toJson? >>= dialectOfJson?

/-- The capacity that a tree writes. -/
def capacityOfTree? : JsonTree → Option UInt64
  | .number n =>
    match n.value? with
    | some (.int n) => capacity? n.toInt
    | _ => none
  | _ => none

/-- The single member of a key, if it is there. Repeated members are an error. -/
def single? (key : String) (members : List (String × JsonTree)) : Option (Option JsonTree) :=
  match members.filter fun m => m.1 == key with
  | [] => some none
  | [m] => some (some m.2)
  | _ => none

/-- A setting that may be missing. -/
def setting? {α : Type} (read : JsonTree → Option α) (fallback : α) : Option JsonTree → Option α
  | none => some fallback
  | some t => read t

/-- The configuration of a tree. -/
def ofTree? : JsonTree → Option Config
  | .object members => do
    let members ← members.mapM fun m => do return (← JsonUnit.text? m.1, m.2)
    let dialect ← setting? dialectOfTree? default.dialect (← single? dialectKey members)
    let cacheCapacity ←
      setting? capacityOfTree? default.cacheCapacity (← single? capacityKey members)
    return { dialect, cacheCapacity }
  | .array items => do
    guard (items.length ≤ 2)
    let dialect ← setting? dialectOfTree? default.dialect items[0]?
    let cacheCapacity ← setting? capacityOfTree? default.cacheCapacity items[1]?
    return { dialect, cacheCapacity }
  | _ => none

/-- The configuration that a JSON text writes. -/
def ofJson (text : String) : Except SqlError Config :=
  match JsonTree.read? text >>= ofTree? with
  | some c => .ok c
  | none => .error .malformedConfig

end SqlAssembly.Config
