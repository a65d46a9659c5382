import SqlAssembly.Config.Basic
import SqlAssembly.Toml.Reader

/-!
# Configuration in TOML

A document with a key for each setting. Settings may be left out, and other keys are ignored; a
dialect is a name or a table with the name as its only key and an empty table or array under it.
-/

namespace SqlAssembly.Config

/-- The dialect that a value names. -/
def dialectOfToml? : Toml → Option BuiltinDialect
  | .text name => BuiltinDialect.ofName? name
  | .table _ [(name, .table _ [])] => BuiltinDialect.ofName? name
  | .table _ [(name, .array [])] => BuiltinDialect.ofName? name
  | _ => none

/-- The capacity that a value writes. -/
def capacityOfToml? : Toml → Option UInt64
  | .integer n => capacity? n
  | _ => none

/-- The configuration of a root table. -/
def ofTable? (t : Toml.Table) : Option Config := do
  let dialect ← match Entries.get? dialectKey t with
    | none => some default.dialect
    | some v => dialectOfToml? v
  let cacheCapacity ← match Entries.get? capacityKey t with
    | none => some default.cacheCapacity
    | some v => capacityOfToml? v
  return { dialect, cacheCapacity }

/-- The configuration that a TOML text writes. -/
def ofToml (text : String) : Except SqlError Config :=
  match Toml.read? text >>= ofTable? with
  | some c => .ok c
  | none => .error .malformedConfig

end SqlAssembly.Config
