import SqlAssembly.Cache
import SqlAssembly.Dialect

/-!
# Configuration

The dialect of new statements and the capacity of their cache.
-/

namespace SqlAssembly

/-- A configuration. -/
structure Config where
  dialect : BuiltinDialect := .generic
  /-- The number of texts that a cache keeps; with zero it keeps none. -/
  cacheCapacity : UInt64 := 256
  deriving DecidableEq

namespace Config

/-- What holds where nothing else is said. -/
def default : Config := {}

/-- An empty cache of the configured capacity. -/
def cache (c : Config) : Cache := { capacity := c.cacheCapacity.toNat }

/-- The name under which the dialect is given. -/
def dialectKey : String := "dialect"

/-- The name under which the capacity is given. -/
def capacityKey : String := "cache_capacity"

/-- A number as a capacity. -/
def capacity? (n : Int) : Option UInt64 :=
  if 0 ≤ n ∧ n < UInt64.size then some (UInt64.ofNat n.toNat) else none

end Config

end SqlAssembly
