import SqlAssembly.Json.Printer
import SqlAssembly.Value.Basic

/-!
# Values and JSON

`Value.ofJson` reads a document as a value: scalars become the value of their own kind, arrays
become lists, and objects stay JSON. `Value.toJson` is the document that a value is written as,
without a mark of its kind.
-/

namespace SqlAssembly.Value

mutual

/-- The value of a document. An integer beyond sixty-four bits with a sign becomes a float. -/
def ofJson : Json → Value
  | .null => .null
  | .bool b => .bool b
  | .number (.int n) =>
    if n.toInt ≤ Int64.maxValue.toInt then .int (Int64.ofInt n.toInt)
    else .float (Binary64.ofNat n.toInt.toNat)
  | .number (.float x) => .float x
  | .text s => .text s
  | .array items => .list (ofJsonItems items)
  | .object members => .json (.object members)

/-- The values of the items of an array. -/
def ofJsonItems : List Json → List Value
  | [] => []
  | j :: js => ofJson j :: ofJsonItems js

end

mutual

/-- The document of a value: bytes are an array of numbers, dates and identifiers are strings. -/
def toJson : Value → Json
  | .null => .null
  | .bool b => .bool b
  | .int n => .number (.int (.ofInt64 n))
  | .float x => .number (.float x)
  | .text s => .text s
  | .bytes bs => .array (bs.map fun b => .number (.int (.ofByte b)))
  | .json j => j
  | .uuid u => .text u.text
  | .date d => .text d.text
  | .timestamp t => .text t.text
  | .instant t => .text t.utcText
  | .list items => .array (toJsonItems items)

/-- The documents of the items of a list. -/
def toJsonItems : List Value → List Json
  | [] => []
  | v :: vs => toJson v :: toJsonItems vs

end

theorem ofJsonItems_eq_map (js : List Json) : ofJsonItems js = js.map ofJson := by
  induction js with
  | nil => rfl
  | cons j js ih => rw [ofJsonItems, ih, List.map_cons]

theorem toJsonItems_eq_map (vs : List Value) : toJsonItems vs = vs.map toJson := by
  induction vs with
  | nil => rfl
  | cons v vs ih => rw [toJsonItems, ih, List.map_cons]

end SqlAssembly.Value
