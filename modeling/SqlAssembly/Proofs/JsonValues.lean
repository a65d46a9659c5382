import SqlAssembly.Proofs.Wire.Denotation

/-!
# Values of JSON documents

A document that is read as a value is written again as the same text, if its integers have
sixty-four bits (`Value.compact_toJson_ofJson`). Arrays become lists to any depth, but an object
stays as it is, and nothing else does. So the integers in objects do not matter: the exact condition
is `Value.toJson_ofJson_iff`.
-/

namespace SqlAssembly

/-! ### The integers of a document -/

namespace Json

mutual

/-- The integers of a document, at any depth. -/
def integers : Json → List Int
  | .number (.int n) => [n.toInt]
  | .array items => integersOfItems items
  | .object members => integersOfMembers members
  | _ => []

/-- The integers of the items of an array. -/
def integersOfItems : List Json → List Int
  | [] => []
  | j :: js => integers j ++ integersOfItems js

/-- The integers of the members of an object. -/
def integersOfMembers : List (String × Json) → List Int
  | [] => []
  | m :: ms => integers m.2 ++ integersOfMembers ms

end

mutual

/-- The integers of a document that are in none of its objects. -/
def bareIntegers : Json → List Int
  | .number (.int n) => [n.toInt]
  | .array items => bareIntegersOfItems items
  | _ => []

/-- The integers of the items of an array that are in no object. -/
def bareIntegersOfItems : List Json → List Int
  | [] => []
  | j :: js => bareIntegers j ++ bareIntegersOfItems js

end

mutual

theorem bareIntegers_subset (j : Json) : j.bareIntegers ⊆ j.integers := by
  match j with
  | .number (.int n) | .number (.float _) | .null | .bool _ | .text _ | .object _ =>
    simp [bareIntegers, integers]
  | .array items => exact bareIntegersOfItems_subset items

theorem bareIntegersOfItems_subset (js : List Json) :
    bareIntegersOfItems js ⊆ integersOfItems js := by
  match js with
  | [] => exact List.Subset.refl []
  | j :: js =>
    have hfirst := bareIntegers_subset j
    have hrest := bareIntegersOfItems_subset js
    simp only [bareIntegersOfItems, integersOfItems]
    exact List.append_subset.2
      ⟨List.subset_append_of_subset_left _ hfirst, List.subset_append_of_subset_right _ hrest⟩

end

end Json

/-! ### There and back -/

namespace Value

/-- An integer that fits a word with a sign is written as it was read, and another becomes a
double. -/
theorem toJson_ofJson_int_iff (n : WordInt) :
    (ofJson (.number (.int n))).toJson = .number (.int n) ↔ Fits 8 n.toInt := by
  have hrange : n.toInt ≤ Int64.maxValue.toInt ↔ Fits 8 n.toInt := by
    have hmax : Int64.maxValue.toInt = 2 ^ 63 - 1 := rfl
    have hmin : -2 ^ 63 ≤ n.toInt := n.fits.1
    rw [hmax, Int.le_sub_one_iff]
    exact (and_iff_right hmin).symm
  rw [ofJson]
  by_cases hfits : Fits 8 n.toInt
  · have hn : WordInt.ofInt64 (Int64.ofInt n.toInt) = n :=
      WordInt.ext (Int64.toInt_ofInt_of_le hfits.1 hfits.2)
    rw [if_pos (hrange.2 hfits), toJson, hn]
    exact iff_of_true rfl hfits
  · rw [if_neg (mt hrange.1 hfits), toJson]
    simp [hfits]

mutual

/-- A document is written as it was read exactly if its integers, those in objects aside, have
sixty-four bits. -/
theorem toJson_ofJson_iff (j : Json) :
    (ofJson j).toJson = j ↔ ∀ n ∈ j.bareIntegers, Fits 8 n := by
  match j with
  | .number (.int n) => simpa [Json.bareIntegers] using toJson_ofJson_int_iff n
  | .number (.float _) | .null | .bool _ | .text _ | .object _ =>
    simp [ofJson, toJson, Json.bareIntegers]
  | .array items =>
    simp [ofJson, toJson, Json.bareIntegers, toJsonItems_ofJsonItems_iff items]

theorem toJsonItems_ofJsonItems_iff (js : List Json) :
    toJsonItems (ofJsonItems js) = js ↔ ∀ n ∈ Json.bareIntegersOfItems js, Fits 8 n := by
  match js with
  | [] => simp [ofJsonItems, toJsonItems, Json.bareIntegersOfItems]
  | j :: js =>
    rw [Json.bareIntegersOfItems, List.forall_mem_append, ← toJson_ofJson_iff j,
      ← toJsonItems_ofJsonItems_iff js, ofJsonItems, toJsonItems, List.cons.injEq]

end

mutual

/-- Of a document that is read as a value only objects stay documents. -/
theorem exists_eq_object_of_mem_documents {j : Json} :
    ∀ d ∈ (ofJson j).documents, ∃ members, d = .object members := by
  match j with
  | .object members => simp [ofJson, documents]
  | .array items => simpa only [ofJson, documents] using exists_eq_object_of_mem_documentsAll
  | .number (.int n) =>
    rw [ofJson]
    split <;> simp [documents]
  | .number (.float _) | .null | .bool _ | .text _ => simp [ofJson, documents]

theorem exists_eq_object_of_mem_documentsAll {js : List Json} :
    ∀ d ∈ documentsAll (ofJsonItems js), ∃ members, d = .object members := by
  match js with
  | [] => simp [ofJsonItems, documentsAll]
  | j :: js =>
    rw [ofJsonItems, documentsAll, List.forall_mem_append]
    exact ⟨exists_eq_object_of_mem_documents, exists_eq_object_of_mem_documentsAll⟩

end

/-- A document whose integers have sixty-four bits is written as the same text when it is read as a
value, and of this value only objects are documents. -/
theorem compact_toJson_ofJson {j : Json} (h : ∀ n ∈ j.integers, Fits 8 n) :
    (ofJson j).toJson.compact = j.compact
      ∧ ∀ d ∈ (ofJson j).documents, ∃ members, d = .object members := by
  refine ⟨?_, exists_eq_object_of_mem_documents⟩
  rw [(toJson_ofJson_iff j).2 fun n hn => h n (j.bareIntegers_subset hn)]

/-- Objects in arrays in an object in an array, with both ends of the range. -/
def nestedDocument : Json :=
  .array [.int (2 ^ 63 - 1), .object [("a", .array [.object [("b", .int (-2 ^ 63))], .null])],
    .array [.text "\"", .object []]]

theorem compact_toJson_ofJson_nested :
    (∀ n ∈ nestedDocument.integers, Fits 8 n)
      ∧ (ofJson nestedDocument).toJson.compact = nestedDocument.compact
      ∧ (ofJson nestedDocument).documents
        = [.object [("a", .array [.object [("b", .int (-2 ^ 63))], .null])], .object []]
      ∧ ∀ d ∈ (ofJson nestedDocument).documents, ∃ members, d = .object members := by
  have hfits : ∀ n ∈ nestedDocument.integers, Fits 8 n := by decide
  obtain ⟨htext, hobjects⟩ := compact_toJson_ofJson hfits
  exact ⟨hfits, htext, by decide, hobjects⟩

end Value

end SqlAssembly
