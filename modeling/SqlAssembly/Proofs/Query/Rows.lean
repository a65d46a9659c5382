import SqlAssembly.Delete
import SqlAssembly.Insert
import SqlAssembly.Proofs.Query.Fold
import SqlAssembly.Proofs.Query.Scope
import SqlAssembly.Update

/-!
# Rows and assignments do not look into queries

Which columns an insert has, in which order the values of a row come, and which assignment of an
update wins depend on names alone. So all this commutes with changing the queries.
-/

namespace SqlAssembly

variable {σ τ : Type} (f : σ → τ) (owner : Option RecordType)

@[simp] theorem Source.recordType?_map (s : Source σ) : (s.map f).recordType? = s.recordType? := by
  cases s <;> rfl

@[simp] theorem Source.asTarget_map (kind : StatementKind) (s : Source σ) :
    (s.map f).asTarget kind = s.asTarget kind := by
  cases s <;> rfl

/-! ### Changing the queries twice -/

section MapMap

variable {υ : Type} (g : τ → υ)

@[simp] theorem Assignment.map_map (a : Assignment σ) : (a.map f).map g = a.map (g ∘ f) := by
  simp [Assignment.map]

@[simp] theorem Row.map_map (r : Row σ) : (r.map f).map g = r.map (g ∘ f) := by
  cases r <;> simp [Row.map]

@[simp] theorem Insert.map_map (s : Insert σ) : (s.map f).map g = s.map (g ∘ f) := by
  simp [Insert.map, Function.comp_def]

@[simp] theorem Update.map_map (s : Update σ) : (s.map f).map g = s.map (g ∘ f) := by
  simp [Update.map, Function.comp_def]

@[simp] theorem Delete.map_map (s : Delete σ) : (s.map f).map g = s.map (g ∘ f) := by
  simp [Delete.map, Function.comp_def]

end MapMap

/-! ### Rows -/

theorem Assignment.resolveAll_map (assignments : List (Assignment σ)) :
    resolveAll owner (assignments.map (Assignment.map f))
      = (resolveAll owner assignments).map (Entries.map (Operand.map f)) := by
  have hstep (a : Assignment σ) :
      (do return (← columnName owner (a.map f).name, (a.map f).operand))
        = Except.map (fun e : String × Operand σ => (e.1, e.2.map f))
            (do return (← columnName owner a.name, a.operand)) := by
    cases h : columnName owner a.name <;> simp [Assignment.map, h]
  have hmap := Except.map_mapM
    (fun a : Assignment σ => do return (← columnName owner a.name, a.operand))
    (fun e : String × Operand σ => (e.1, e.2.map f)) assignments
  rw [resolveAll, List.mapM_map]
  exact (congrArg (fun g => List.mapM g assignments) (funext hstep)).trans hmap.symm

namespace Insert

theorem columns_map (s : Insert σ) : (s.map f).columns owner = s.columns owner := by
  have hnamed : ((s.map f).rows.findSome? Row.named?).getD []
      = ((s.rows.findSome? Row.named?).getD []).map (Assignment.map f) := by
    simp only [map]
    induction s.rows with
    | nil => rfl
    | cons r rs ih => cases r <;> simp [Row.map, List.findSome?_cons, Row.named?, ih]
  have hgiven : (s.map f).givenColumns owner = s.givenColumns owner := by
    simp only [givenColumns, hnamed, List.mapM_map]
    rfl
  rw [columns, hgiven, columns]

theorem operandFor_map (number : Nat) (row : List (String × Operand σ)) (column : String) :
    operandFor number (Entries.map (Operand.map f) row) column
      = (operandFor number row column).map (Operand.map f) := by
  simp only [operandFor, Entries.map, List.find?_map, Function.comp_def]
  cases row.find? fun p => p.1 == column <;> rfl

theorem orderRow_map (columns : List String) (number : Nat) (r : Row σ) :
    orderRow owner columns number (r.map f)
      = (orderRow owner columns number r).map (List.map (Operand.map f)) := by
  cases r with
  | positional values =>
    by_cases h : values.length = columns.length <;> simp [Row.map, orderRow, h]
  | named values =>
    simp only [Row.map, orderRow, Assignment.resolveAll_map]
    cases Assignment.resolveAll owner values with
    | error e => rfl
    | ok row =>
      by_cases h : row.length = columns.length
      · have hl : (Entries.map (Operand.map f) row).length = columns.length := by
          simpa [Entries.map] using h
        simp [h, hl, Except.map_mapM, funext (operandFor_map f number row)]
      · have hl : (Entries.map (Operand.map f) row).length = row.length := by simp [Entries.map]
        simp [h, hl]

theorem orderRows_map (columns : List String) (number : Nat) (rs : List (Row σ)) :
    orderRows owner columns number (rs.map (Row.map f))
      = (orderRows owner columns number rs).map (List.map (List.map (Operand.map f))) := by
  induction rs generalizing number with
  | nil => rfl
  | cons r rs ih =>
    simp only [List.map_cons, orderRows, orderRow_map, ih]
    cases orderRow owner columns number r with
    | error e => rfl
    | ok first => cases orderRows owner columns (number + 1) rs <;> rfl

end Insert

/-! ### Assignments -/

namespace Update

theorem positionalAssignments_map (s : Update σ) :
    (s.map f).positionalAssignments
      = s.positionalAssignments.map (List.map (Assignment.map f)) := by
  simp only [positionalAssignments, map]
  cases s.positional with
  | none => rfl
  | some operands =>
    by_cases h : operands.length = s.fields.length
    · simp [h, List.zipWith_map_right, List.map_zipWith, Assignment.map]
    · simp [h]

theorem merged_map (s : Update σ) :
    (s.map f).merged owner = (s.merged owner).map (OrderedMap.map (Operand.map f)) := by
  simp only [merged, positionalAssignments_map]
  cases s.positionalAssignments with
  | error e => rfl
  | ok positional =>
    have hassignments : positional.map (Assignment.map f) ++ (s.map f).assignments
        = (positional ++ s.assignments).map (Assignment.map f) := by simp [map]
    simp only [Except.map_ok, Except.ok_bind, hassignments, Assignment.resolveAll_map]
    cases Assignment.resolveAll owner (positional ++ s.assignments) with
    | error e => rfl
    | ok es =>
      simp only [Except.map_ok, Except.ok_bind, OrderedMap.ofEntries_map, OrderedMap.entries_map]
      cases h : (OrderedMap.ofEntries es).entries.isEmpty <;> simp_all [Entries.map]

end Update

end SqlAssembly
