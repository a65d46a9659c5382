import Mathlib.Data.List.Perm.Subperm
import SqlAssembly.Insert
import SqlAssembly.Proofs.Outcome

/-!
# The rows of an insert

The columns of an insert are distinct. A row by name that has as many values as there are columns
and a value for each column has exactly one value for each column, so ordering it loses nothing and
repeats nothing.
-/

namespace SqlAssembly

variable {σ : Type} {owner : Option RecordType}

theorem Entries.filter_key_eq {α : Type} {es : List (String × α)} (h : (keys es).Nodup)
    {e : String × α} (he : e ∈ es) : es.filter (fun p => p.1 == e.1) = [e] := by
  induction es with
  | nil => simp at he
  | cons p es ih =>
    obtain ⟨hp, hes⟩ := List.nodup_cons.1 h
    rcases List.mem_cons.1 he with rfl | he
    · have hrest : es.filter (fun p => p.1 == e.1) = [] := by
        refine List.filter_eq_nil_iff.2 fun q hq hqe => hp ?_
        rw [← beq_iff_eq.1 hqe]
        exact List.mem_map_of_mem hq
      rw [List.filter_cons_of_pos (by simp), hrest]
    · have hne : p.1 ≠ e.1 := fun heq => hp (heq ▸ List.mem_map_of_mem he)
      rw [List.filter_cons_of_neg (by simpa using hne), ih hes he]

namespace Insert

theorem firstRepeated?_eq_none {seen cs : List String} :
    firstRepeated? seen cs = none ↔ cs.Nodup ∧ ∀ c ∈ cs, c ∉ seen := by
  induction cs generalizing seen with
  | nil => simp [firstRepeated?]
  | cons c cs ih =>
    rw [firstRepeated?]
    split
    · rename_i hc
      simp [hc]
    · rename_i hc
      rw [ih]
      simp only [List.nodup_cons, List.mem_cons, not_or]
      constructor
      · rintro ⟨hnodup, hseen⟩
        refine ⟨⟨fun hmem => (hseen c hmem).1 rfl, hnodup⟩, ?_⟩
        rintro a (rfl | ha)
        · exact hc
        · exact (hseen a ha).2
      · rintro ⟨⟨hmem, hnodup⟩, hseen⟩
        refine ⟨hnodup, fun a ha => ⟨?_, hseen a (.inr ha)⟩⟩
        rintro rfl
        exact hmem ha

/-- The columns of an insert are those given, if there are any and none is repeated. -/
theorem columns_eq_ok {s : Insert σ} {columns : List String} :
    s.columns owner = .ok columns
      ↔ s.givenColumns owner = .ok columns ∧ columns ≠ [] ∧ columns.Nodup := by
  rw [Insert.columns, Except.bind_eq_ok]
  constructor
  · rintro ⟨given, hgiven, h⟩
    cases hempty : given.isEmpty with
    | true => simp [hempty] at h
    | false =>
      cases hrepeated : firstRepeated? [] given with
      | some column => simp [hempty, hrepeated] at h
      | none =>
        obtain rfl : given = columns := by simpa [hempty, hrepeated] using h
        exact ⟨hgiven, by simpa using hempty, (firstRepeated?_eq_none.1 hrepeated).1⟩
  · rintro ⟨hgiven, hne, hnodup⟩
    have hrepeated := firstRepeated?_eq_none.2 ⟨hnodup, fun _ _ => List.not_mem_nil⟩
    exact ⟨columns, hgiven, by simp [hne, hrepeated]⟩

/-- The columns of an insert are distinct. -/
theorem nodup_columns {s : Insert σ} {columns : List String}
    (h : s.columns owner = .ok columns) : columns.Nodup :=
  (columns_eq_ok.1 h).2.2

theorem mem_of_operandFor {number : Nat} {row : List (String × Operand σ)} {column : String}
    {operand : Operand σ} (h : operandFor number row column = .ok operand) :
    (column, operand) ∈ row := by
  unfold operandFor at h
  split at h
  · rename_i p hp
    cases h
    have hkey : p.1 = column := by simpa using List.find?_some hp
    exact hkey ▸ List.mem_of_find?_eq_some hp
  · cases h

/-- The columns that a row gives operands to are all columns, in any order. -/
theorem perm_columns {number : Nat} {row : List (String × Operand σ)} {columns : List String}
    {operands : List (Operand σ)} (hnodup : columns.Nodup) (hlength : row.length = columns.length)
    (h : columns.mapM (operandFor number row) = .ok operands) :
    columns.Perm (Entries.keys row) := by
  have hsubset : columns ⊆ Entries.keys row :=
    (List.forall₂_and_left _ _).1 ((Except.mapM_eq_ok.1 h).imp fun c o ho =>
      ⟨List.mem_map_of_mem (mem_of_operandFor ho), ho⟩) |>.1
  refine (hnodup.subperm hsubset).perm_of_length_le ?_
  simp [Entries.keys, hlength]

/-- A row that is ordered has exactly one operand under each column. -/
theorem filter_column {number : Nat} {row : List (String × Operand σ)} {columns : List String}
    {operands : List (Operand σ)} (hnodup : columns.Nodup) (hlength : row.length = columns.length)
    (h : columns.mapM (operandFor number row) = .ok operands) :
    List.Forall₂ (fun c o => row.filter (fun e => e.1 == c) = [(c, o)]) columns operands := by
  have hkeys := (perm_columns hnodup hlength h).nodup_iff.1 hnodup
  refine (Except.mapM_eq_ok.1 h).imp fun c o ho => ?_
  exact Entries.filter_key_eq hkeys (mem_of_operandFor ho)

/-- A row with distinct columns is in the order of its own columns. -/
theorem mapM_operandFor {row : List (String × Operand σ)} (h : (Entries.keys row).Nodup)
    (number : Nat) :
    (Entries.keys row).mapM (operandFor number row) = .ok (row.map Prod.snd) := by
  rw [Except.mapM_eq_ok, Entries.keys, List.forall₂_map_left_iff, List.forall₂_map_right_iff,
    List.forall₂_same]
  intro e he
  rw [operandFor, ← List.head?_filter, Entries.filter_key_eq h he]
  rfl

theorem length_orderRow {columns : List String} {number : Nat} {r : Row σ}
    {operands : List (Operand σ)} (h : orderRow owner columns number r = .ok operands) :
    operands.length = columns.length := by
  cases r with
  | positional values =>
    simp only [orderRow] at h
    split at h
    · cases h
      assumption
    · cases h
  | named values =>
    obtain ⟨row, _, h⟩ := Except.bind_eq_ok.1 h
    split at h
    · cases h
    · exact (Except.mapM_eq_ok.1 h).length_eq.symm

end Insert

end SqlAssembly
