import SqlAssembly.Identifier.Resolution
import SqlAssembly.Proofs.Outcome

/-!
# Checked names

Reading an identifier checks the names in it: they may neither be empty nor hold a NUL. Where there
is no record to translate it, a name that passes stands for itself.
-/

namespace SqlAssembly

/-- A name that may be quoted: it is not empty and holds no NUL. -/
def WellFormedName (name : String) : Prop := name ≠ "" ∧ '\x00' ∉ name.toList

instance : DecidablePred WellFormedName := fun name =>
  inferInstanceAs (Decidable (name ≠ "" ∧ '\x00' ∉ name.toList))

theorem checkName_eq_ok {role : NameRole} {s : String} :
    checkName role s = .ok () ↔ WellFormedName s := by
  rw [checkName, WellFormedName]
  by_cases hempty : s = ""
  · simp [hempty]
  · by_cases hnul : '\x00' ∈ s.toList <;> simp [hempty, hnul]

/-- Whether all names of a list are well-formed. -/
def WellFormedNames (names : List String) : Prop := ∀ name ∈ names, WellFormedName name

instance : DecidablePred WellFormedNames := fun names =>
  inferInstanceAs (Decidable (∀ name ∈ names, WellFormedName name))

namespace WellFormedNames

@[simp] theorem nil : WellFormedNames [] := by simp [WellFormedNames]

@[simp] theorem cons_iff {name : String} {names : List String} :
    WellFormedNames (name :: names) ↔ WellFormedName name ∧ WellFormedNames names := by
  simp [WellFormedNames]

@[simp] theorem append_iff {names names' : List String} :
    WellFormedNames (names ++ names') ↔ WellFormedNames names ∧ WellFormedNames names' := by
  simp only [WellFormedNames, List.forall_mem_append]

@[simp] theorem flatMap_iff {α : Type} {as : List α} {f : α → List String} :
    WellFormedNames (as.flatMap f) ↔ ∀ a ∈ as, WellFormedNames (f a) := by
  simp only [WellFormedNames, List.mem_flatMap]
  constructor
  · exact fun h a ha name hname => h name ⟨a, ha, hname⟩
  · rintro h name ⟨a, ha, hname⟩
    exact h a ha name hname

end WellFormedNames

theorem columnName_none {name : String} (h : WellFormedName name) :
    columnName none name = .ok name := by
  simp [columnName, Identifier.asColumn, checkName_eq_ok.2 h]

theorem mapM_columnName_none {names : List String} (h : WellFormedNames names) :
    names.mapM (columnName none) = .ok names := by
  rw [Except.mapM_eq_ok, List.forall₂_same]
  intro name hname
  exact columnName_none (h name hname)

end SqlAssembly
