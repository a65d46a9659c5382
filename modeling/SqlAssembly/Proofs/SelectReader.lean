import SqlAssembly.Proofs.QuotedPaths

/-!
# Reading selects back

A reader of `SELECT column,.. FROM table, ..` that knows nothing of the names it meets. Columns and
tables are entries of the same form: names with a dot between each two, and an alias behind them. A
list of entries is read up to what can be no part of it (`readEntries_intercalate`), so the two
lists of a select are read back from their characters (`readSelect_eq`).
-/

namespace SqlAssembly

/-! ### Entries -/

/-- A column or a table of a list: a name behind others that qualify it, and an alias. -/
structure ListEntry where
  qualifiers : List String
  name : String
  alias? : Option String
  deriving DecidableEq

/-- The characters of an entry. -/
def ListEntry.chars (e : ListEntry) : List Char :=
  pathChars e.qualifiers e.name ++ aliasChars e.alias?

/-- The word before an alias. -/
def aliasWord : List Char := [' ', 'A', 'S', ' ']

/-- The alias that a text begins with, if it begins with one, and the text behind it. -/
def takeAlias (cs : List Char) : Option (Option String × List Char) :=
  match cs.dropPrefix? aliasWord with
  | some rest => (readName rest).map fun (name, rest) => (some name, rest)
  | none => some (none, cs)

/-- The entry that a text begins with, and the text behind it. -/
def readEntry (cs : List Char) : Option (ListEntry × List Char) := do
  let (names, rest) ← readPath cs
  let name ← names.getLast?
  let (alias?, rest) ← takeAlias rest
  return (⟨names.dropLast, name, alias?⟩, rest)

/-- What can follow an entry: neither more of its path nor an alias. -/
structure EntryEnd (s : List Char) : Prop where
  quote : s.head? ≠ some '"'
  dot : s.head? ≠ some '.'
  noAlias : s.dropPrefix? aliasWord = none

theorem takeAlias_aliasChars (alias? : Option String) {s : List Char} (hs : EntryEnd s) :
    takeAlias (aliasChars alias? ++ s) = some (alias?, s) := by
  cases alias? with
  | none => simp only [aliasChars, List.nil_append, takeAlias, hs.noAlias]
  | some aliasName =>
    have hprefix := List.dropPrefix?_append_of_beq ((doubleQuoted aliasName).toList ++ s)
      (BEq.refl aliasWord)
    have hchars : aliasChars (some aliasName) ++ s
        = aliasWord ++ ((doubleQuoted aliasName).toList ++ s) :=
      List.append_assoc ..
    rw [takeAlias, hchars, hprefix]
    simp [readName_doubleQuoted aliasName hs.quote]

/-- Behind the path of an entry there is neither a quote nor a dot, whether it has an alias or
not. -/
theorem readEntry_chars (e : ListEntry) {s : List Char} (hs : EntryEnd s) :
    readEntry (e.chars ++ s) = some (e, s) := by
  obtain ⟨qualifiers, name, alias?⟩ := e
  have hpath := readPath_pathChars qualifiers name (s := aliasChars alias? ++ s)
    (by cases alias? <;> simp [aliasChars, hs.quote])
    (by cases alias? <;> simp [aliasChars, hs.dot])
  rw [readEntry, ListEntry.chars, List.append_assoc, hpath]
  simp [takeAlias_aliasChars alias? hs]

/-! ### What an entry leaves behind -/

theorem length_lt_of_readPath {cs rest : List Char} {names : List String}
    (h : readPath cs = some (names, rest)) : rest.length < cs.length := by
  induction cs using readPath.induct generalizing names with
  | case1 cs hname =>
    rw [readPath] at h
    split at h <;> simp_all
  | case2 cs name next hname ih =>
    rw [readPath_of_readName_dot hname] at h
    obtain ⟨⟨names', rest'⟩, hnext, heq⟩ := Option.map_eq_some_iff.1 h
    obtain ⟨-, rfl⟩ := Prod.mk.inj heq
    have hlt := length_lt_of_readName hname
    have := ih hnext
    rw [List.length_cons] at hlt
    omega
  | case3 cs name next hdot hname =>
    have hhead : next.head? ≠ some '.' := by
      cases next with
      | nil => simp
      | cons c next =>
        rintro heq
        cases heq
        exact hdot next rfl
    rw [readPath_of_readName hname hhead] at h
    obtain ⟨-, rfl⟩ := Prod.mk.inj (Option.some.inj h)
    exact length_lt_of_readName hname

theorem length_le_of_dropPrefix? {cs start rest : List Char}
    (h : cs.dropPrefix? start = some rest) : rest.length ≤ cs.length := by
  obtain ⟨start', rfl, -⟩ := List.dropPrefix?_eq_some_iff.1 h
  simp

theorem length_le_of_takeAlias {cs rest : List Char} {alias? : Option String}
    (h : takeAlias cs = some (alias?, rest)) : rest.length ≤ cs.length := by
  unfold takeAlias at h
  split at h
  · rename_i behind hbehind
    obtain ⟨⟨name, rest'⟩, hname, heq⟩ := Option.map_eq_some_iff.1 h
    obtain ⟨-, rfl⟩ := Prod.mk.inj heq
    have := length_lt_of_readName hname
    have := length_le_of_dropPrefix? hbehind
    omega
  · obtain ⟨-, rfl⟩ := Prod.mk.inj (Option.some.inj h)
    exact le_refl _

theorem length_lt_of_readEntry {cs rest : List Char} {e : ListEntry}
    (h : readEntry cs = some (e, rest)) : rest.length < cs.length := by
  obtain ⟨⟨names, behind⟩, hpath, h⟩ := Option.bind_eq_some_iff.1 h
  obtain ⟨name, -, h⟩ := Option.bind_eq_some_iff.1 h
  obtain ⟨⟨alias?, rest'⟩, halias, h⟩ := Option.bind_eq_some_iff.1 h
  obtain ⟨-, rfl⟩ := Prod.mk.inj (Option.some.inj h)
  have := length_lt_of_readPath hpath
  have := length_le_of_takeAlias halias
  omega

/-! ### Lists of entries -/

/-- Entries with a separator between each two, at least one, and the text behind them. -/
def readEntries (separator cs : List Char) : Option (List ListEntry × List Char) :=
  match _hentry : readEntry cs with
  | none => none
  | some (e, rest) =>
    match _hnext : rest.dropPrefix? separator with
    | some next => (readEntries separator next).map fun (es, rest) => (e :: es, rest)
    | none => some ([e], rest)
termination_by cs.length
decreasing_by
  have := length_lt_of_readEntry _hentry
  have := length_le_of_dropPrefix? _hnext
  omega

section List

variable {separator cs : List Char} {e : ListEntry}

/-- Behind an entry and a separator the list goes on. -/
theorem readEntries_of_separator {rest : List Char}
    (h : readEntry cs = some (e, separator ++ rest)) :
    readEntries separator cs
      = (readEntries separator rest).map fun (es, rest) => (e :: es, rest) := by
  have hseparator := List.dropPrefix?_append_of_beq rest (BEq.refl separator)
  rw [readEntries]
  split
  · simp_all
  · rename_i heq
    rw [h] at heq
    obtain ⟨rfl, rfl⟩ := Prod.mk.inj (Option.some.inj heq)
    split <;> simp_all

/-- An entry that no separator follows ends the list. -/
theorem readEntries_of_end {rest : List Char} (h : readEntry cs = some (e, rest))
    (hrest : rest.dropPrefix? separator = none) :
    readEntries separator cs = some ([e], rest) := by
  rw [readEntries]
  split
  · simp_all
  · rename_i heq
    rw [h] at heq
    obtain ⟨rfl, rfl⟩ := Prod.mk.inj (Option.some.inj heq)
    split <;> simp_all

/-- A list of entries is read up to what can follow an entry and is no separator. -/
theorem readEntries_intercalate {entries : List ListEntry} {s : List Char}
    (hseparator : ∀ s, EntryEnd (separator ++ s)) (hs : EntryEnd s)
    (hend : s.dropPrefix? separator = none) (hne : entries ≠ []) :
    readEntries separator (separator.intercalate (entries.map ListEntry.chars) ++ s)
      = some (entries, s) := by
  induction entries with
  | nil => exact absurd rfl hne
  | cons e es ih =>
    cases es with
    | nil =>
      rw [List.map_singleton, List.intercalate_singleton]
      exact readEntries_of_end (readEntry_chars e hs) hend
    | cons e' es =>
      have hsplit : separator.intercalate ((e :: e' :: es).map ListEntry.chars) ++ s
          = e.chars ++ (separator
            ++ (separator.intercalate ((e' :: es).map ListEntry.chars) ++ s)) := by
        simp [List.intercalate_cons_cons]
      rw [hsplit, readEntries_of_separator (readEntry_chars e (hseparator _)),
        ih (List.cons_ne_nil _ _)]
      rfl

end List

/-! ### Selects -/

/-- The column that an entry writes. -/
def FieldRef.ofEntry? (e : ListEntry) : Option FieldRef :=
  match e.qualifiers with
  | [] => some ⟨.name e.name, e.alias?, none, none⟩
  | [table] => some ⟨.name e.name, e.alias?, some table, none⟩
  | [schema, table] => some ⟨.name e.name, e.alias?, some table, some schema⟩
  | _ => none

/-- The table that an entry writes. -/
def TableRef.ofEntry? (e : ListEntry) : Option TableRef :=
  match e.qualifiers with
  | [] => some ⟨none, .name e.name, e.alias?⟩
  | [schema] => some ⟨some schema, .name e.name, e.alias?⟩
  | _ => none

/-- The words before the columns and before the tables. -/
def selectWord : List Char := ['S', 'E', 'L', 'E', 'C', 'T', ' ']

@[inherit_doc selectWord]
def fromWord : List Char := [' ', 'F', 'R', 'O', 'M', ' ']

/-- Read a select that has a list of columns and a list of tables, and nothing else. -/
def readSelect (text : String) : Option (List FieldRef × List TableRef) := do
  let cs ← text.toList.dropPrefix? selectWord
  let (columns, cs) ← readEntries [','] cs
  let cs ← cs.dropPrefix? fromWord
  let (tables, []) ← readEntries [',', ' '] cs | none
  return (← columns.mapM FieldRef.ofEntry?, ← tables.mapM TableRef.ofEntry?)

/-- The characters of a select. -/
def selectChars (columns tables : List ListEntry) : List Char :=
  selectWord ++ [','].intercalate (columns.map ListEntry.chars)
    ++ fromWord ++ [',', ' '].intercalate (tables.map ListEntry.chars)

theorem mapM_eq_some_map {α β γ : Type} {f : α → β} {g : β → Option γ} {h : α → γ}
    (hfg : ∀ a, g (f a) = some (h a)) (as : List α) : (as.map f).mapM g = some (as.map h) := by
  have hcomp : g ∘ f = fun a => some (h a) := funext hfg
  rw [List.mapM_map, hcomp]
  exact List.mapM_pure

/-- A select is read back from its characters. -/
theorem readSelect_eq {text : String} {columns tables : List ListEntry}
    (htext : text.toList = selectChars columns tables) (hcolumns : columns ≠ [])
    (htables : tables ≠ []) :
    readSelect text = do
      return (← columns.mapM FieldRef.ofEntry?, ← tables.mapM TableRef.ofEntry?) := by
  have hcomma (s : List Char) : EntryEnd (',' :: s) := ⟨by simp, by simp, rfl⟩
  have hfromEnd (s : List Char) : EntryEnd (fromWord ++ s) :=
    ⟨by simp [fromWord], by simp [fromWord], rfl⟩
  have hselect := List.dropPrefix?_append_of_beq
    ([','].intercalate (columns.map ListEntry.chars)
      ++ (fromWord ++ [',', ' '].intercalate (tables.map ListEntry.chars)))
    (BEq.refl selectWord)
  have hlist (s : List Char) : readEntries [',']
      ([','].intercalate (columns.map ListEntry.chars) ++ (fromWord ++ s))
        = some (columns, fromWord ++ s) :=
    readEntries_intercalate hcomma (hfromEnd s) rfl hcolumns
  have hfrom := List.dropPrefix?_append_of_beq
    ([',', ' '].intercalate (tables.map ListEntry.chars)) (BEq.refl fromWord)
  have hsources : readEntries [',', ' '] ([',', ' '].intercalate (tables.map ListEntry.chars) ++ [])
      = some (tables, []) :=
    readEntries_intercalate (fun s => hcomma (' ' :: s)) ⟨by simp, by simp, rfl⟩ rfl htables
  rw [List.append_nil] at hsources
  simp only [readSelect, htext, selectChars, List.append_assoc, hselect, hlist, hfrom, hsources,
    Option.bind_eq_bind, Option.bind_some]

end SqlAssembly
