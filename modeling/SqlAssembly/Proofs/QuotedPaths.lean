import SqlAssembly.Proofs.Lexing

/-!
# Reading tables and columns back

A reader that knows nothing of the names it meets gets back from a quoted table what was quoted: the
schema, the name and the alias, whatever characters they consist of. It gets back as much from a
quoted column that is not `*` (`BuiltinDialect.read_quoted`).
-/

namespace SqlAssembly

/-! ### The reader -/

/-- A quoted name at the beginning of a text, and the text behind it. -/
def readName : List Char → Option (String × List Char)
  | '"' :: cs => (readQuoted cs).map fun (name, rest) => (String.ofList name, rest)
  | _ => none

theorem length_lt_of_readName {cs rest : List Char} {name : String}
    (h : readName cs = some (name, rest)) : rest.length < cs.length := by
  match cs with
  | [] => cases h
  | c :: cs =>
    by_cases hc : c = '"'
    · subst hc
      obtain ⟨⟨name', rest'⟩, hread, heq⟩ := Option.map_eq_some_iff.1 h
      obtain ⟨-, rfl⟩ := Prod.mk.inj heq
      have := length_lt_of_readQuoted hread
      rw [List.length_cons]
      omega
    · simp [readName, hc] at h

/-- Quoted names with a dot between each two, and the text behind them. -/
def readPath (cs : List Char) : Option (List String × List Char) :=
  match _h : readName cs with
  | none => none
  | some (name, '.' :: rest) => (readPath rest).map fun (names, rest) => (name :: names, rest)
  | some (name, rest) => some ([name], rest)
termination_by cs.length
decreasing_by
  have := length_lt_of_readName _h
  simp only [List.length_cons] at this
  omega

/-- The alias that a text consists of, if there is any text. -/
def readAlias : List Char → Option (Option String)
  | [] => some none
  | ' ' :: 'A' :: 'S' :: ' ' :: cs =>
    match readName cs with
    | some (name, []) => some (some name)
    | _ => none
  | _ => none

/-- The names of a path and the alias behind it. -/
def readAliased (text : String) : Option (List String × Option String) := do
  let (names, rest) ← readPath text.toList
  return (names, ← readAlias rest)

/-- Read the text of a table. -/
def TableRef.read (text : String) : Option TableRef :=
  match readAliased text with
  | some ([table], alias?) => some ⟨none, .name table, alias?⟩
  | some ([schema, table], alias?) => some ⟨some schema, .name table, alias?⟩
  | _ => none

/-- Read the text of a column. -/
def FieldRef.read (text : String) : Option FieldRef :=
  match readAliased text with
  | some ([column], alias?) => some ⟨.name column, alias?, none, none⟩
  | some ([table, column], alias?) => some ⟨.name column, alias?, some table, none⟩
  | some ([schema, table, column], alias?) => some ⟨.name column, alias?, some table, some schema⟩
  | _ => none

/-! ### What it reads -/

theorem readName_doubleQuoted (name : String) {s : List Char} (hs : s.head? ≠ some '"') :
    readName ((doubleQuoted name).toList ++ s) = some (name, s) := by
  have hquoted := readQuoted_doubledQuotes name.toList hs
  rw [toList_doubleQuoted, List.cons_append, List.append_assoc, List.singleton_append, readName,
    hquoted, Option.map_some]
  simp

/-- The characters of a path. -/
def pathChars (qualifiers : List String) (name : String) : List Char :=
  (qualifiers.flatMap fun q => (doubleQuoted q).toList ++ ['.']) ++ (doubleQuoted name).toList

/-- Behind a name and a dot the path goes on. -/
theorem readPath_of_readName_dot {cs rest : List Char} {name : String}
    (h : readName cs = some (name, '.' :: rest)) :
    readPath cs = (readPath rest).map fun (names, rest) => (name :: names, rest) := by
  rw [readPath]
  split <;> simp_all

/-- A name that no dot follows ends the path. -/
theorem readPath_of_readName {cs rest : List Char} {name : String}
    (h : readName cs = some (name, rest)) (hdot : rest.head? ≠ some '.') :
    readPath cs = some ([name], rest) := by
  rw [readPath]
  split
  · simp_all
  · rename_i heq
    rw [h] at heq
    obtain ⟨-, rfl⟩ := Prod.mk.inj (Option.some.inj heq)
    exact absurd rfl hdot
  · simp_all

/-- A path is read up to what can be neither a quote nor a dot of it. -/
theorem readPath_pathChars (qualifiers : List String) (name : String) {s : List Char}
    (hquote : s.head? ≠ some '"') (hdot : s.head? ≠ some '.') :
    readPath (pathChars qualifiers name ++ s) = some (qualifiers ++ [name], s) := by
  induction qualifiers with
  | nil =>
    rw [pathChars, List.flatMap_nil, List.nil_append, List.nil_append]
    exact readPath_of_readName (readName_doubleQuoted name hquote) hdot
  | cons q qualifiers ih =>
    have hsplit : pathChars (q :: qualifiers) name ++ s
        = (doubleQuoted q).toList ++ '.' :: (pathChars qualifiers name ++ s) := by
      simp [pathChars]
    rw [hsplit, readPath_of_readName_dot (readName_doubleQuoted q (by simp)), ih]
    rfl

/-- The characters of ` AS ` and an alias, if there is one. -/
def aliasChars : Option String → List Char
  | none => []
  | some aliasName => [' ', 'A', 'S', ' '] ++ (doubleQuoted aliasName).toList

theorem readAlias_aliasChars (alias? : Option String) :
    readAlias (aliasChars alias?) = some alias? := by
  cases alias? with
  | none => rfl
  | some aliasName =>
    have hname := readName_doubleQuoted aliasName (s := []) (by simp)
    rw [List.append_nil] at hname
    simp [aliasChars, readAlias, hname]

/-- A path and an alias are read back, as an alias begins with neither a quote nor a dot. -/
theorem readAliased_eq {text : String} {qualifiers : List String} {name : String}
    {alias? : Option String} (h : text.toList = pathChars qualifiers name ++ aliasChars alias?) :
    readAliased text = some (qualifiers ++ [name], alias?) := by
  have hpath := readPath_pathChars qualifiers name (s := aliasChars alias?)
    (by cases alias? <;> simp [aliasChars]) (by cases alias? <;> simp [aliasChars])
  rw [readAliased, h, hpath]
  simp [readAlias_aliasChars]

/-! ### Tables and columns -/

namespace Dialect

variable {d : Dialect}

theorem toList_spell_aliasSql (hquote : d.quoteIdentifier = doubleQuoted) (alias? : Option String) :
    (d.spell (aliasSql alias?)).toList = aliasChars alias? := by
  cases alias? with
  | none => rfl
  | some aliasName => simp [spell, aliasSql, aliasChars, Piece.spell, hquote]

theorem toList_spell_path (hquote : d.quoteIdentifier = doubleQuoted) (qualifiers : List String)
    {name : String} (hname : name ≠ "*") :
    ((ColumnExpr.path qualifiers name).spell d).toList = pathChars qualifiers name := by
  simp [ColumnExpr.spell, pathChars, hname, hquote, String.toList_join, List.flatMap_map]

theorem toList_quoteTable (hquote : d.quoteIdentifier = doubleQuoted) (table : String)
    (alias? schema : Option String) :
    (d.quoteTable (.name table) alias? schema).toList
      = pathChars schema.toList table ++ aliasChars alias? := by
  cases schema <;> cases alias? <;>
    simp [quoteTable, spell, tableSql, aliasSql, pathChars, aliasChars, Piece.spell, Piece.values,
      hquote]

/-- A column that is not cast is a path and an alias. -/
theorem toList_quoteColumn (hquote : d.quoteIdentifier = doubleQuoted) {column : String}
    (hcolumn : column ≠ "*") (alias? table schema : Option String) :
    ∃ text, d.quoteColumn (.name column) (alias?.map .aliased) table schema = .ok text
      ∧ text.toList
        = pathChars (table.elim [] fun t => schema.toList ++ [t]) column ++ aliasChars alias? := by
  have hexpr : ColumnExpr.ofName (.name column) table schema
      = .path (table.elim [] fun t => schema.toList ++ [t]) column := by
    cases table <;> rfl
  have hcolumnSql : columnSql (.name column) (alias?.map .aliased) table schema
      = .ok (.column (ColumnExpr.ofName (.name column) table schema) none :: aliasSql alias?) := by
    cases alias? <;> rfl
  refine ⟨_, by rw [quoteColumn, hcolumnSql]; rfl, ?_⟩
  rw [← toList_spell_path hquote _ hcolumn, ← toList_spell_aliasSql hquote, ← hexpr,
    ← String.toList_append]
  rfl

end Dialect

/-- In the built-in dialects a quoted name is read back with what follows it, a table with its
schema and its alias, and a column that is not `*` with its table, its schema and its alias. -/
theorem BuiltinDialect.read_quoted (b : BuiltinDialect) :
    (∀ x s : String, s.toList.head? ≠ some '"' →
        readName (b.dialect.quoteIdentifier x ++ s).toList = some (x, s.toList))
      ∧ (∀ (table : String) (alias? schema : Option String),
          TableRef.read (b.dialect.quoteTable (.name table) alias? schema)
            = some ⟨schema, .name table, alias?⟩)
      ∧ ∀ (column : String) (alias? table schema : Option String), column ≠ "*" →
          (table = none → schema = none) →
          ∃ text, b.dialect.quoteColumn (.name column) (alias?.map .aliased) table schema
              = .ok text
            ∧ FieldRef.read text = some ⟨.name column, alias?, table, schema⟩ := by
  have hquote : b.dialect.quoteIdentifier = doubleQuoted := by cases b <;> rfl
  refine ⟨fun x s hs => ?_, fun table alias? schema => ?_,
    fun column alias? table schema hcolumn hschema => ?_⟩
  · rw [hquote, String.toList_append, readName_doubleQuoted x hs]
  · have hread := readAliased_eq (Dialect.toList_quoteTable hquote table alias? schema)
    cases schema <;> simp [TableRef.read, hread]
  · obtain ⟨text, htext, hchars⟩ := Dialect.toList_quoteColumn hquote hcolumn alias? table schema
    have hread := readAliased_eq hchars
    refine ⟨text, htext, ?_⟩
    cases table with
    | none =>
      obtain rfl := hschema rfl
      simp [FieldRef.read, hread]
    | some table => cases schema <;> simp [FieldRef.read, hread]

/-- Quotes, dots and ` AS ` inside the names, and an empty name, do not mislead the reader. -/
theorem BuiltinDialect.read_quoted_hostile :
    readName (Dialect.postgres.quoteIdentifier "a\".\"b" ++ ".\"").toList
        = some ("a\".\"b", ".\"".toList)
      ∧ Dialect.postgres.quoteColumn (.name "\"") (some (.aliased "x\" AS \"y")) (some "t\".\"u")
          (some "")
        = .ok "\"\".\"t\"\".\"\"u\".\"\"\"\" AS \"x\"\" AS \"\"y\""
      ∧ FieldRef.read "\"\".\"t\"\".\"\"u\".\"\"\"\" AS \"x\"\" AS \"\"y\""
        = some ⟨.name "\"", some "x\" AS \"y", some "t\".\"u", some ""⟩ := by
  have hquoted : Dialect.postgres.quoteColumn (.name "\"") (some (.aliased "x\" AS \"y"))
      (some "t\".\"u") (some "")
      = .ok "\"\".\"t\"\".\"\"u\".\"\"\"\" AS \"x\"\" AS \"\"y\"" := rfl
  obtain ⟨hname, -, hcolumn⟩ := read_quoted .postgres
  obtain ⟨text, htext, hread⟩ := hcolumn "\"" (some "x\" AS \"y") (some "t\".\"u") (some "")
    (by decide) (fun h => nomatch h)
  obtain rfl := Except.ok.inj (hquoted.symm.trans htext)
  have hlast : ".\"".toList.head? ≠ some '"' := by decide
  exact ⟨hname "a\".\"b" ".\"" hlast, hquoted, hread⟩

end SqlAssembly
