import SqlAssembly.Proofs.Lexing
import SqlAssembly.Proofs.NameChecks

/-!
# Renaming the names in SQL

A renaming changes the names in the pieces of SQL and nothing else. SQL is related to its renamed
SQL (`Sql.Renamed`) if it consists of names, bound values and text without quotes, and no two names
stand side by side in it. Such SQL binds the same values after renaming, shows something exactly if
it did, and its text is read as the same tokens, with the names renamed (`Sql.Renamed.lex_spell`).
-/

namespace SqlAssembly

/-- An injective change of names that keeps them well formed. No name but `*` becomes `*`, which is
no name for a column. What no statement accepts as a name may stay as it is
(`Renaming.ofNames`). -/
structure Renaming where
  apply : String → String
  injective : Function.Injective apply
  wellFormed {name : String} (h : WellFormedName name) : WellFormedName (apply name)
  ne_star {name : String} (h : name ≠ "*") : apply name ≠ "*"

namespace Renaming

instance : CoeFun Renaming fun _ => String → String := ⟨apply⟩

variable (r : Renaming)

/-- The change of a column name. For a column `*` is not a name. -/
def column (name : String) : String := if name = "*" then "*" else r name

@[simp] theorem apply_eq_apply {s t : String} : r s = r t ↔ s = t := r.injective.eq_iff

theorem column_star : r.column "*" = "*" := if_pos rfl

theorem column_of_ne {name : String} (h : name ≠ "*") : r.column name = r name := if_neg h

theorem column_injective : Function.Injective r.column := by
  intro s t h
  by_cases hs : s = "*" <;> by_cases ht : t = "*" <;>
    simp_all [column, r.ne_star, eq_comm (a := "*")]

theorem leVia_checkName (role : NameRole) (name : String) :
    Except.LeVia (fun _ _ => WellFormedName name) (checkName role name)
      (checkName role (r name)) := by
  intro _ h
  have hname := checkName_eq_ok.1 h
  exact ⟨(), checkName_eq_ok.2 (r.wellFormed hname), hname⟩

theorem leVia_checkName_column (role : NameRole) (name : String) :
    Except.LeVia (fun _ _ => WellFormedName name) (checkName role name)
      (checkName role (r.column name)) := by
  by_cases h : name = "*"
  · subst h
    rw [r.column_star]
    exact fun _ h => ⟨(), h, checkName_eq_ok.1 h⟩
  · rw [r.column_of_ne h]
    exact r.leVia_checkName role name

/-- The change of the names that a column may have by a function of its own, all other strings being
kept. -/
def extend (f : String → String) (s : String) : String :=
  if WellFormedName s ∧ s ≠ "*" then f s else s

/-- Every injective map of the well-formed names other than `*` to such names extends to a
renaming. -/
def ofNames (f : String → String)
    (hmaps : ∀ s, WellFormedName s ∧ s ≠ "*" → WellFormedName (f s) ∧ f s ≠ "*")
    (hinjective : ∀ s t, WellFormedName s ∧ s ≠ "*" → WellFormedName t ∧ t ≠ "*" →
      f s = f t → s = t) : Renaming where
  apply := extend f
  injective s t h := by
    unfold extend at h
    split at h <;> split at h
    · exact hinjective s t ‹_› ‹_› h
    · exact absurd (h ▸ hmaps s ‹_›) ‹_›
    · exact absurd (h ▸ hmaps t ‹_›) ‹_›
    · exact h
  wellFormed {s} h := by
    unfold extend
    split
    · exact (hmaps s ‹_›).1
    · exact h
  ne_star {s} h := by
    unfold extend
    split
    · exact (hmaps s ‹_›).2
    · exact h

end Renaming

/-- The token with its name changed. -/
def Token.rename (r : Renaming) : Token → Token
  | quoted name => quoted (r name)
  | char c => char c

variable {r : Renaming}

@[simp] theorem Token.rename_char (c : Char) : (char c).rename r = char c := rfl

@[simp] theorem Token.isQuoted_rename (t : Token) : (t.rename r).isQuoted = t.isQuoted := by
  cases t <;> rfl

@[simp] theorem Token.rename_eq_char {t : Token} {c : Char} : t.rename r = char c ↔ t = char c := by
  cases t <;> simp [rename]

/-! ### Pieces -/

/-- A piece and the renamed piece: text without quotes, a name, a column or a bound value. -/
inductive Piece.Renamed (r : Renaming) : Piece → Piece → Prop where
  | text {s : String} (plain : '"' ∉ s.toList) : Renamed r (.text s) (.text s)
  | name (s : String) : Renamed r (.name s) (.name (r s))
  | column (qualifiers : List String) (name : String) :
    Renamed r (.column (.path qualifiers name) none)
      (.column (.path (qualifiers.map r) (r.column name)) none)
  | param (v : Value) : Renamed r (.param v) (.param v)

/-- A dialect that quotes names as usual, and whose placeholders have no quotes. -/
structure Dialect.QuotesNames (d : Dialect) : Prop where
  quoteIdentifier : d.quoteIdentifier = doubleQuoted
  placeholder (index : Nat) : '"' ∉ (d.placeholder index).toList

variable {d : Dialect} {k : Nat}

namespace Piece.Renamed

variable {p p' : Piece}

theorem values_eq (h : Renamed r p p') : p'.values = p.values := by
  cases h <;> rfl

theorem tokens_eq (h : Renamed r p p') :
    p'.tokens d k = (p.tokens d k).map (Token.rename r) := by
  cases h with
  | text plain => simp [tokens]
  | name s => rfl
  | column qualifiers name =>
    have hname : (if r.column name = "*" then Token.char '*' else .quoted (r.column name))
        = Token.rename r (if name = "*" then .char '*' else .quoted name) := by
      by_cases h : name = "*"
      · simp [h, Renaming.column]
      · simp [h, Renaming.column, r.ne_star h, Token.rename]
    simp only [tokens, ColumnExpr.tokens, hname, List.map_append, List.map_flatMap,
      List.flatMap_map]
    rfl
  | param v => simp [tokens]

theorem isBlank_eq (hquote : d.quoteIdentifier = doubleQuoted) (h : Renamed r p p') :
    p'.isBlank d = p.isBlank d := by
  have hname (name : String) : (doubleQuoted name).isEmpty = false := by
    simpa using (by simp [doubleQuoted] : doubleQuoted name ≠ "")
  cases h with
  | text plain => rfl
  | name s => simp only [isBlank, spell, hquote, hname, Bool.and_false]
  | column qualifiers name =>
    have hcolumn (qualifiers : List String) (name : String) :
        ((ColumnExpr.path qualifiers name).spell d).isEmpty = false := by
      rw [ColumnExpr.spell, Sql.isEmpty_append]
      by_cases h : name = "*"
      · simp [h]
      · rw [if_neg h, hquote, hname, Bool.and_false]
    simp only [isBlank, spell, hcolumn, Bool.and_false]
  | param v => rfl

theorem char_quote_not_mem (hd : d.QuotesNames) (h : Renamed r p p') :
    .char '"' ∉ p.tokens d k := by
  cases h with
  | text plain => simpa [tokens, spell] using plain
  | name s => simp [tokens]
  | column qualifiers name => by_cases h : name = "*" <;> simp [tokens, ColumnExpr.tokens, h]
  | param v => simpa [tokens, spell] using hd.placeholder (k + 1)

end Piece.Renamed

/-! ### SQL -/

namespace Sql

/-- Text that keeps names apart: there is some, and it has no quotes. -/
def Separates (s : String) : Prop := s ≠ "" ∧ '"' ∉ s.toList

instance : DecidablePred Separates := fun s =>
  inferInstanceAs (Decidable (s ≠ "" ∧ '"' ∉ s.toList))

/-- SQL in which no two names stand side by side, and the renamed SQL. -/
structure Renamed (r : Renaming) (sql sql' : Sql) : Prop where
  pieces : List.Forall₂ (Piece.Renamed r) sql sql'
  apart (d : Dialect) (k : Nat) : Token.Apart (sql.tokens d k)

/-- SQL that may follow a name, as it does not begin with one, and the renamed SQL. -/
structure RenamedClause (r : Renaming) (sql sql' : Sql) : Prop extends Renamed r sql sql' where
  startsPlain (d : Dialect) (k : Nat) : ∀ t ∈ (sql.tokens d k).head?, t.isQuoted = false

variable {a a' b b' : Sql}

namespace Renamed

theorem nil : Renamed r [] [] := ⟨.nil, fun _ _ => .nil⟩

theorem name (s : String) : Renamed r [.name s] [.name (r s)] :=
  ⟨.cons (.name s) .nil, fun _ _ => .singleton _⟩

theorem column (qualifiers : List String) (name : String) :
    Renamed r [.column (.path qualifiers name) none]
      [.column (.path (qualifiers.map r) (r.column name)) none] := by
  refine ⟨.cons (.column qualifiers name) .nil, fun d k => ?_⟩
  rw [tokens_cons, tokens_nil, List.append_nil, Piece.tokens, ColumnExpr.tokens]
  induction qualifiers with
  | nil => exact .singleton _
  | cons q qs ih =>
    rw [List.flatMap_cons, List.append_assoc]
    exact .cons_cons (fun _ => rfl) (ih.cons fun _ _ h => absurd h Bool.false_ne_true)

theorem param (v : Value) : Renamed r [.param v] [.param v] :=
  ⟨.cons (.param v) .nil, fun _ _ => Token.Apart.map_char_append _ .nil⟩

theorem text_append {s : String} (hs : '"' ∉ s.toList) (hb : Renamed r b b') :
    Renamed r (Sql.text s ++ b) (Sql.text s ++ b') := by
  refine ⟨.cons (.text hs) hb.pieces, fun d k => ?_⟩
  rw [tokens_append, tokens_text]
  exact (hb.apart d _).map_char_append _

theorem text {s : String} (hs : '"' ∉ s.toList) : Renamed r (Sql.text s) (Sql.text s) := by
  simpa using text_append hs (nil (r := r))

theorem append (ha : Renamed r a a') (hb : RenamedClause r b b') :
    Renamed r (a ++ b) (a' ++ b') := by
  refine ⟨List.rel_append ha.pieces hb.pieces, fun d k => ?_⟩
  rw [tokens_append]
  exact List.isChain_append.2
    ⟨ha.apart d k, hb.apart d _, fun _ _ t ht _ => hb.startsPlain d _ t ht⟩

end Renamed

namespace RenamedClause

theorem nil : RenamedClause r [] [] := ⟨.nil, by simp⟩

theorem text {s : String} (hs : '"' ∉ s.toList) : RenamedClause r (Sql.text s) (Sql.text s) := by
  refine ⟨.text hs, fun d k t ht => ?_⟩
  rw [tokens_text, List.head?_map] at ht
  obtain ⟨c, -, rfl⟩ := Option.map_eq_some_iff.1 ht
  rfl

theorem text_append {s : String} (hs : Separates s) (hb : Renamed r b b') :
    RenamedClause r (Sql.text s ++ b) (Sql.text s ++ b') := by
  refine ⟨.text_append hs.2 hb, fun d k t ht => ?_⟩
  rw [tokens_append, List.head?_append_of_ne_nil] at ht
  · exact (text (r := r) hs.2).startsPlain d k t ht
  · simpa using hs.1

theorem aliasSql (alias? : Option String) :
    RenamedClause r (SqlAssembly.aliasSql alias?) (SqlAssembly.aliasSql (alias?.map r)) := by
  cases alias? with
  | none => exact nil
  | some aliasName => exact text_append (by decide) (.name aliasName)

end RenamedClause

namespace Renamed

theorem append_text {s : String} (hs : '"' ∉ s.toList) (ha : Renamed r a a') :
    Renamed r (a ++ Sql.text s) (a' ++ Sql.text s) :=
  ha.append (.text hs)

/-- SQL on both sides of text that keeps them apart. -/
theorem append_text_append {s : String} (hs : Separates s) (ha : Renamed r a a')
    (hb : Renamed r b b') : Renamed r (a ++ Sql.text s ++ b) (a' ++ Sql.text s ++ b') := by
  rw [List.append_assoc, List.append_assoc]
  exact ha.append (.text_append hs hb)

theorem enclosed (marks : String × String) (hbefore : '"' ∉ marks.1.toList)
    (hbehind : '"' ∉ marks.2.toList) (ha : Renamed r a a') :
    Renamed r (Sql.enclosed marks a) (Sql.enclosed marks a') :=
  append_text hbehind (text_append hbefore ha)

theorem parenthesized (ha : Renamed r a a') :
    Renamed r (Sql.parenthesized a) (Sql.parenthesized a') :=
  enclosed ("(", ")") (by decide) (by decide) ha

theorem join (separator : String) (hs : Separates separator) {parts parts' : List Sql}
    (h : List.Forall₂ (Renamed r) parts parts') :
    Renamed r (Sql.join separator parts) (Sql.join separator parts') := by
  induction h with
  | nil => exact nil
  | @cons a a' as as' ha has ih =>
    cases has with
    | nil => simpa [Sql.join] using ha
    | cons _ _ =>
      rw [Sql.join, Sql.join, List.intercalate_cons_cons, List.intercalate_cons_cons]
      exact append_text_append hs ha ih

theorem tableSql (name : String) (schema : Option String) :
    Renamed r (SqlAssembly.tableSql (.name name) schema)
      (SqlAssembly.tableSql (.name (r name)) (schema.map r)) := by
  cases schema with
  | none => exact .name name
  | some schema => exact append_text_append (by decide) (.name schema) (.name name)

theorem values_eq (h : Renamed r a a') : a'.values = a.values := by
  obtain ⟨hpieces, -⟩ := h
  induction hpieces with
  | nil => rfl
  | cons hp _ ih => rw [values_cons, values_cons, hp.values_eq, ih]

theorem isBlank_eq (hquote : d.quoteIdentifier = doubleQuoted) (h : Renamed r a a') :
    a'.isBlank d = a.isBlank d := by
  obtain ⟨hpieces, -⟩ := h
  induction hpieces with
  | nil => rfl
  | cons hp _ ih =>
    rw [isBlank, isBlank] at ih ⊢
    rw [List.all_cons, List.all_cons, hp.isBlank_eq hquote, ih]

theorem tokens_eq (h : Renamed r a a') :
    a'.tokens d k = (a.tokens d k).map (Token.rename r) := by
  obtain ⟨hpieces, -⟩ := h
  induction hpieces generalizing k with
  | nil => rfl
  | cons hp _ ih => rw [tokens_cons, tokens_cons, hp.tokens_eq, hp.values_eq, ih, List.map_append]

theorem char_quote_not_mem (hd : d.QuotesNames) (h : Renamed r a a') :
    .char '"' ∉ a.tokens d k := by
  obtain ⟨hpieces, -⟩ := h
  induction hpieces generalizing k with
  | nil => simp
  | cons hp _ ih =>
    rw [tokens_cons, List.mem_append, not_or]
    exact ⟨hp.char_quote_not_mem hd, ih⟩

/-- The text of the renamed SQL is read as the tokens of the SQL, with the names renamed. -/
theorem lex_spell (hd : d.QuotesNames) (h : Renamed r a a') :
    Token.lex (d.spell a') = (Token.lex (d.spell a)).map (Token.rename r) := by
  have hapart : Token.Apart (a'.tokens d 0) := by
    rw [h.tokens_eq]
    refine (List.isChain_map _).2 ?_
    simp only [Token.isQuoted_rename]
    exact h.apart d 0
  have hplain : .char '"' ∉ a'.tokens d 0 := by
    rw [h.tokens_eq]
    simpa using h.char_quote_not_mem hd
  rw [Dialect.spell, Dialect.spell, Sql.lex_spell hd.quoteIdentifier hapart hplain,
    Sql.lex_spell hd.quoteIdentifier (h.apart d 0) (h.char_quote_not_mem hd), h.tokens_eq]

end Renamed

end Sql

end SqlAssembly
