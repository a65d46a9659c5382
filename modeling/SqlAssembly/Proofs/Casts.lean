import SqlAssembly.Proofs.Expressions

/-!
# Casts of raw columns

A cast of a raw column puts its text into the cast of the dialect as it stands. The cast of standard
SQL has parentheses of its own, so it covers the whole expression. That of PostgreSQL has none and
binds tightly, so it covers the last operand of the expression alone (`derives_quoteColumn_cast`).
-/

namespace SqlAssembly

open Lexeme (isWordChar)

variable {letters : Char → Bool} {d : Dialect}

/-! ### Casting the last operand -/

namespace Expression

/-- Whether an expression is an operand: neither a sum nor a product, unless in parentheses. -/
def isOperand : Expression → Bool
  | add _ _ | mul _ _ => false
  | _ => true

/-- Cast the last operand of an expression. -/
def castLast (type : String) : Expression → Expression
  | add l r => add l (r.castLast type)
  | mul l r => mul l (r.castLast type)
  | e => cast e type

/-- The cast of the last operand is that of the whole exactly if there is no other operand. -/
theorem castLast_eq_cast_iff {e : Expression} {type : String} :
    e.castLast type = cast e type ↔ e.isOperand = true := by
  cases e <;> simp [castLast, isOperand]

end Expression

/-- A suffix that casts is taken by the last operand. -/
theorem Derives.castLast {l : Level} {ts : List Lexeme} {e : Expression} (h : Derives l ts e)
    {type : String} (htype : isNameWord type = true) :
    Derives l (ts ++ [.symbol ':', .symbol ':', .word type]) (e.castLast type) := by
  induction h with
  | word hs => exact .castSuffix htype (.word hs)
  | integer hs => exact .castSuffix htype (.integer hs)
  | decimal hs ht => exact .castSuffix htype (.decimal hs ht)
  | quoted name => exact .castSuffix htype (.quoted name)
  | paren h => exact .castSuffix htype (.paren h)
  | castCall hcast has htype' h => exact .castSuffix htype (.castCall hcast has htype' h)
  | castSuffix htype' h => exact .castSuffix htype (.castSuffix htype' h)
  | ofOperand _ ih => exact .ofOperand ih
  | mul hl _ _ ihr =>
    rw [List.append_assoc, List.cons_append]
    exact .mul hl ihr
  | ofProduct _ ih => exact .ofProduct ih
  | add hl _ _ ihr =>
    rw [List.append_assoc, List.cons_append]
    exact .add hl ihr

/-! ### The lexemes of a cast -/

/-- No expression has a quote outside of its names. -/
theorem Derives.not_mem_quote {l : Level} {ts : List Lexeme} {e : Expression}
    (h : Derives l ts e) : .symbol '"' ∉ ts := by
  induction h <;> simp_all

theorem Derives.quotesPaired {l : Level} {raw : String} {e : Expression}
    (h : Derives l (Lexeme.lex letters raw) e) : QuotesPaired raw :=
  Lexeme.quotesPaired_of_symbol_not_mem h.not_mem_quote

/-- A word that a type can be named by. -/
structure IsTypeWord (letters : Char → Bool) (type : String) : Prop where
  isNameWord : isNameWord type = true
  isWordChar : ∀ c ∈ type.toList, isWordChar letters c = true

namespace IsTypeWord

variable {type : String} (h : IsTypeWord letters type)

include h

theorem lex_eq : Lexeme.lex letters type = [.word type] := by
  refine Lexeme.lex_of_wordChars ?_ h.isWordChar
  rintro rfl
  cases h.isNameWord

theorem quotesPaired : QuotesPaired type := by
  refine quotesPaired_of_not_mem fun hmem => ?_
  cases h.isWordChar _ hmem

end IsTypeWord

/-- The cast of standard SQL is read as a call around the lexemes of its expression. -/
theorem lex_standardCast {raw type : String} (hraw : QuotesPaired raw)
    (htype : IsTypeWord letters type) :
    Lexeme.lex letters (standardCast raw type)
      = .word "CAST" :: .symbol '(' :: (Lexeme.lex letters raw
          ++ [.word "AS", .word type, .symbol ')']) := by
  have hplain : ∀ s ∈ ["CAST(", " AS ", ")"], '"' ∉ s.toList := by decide
  simp only [List.forall_mem_cons] at hplain
  obtain ⟨hcast, has, hend, -⟩ := hplain
  have hcastPaired := quotesPaired_of_not_mem hcast
  have hendPaired := quotesPaired_of_not_mem hend
  have hcall : Lexeme.lex letters ("CAST(" ++ raw)
      = [.word "CAST", .symbol '('] ++ Lexeme.lex letters raw := by
    rw [Lexeme.lex_append_of_getLast? hcastPaired hraw (c := '(') rfl (by decide) rfl,
      Lexeme.lex_of_not_mem hcast]
    rfl
  have hclose : Lexeme.lex letters (type ++ ")") = [.word type, .symbol ')'] := by
    rw [Lexeme.lex_append_of_head? htype.quotesPaired hendPaired (c := ')') rfl (by decide) rfl,
      htype.lex_eq, Lexeme.lex_of_not_mem hend]
    rfl
  have hasLex : Lexeme.lex letters " AS " = [.word "AS"] := Lexeme.lex_of_not_mem has
  have happart : Lexeme.ReadApart letters ("CAST(" ++ raw) " AS " (type ++ ")") :=
    Lexeme.readApart_of_not_mem (hcastPaired.append hraw) has
      (htype.quotesPaired.append hendPaired) (by decide) (.inr (by simp [isWordChar]))
      (.inl (by simp [isWordChar]))
  rw [standardCast, String.append_assoc, happart, hcall, hclose, hasLex]
  simp

/-- The cast of PostgreSQL is read as the lexemes of its expression with a suffix. -/
theorem lex_postgres_cast {raw type : String} (hraw : QuotesPaired raw)
    (htype : IsTypeWord letters type) :
    Lexeme.lex letters (Dialect.postgres.cast raw type)
      = Lexeme.lex letters raw ++ [.symbol ':', .symbol ':', .word type] := by
  have hplain : '"' ∉ "::".toList := by decide
  have hlex : Lexeme.lex letters "::" = [.symbol ':', .symbol ':'] :=
    Lexeme.lex_of_not_mem hplain
  have happart : Lexeme.ReadApart letters raw "::" type :=
    Lexeme.readApart_of_not_mem hraw hplain htype.quotesPaired (by decide)
      (.inr (by simp [isWordChar])) (.inl (by simp [isWordChar]))
  have htext : Dialect.postgres.cast raw type = raw ++ "::" ++ type := rfl
  rw [htext, happart, hlex, htype.lex_eq, List.append_assoc]
  rfl

/-! ### Casts of raw columns -/

theorem Dialect.quoteColumn_raw_cast (d : Dialect) (raw type : String)
    (table schema : Option String) :
    d.quoteColumn (.raw raw) (some (.cast [type])) table schema = .ok (d.cast raw type) := by
  simp [quoteColumn, columnSql, ColumnExpr.ofName, Dialect.spell, Piece.spell, ColumnExpr.spell]

/-- A raw column whose text is an expression, cast to a type that is named by a word. In a dialect
with the cast of standard SQL the text is an expression, and it is the cast of the whole one. In
PostgreSQL it is one too, but what is cast in it is the last operand: it is the cast of the whole
exactly if this is an operand itself. -/
theorem derives_quoteColumn_cast {raw type : String} {e : Expression}
    (h : Derives .sum (Lexeme.lex letters raw) e) (htype : IsTypeWord letters type)
    (table schema : Option String) :
    (∀ d : Dialect, d.cast = standardCast → ∃ text,
      d.quoteColumn (.raw raw) (some (.cast [type])) table schema = .ok text
        ∧ ∀ e', Derives .sum (Lexeme.lex letters text) e' ↔ e' = .cast e type)
    ∧ ∃ text, Dialect.postgres.quoteColumn (.raw raw) (some (.cast [type])) table schema = .ok text
        ∧ (∀ e', Derives .sum (Lexeme.lex letters text) e' ↔ e' = e.castLast type)
        ∧ (Derives .sum (Lexeme.lex letters text) (.cast e type) ↔ e.isOperand = true) := by
  have hraw := h.quotesPaired
  constructor
  · intro d hd
    have hcast : Derives .sum (Lexeme.lex letters (d.cast raw type)) (.cast e type) := by
      rw [hd, lex_standardCast hraw htype]
      exact .ofProduct (.ofOperand (.castCall rfl rfl htype.isNameWord h))
    refine ⟨_, d.quoteColumn_raw_cast raw type table schema, fun e' => ⟨fun h' => ?_, ?_⟩⟩
    · exact h'.unique hcast
    · rintro rfl
      exact hcast
  · have hcast : Derives .sum (Lexeme.lex letters (Dialect.postgres.cast raw type))
        (e.castLast type) := by
      rw [lex_postgres_cast hraw htype]
      exact h.castLast htype.isNameWord
    have hiff (e' : Expression) :
        Derives .sum (Lexeme.lex letters (Dialect.postgres.cast raw type)) e'
          ↔ e' = e.castLast type := by
      refine ⟨fun h' => h'.unique hcast, ?_⟩
      rintro rfl
      exact hcast
    refine ⟨_, Dialect.postgres.quoteColumn_raw_cast raw type table schema, hiff, ?_⟩
    rw [hiff, eq_comm, Expression.castLast_eq_cast_iff]

/-- A sum of two words. -/
theorem derives_sum : Derives .sum (Lexeme.lex (fun _ => false) "a + b")
    (.add (.word "a") (.word "b")) := by
  have hlex : Lexeme.lex (fun _ => false) "a + b" = [.word "a"] ++ .symbol '+' :: [.word "b"] :=
    Lexeme.lex_of_not_mem (by decide)
  rw [hlex]
  exact .add (.ofProduct (.ofOperand (.word rfl))) (.ofOperand (.word rfl))

theorem derives_quoteColumn_cast_sum :
    Derives .sum (Lexeme.lex (fun _ => false) "a + b") (.add (.word "a") (.word "b"))
      ∧ IsTypeWord (fun _ => false) "int"
      ∧ (∃ text, Dialect.generic.quoteColumn (.raw "a + b") (some (.cast ["int"])) none none
          = .ok text
        ∧ ∀ e', Derives .sum (Lexeme.lex (fun _ => false) text) e'
          ↔ e' = .cast (.add (.word "a") (.word "b")) "int")
      ∧ ∃ text, Dialect.postgres.quoteColumn (.raw "a + b") (some (.cast ["int"])) none none
          = .ok text
        ∧ ∀ e', Derives .sum (Lexeme.lex (fun _ => false) text) e'
          ↔ e' = .add (.word "a") (.cast (.word "b") "int") := by
  have htype : IsTypeWord (fun _ => false) "int" := ⟨rfl, by simp [isWordChar]⟩
  obtain ⟨hstandard, text, htext, hpostgres, -⟩ :=
    derives_quoteColumn_cast derives_sum htype none none
  exact ⟨derives_sum, htype, hstandard .generic rfl, text, htext, hpostgres⟩

/-- The cast of a sum in PostgreSQL is not read as one. -/
theorem not_derives_cast_sum :
    Dialect.postgres.quoteColumn (.raw "a + b") (some (.cast ["int"])) none none
        = .ok "a + b::int"
      ∧ Derives .sum (Lexeme.lex (fun _ => false) "a + b") (.add (.word "a") (.word "b"))
      ∧ ¬ Derives .sum (Lexeme.lex (fun _ => false) "a + b::int")
        (.cast (.add (.word "a") (.word "b")) "int") := by
  refine ⟨rfl, derives_sum, fun h => ?_⟩
  have hlex : Lexeme.lex (fun _ => false) "a + b::int"
      = [.word "a", .symbol '+', .word "b", .symbol ':', .symbol ':', .word "int"] :=
    Lexeme.lex_of_not_mem (by decide)
  have hparse := h.parse_eq
  rw [hlex] at hparse
  exact absurd hparse (by decide)

end SqlAssembly
