import Mathlib.Data.List.Chain
import SqlAssembly.Proofs.DelimitedText
import SqlAssembly.Proofs.Spelling

/-!
# Reading SQL as tokens

A lexer that knows quoted names and nothing else: a quoted name is one token, its doubled quotes
undone, and every other character is a token of its own. SQL without raw parts is read as the tokens
of its pieces, unless two names stand side by side (`Sql.lex_spell`).
-/

namespace SqlAssembly

/-! ### Quoted names -/

/-- What is quoted up to the first quote that is not doubled, and what follows this quote. -/
def readQuoted : List Char → Option (List Char × List Char)
  | [] => none
  | '"' :: '"' :: cs => (readQuoted cs).map fun (name, rest) => ('"' :: name, rest)
  | '"' :: cs => some ([], cs)
  | c :: cs => (readQuoted cs).map fun (name, rest) => (c :: name, rest)

theorem length_lt_of_readQuoted {cs name rest : List Char}
    (h : readQuoted cs = some (name, rest)) : rest.length < cs.length := by
  induction cs using readQuoted.induct generalizing name rest with
  | case1 => simp [readQuoted] at h
  | case2 cs ih =>
    simp only [readQuoted, Option.map_eq_some_iff, Prod.exists, Prod.mk.injEq] at h
    obtain ⟨name', rest', h, -, rfl⟩ := h
    have := ih h
    simp only [List.length_cons]
    omega
  | case3 cs hcs =>
    rw [readQuoted.eq_3 cs hcs] at h
    obtain ⟨-, rfl⟩ := Prod.mk.inj (Option.some.inj h)
    simp
  | case4 c cs hdoubled hquote ih =>
    rw [readQuoted.eq_4 c cs hdoubled hquote, Option.map_eq_some_iff] at h
    obtain ⟨⟨name', rest'⟩, h, heq⟩ := h
    obtain ⟨-, rfl⟩ := Prod.mk.inj heq
    have := ih h
    simp only [List.length_cons]
    omega

/-- A name whose quotes are doubled is read back up to the quote that ends it. -/
theorem readQuoted_doubledQuotes (cs : List Char) {s : List Char} (hs : s.head? ≠ some '"') :
    readQuoted (doubledQuotes cs ++ '"' :: s) = some (cs, s) := by
  induction cs with
  | nil =>
    refine readQuoted.eq_3 s ?_
    rintro s' rfl
    exact hs rfl
  | cons c cs ih =>
    rw [doubledQuotes_cons]
    by_cases hc : c = '"'
    · simp [hc, readQuoted, ih]
    · have hstep := readQuoted.eq_4 c (doubledQuotes cs ++ '"' :: s)
        (fun _ h => absurd h hc) (fun h => absurd h hc)
      simp [hc, hstep, ih]

/-! ### Tokens -/

/-- A quoted name, or a character outside of all quoted names. -/
inductive Token where
  | quoted (name : String)
  | char (c : Char)
  deriving DecidableEq

namespace Token

/-- Read a text. A quote that nothing ends is a character like others. -/
def read (cs : List Char) : List Token :=
  match cs with
  | [] => []
  | '"' :: cs =>
    match _h : readQuoted cs with
    | some (name, rest) => .quoted (String.ofList name) :: read rest
    | none => .char '"' :: read cs
  | c :: cs => .char c :: read cs
termination_by cs.length
decreasing_by
  · have := length_lt_of_readQuoted _h
    simp only [List.length_cons]
    omega
  · simp
  · simp

/-- The tokens of a text. -/
def lex (s : String) : List Token := read s.toList

/-- The characters of a token. -/
def chars : Token → List Char
  | quoted name => (doubleQuoted name).toList
  | char c => [c]

/-- Whether the token is a quoted name. -/
def isQuoted : Token → Bool
  | quoted _ => true
  | char _ => false

/-- No two names stand side by side. -/
def Apart (ts : List Token) : Prop := ts.IsChain fun t t' => t.isQuoted = true → t'.isQuoted = false

/-- Characters before tokens bring no names together. -/
theorem Apart.map_char_append (cs : List Char) {ts : List Token} (h : Apart ts) :
    Apart (cs.map char ++ ts) := by
  induction cs with
  | nil => exact h
  | cons c cs ih => exact ih.cons fun _ _ hc => nomatch hc

@[simp] theorem read_nil : read [] = [] := by simp [read]

theorem read_doubleQuoted (name : String) {s : List Char} (hs : s.head? ≠ some '"') :
    read ((doubleQuoted name).toList ++ s) = .quoted name :: read s := by
  have hquoted := readQuoted_doubledQuotes name.toList hs
  rw [toList_doubleQuoted, List.cons_append, List.append_assoc, List.singleton_append, read]
  split
  · rename_i heq
    rw [hquoted] at heq
    obtain ⟨rfl, rfl⟩ := Prod.mk.inj (Option.some.inj heq)
    simp
  · rename_i heq
    rw [hquoted] at heq
    cases heq

theorem read_cons {c : Char} (hc : c ≠ '"') (s : List Char) :
    read (c :: s) = .char c :: read s := by
  rw [read.eq_3 c s (fun h => absurd h hc)]

/-- The characters of tokens are read as these tokens, unless two names stand side by side or a
quote outside of them begins another one. -/
theorem read_flatMap_chars {ts : List Token} (hapart : Apart ts) (hquote : char '"' ∉ ts) :
    read (ts.flatMap chars) = ts := by
  induction ts with
  | nil => exact read_nil
  | cons t ts ih =>
    have ih := ih hapart.of_cons (fun h => hquote (List.mem_cons_of_mem _ h))
    rw [List.flatMap_cons]
    cases t with
    | char c =>
      have hc : c ≠ '"' := by
        rintro rfl
        exact hquote (List.mem_cons_self ..)
      rw [chars, List.singleton_append, read_cons hc, ih]
    | quoted name =>
      rw [chars, read_doubleQuoted, ih]
      cases ts with
      | nil => simp
      | cons t' ts =>
        have ht' := (List.isChain_cons_cons.1 hapart).1 rfl
        cases t' with
        | quoted name' => cases ht'
        | char c =>
          rw [List.flatMap_cons, chars, List.singleton_append, List.head?_cons, ne_eq,
            Option.some.injEq]
          rintro rfl
          exact hquote (by simp)

end Token

/-! ### The tokens of SQL -/

/-- The tokens of a column expression. -/
def ColumnExpr.tokens : ColumnExpr → List Token
  | raw sql => sql.toList.map .char
  | path qualifiers name =>
    qualifiers.flatMap (fun q => [.quoted q, .char '.'])
      ++ [if name = "*" then .char '*' else .quoted name]

/-- The tokens of a piece: its names, and the characters of what is no name. -/
def Piece.tokens (d : Dialect) (bound : Nat) : Piece → List Token
  | name s => [.quoted s]
  | column expr none => expr.tokens
  | p => (p.spell d bound).toList.map .char

/-- The tokens of SQL, `bound` values being bound before it. -/
def Sql.tokens (d : Dialect) (bound : Nat) : Sql → List Token
  | [] => []
  | p :: ps => p.tokens d bound ++ Sql.tokens d (bound + p.values.length) ps

variable {d : Dialect} {k : Nat}

theorem Token.flatMap_chars_map_char (cs : List Char) : (cs.map char).flatMap chars = cs := by
  simp [List.flatMap_map, chars]

theorem ColumnExpr.flatMap_chars_tokens (hquote : d.quoteIdentifier = doubleQuoted)
    (expr : ColumnExpr) : expr.tokens.flatMap Token.chars = (expr.spell d).toList := by
  cases expr with
  | raw sql => exact Token.flatMap_chars_map_char _
  | path qualifiers name =>
    have hqualifiers : (qualifiers.flatMap fun q => [.quoted q, .char '.']).flatMap Token.chars
        = (String.join (qualifiers.map fun q => d.quoteIdentifier q ++ ".")).toList := by
      induction qualifiers with
      | nil => rfl
      | cons q qs ih => simp [ih, hquote, Token.chars, String.join_cons]
    rw [tokens, spell, List.flatMap_append, hqualifiers, String.toList_append]
    by_cases hname : name = "*" <;> simp [hname, hquote, Token.chars]

namespace Sql

@[simp] theorem tokens_nil : tokens d k [] = [] := rfl

@[simp] theorem tokens_cons (p : Piece) (ps : Sql) :
    tokens d k (p :: ps) = p.tokens d k ++ tokens d (k + p.values.length) ps := rfl

@[simp] theorem tokens_append (a b : Sql) :
    tokens d k (a ++ b) = tokens d k a ++ tokens d (k + (values a).length) b := by
  induction a generalizing k with
  | nil => simp
  | cons p ps ih => simp [ih, Nat.add_assoc]

@[simp] theorem tokens_text (s : String) : tokens d k (text s) = s.toList.map .char := by
  simp [text, Piece.tokens, Piece.spell]

/-- The text of SQL consists of the characters of its tokens. -/
theorem flatMap_chars_tokens (hquote : d.quoteIdentifier = doubleQuoted) (sql : Sql) :
    (sql.tokens d k).flatMap Token.chars = (sql.spell d k).toList := by
  induction sql generalizing k with
  | nil => rfl
  | cons p ps ih =>
    have hpiece : (p.tokens d k).flatMap Token.chars = (p.spell d k).toList := by
      match p with
      | .name s => simp [Piece.tokens, Piece.spell, Token.chars, hquote]
      | .column expr none => exact ColumnExpr.flatMap_chars_tokens hquote expr
      | .column expr (some type) | .text s | .param v => exact Token.flatMap_chars_map_char _
    rw [tokens_cons, List.flatMap_append, hpiece, ih, spell_cons, String.toList_append]

/-- The text of SQL is read as its tokens, unless two names stand side by side or a quote begins
another one. -/
theorem lex_spell (hquote : d.quoteIdentifier = doubleQuoted) {sql : Sql}
    (hapart : Token.Apart (sql.tokens d k)) (hplain : .char '"' ∉ sql.tokens d k) :
    Token.lex (sql.spell d k) = sql.tokens d k := by
  rw [Token.lex, ← flatMap_chars_tokens hquote]
  exact Token.read_flatMap_chars hapart hplain

end Sql

end SqlAssembly
