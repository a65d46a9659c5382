import SqlAssembly.Proofs.Lexing

/-!
# Reading SQL as lexemes

A lexer that knows words: a quoted name is one lexeme, a run of letters, digits and underscores is
one, and so is every other character that is not blank. Two texts whose quotes are paired are read
one after the other, unless they stick together where they meet: by two quotes, or by two
characters of words (`Lexeme.lex_append`, `Lexeme.length_lex_append`).
-/

namespace SqlAssembly

/-! ### Reading tokens loses nothing -/

/-- What is read as quoted stands between the quotes, and no quote follows. -/
theorem eq_of_readQuoted {cs name rest : List Char} (h : readQuoted cs = some (name, rest)) :
    cs = doubledQuotes name ++ '"' :: rest ∧ rest.head? ≠ some '"' := by
  induction cs using readQuoted.induct generalizing name rest with
  | case1 => simp [readQuoted] at h
  | case2 cs ih =>
    simp only [readQuoted, Option.map_eq_some_iff, Prod.exists, Prod.mk.injEq] at h
    obtain ⟨name', rest', h, rfl, rfl⟩ := h
    obtain ⟨rfl, hrest⟩ := ih h
    exact ⟨by simp [doubledQuotes_cons], hrest⟩
  | case3 cs hcs =>
    rw [readQuoted.eq_3 cs hcs] at h
    obtain ⟨rfl, rfl⟩ := Prod.mk.inj (Option.some.inj h)
    refine ⟨rfl, fun hhead => ?_⟩
    cases cs with
    | nil => cases hhead
    | cons c cs =>
      obtain rfl := Option.some.inj hhead
      exact hcs cs rfl
  | case4 c cs hdoubled hquote ih =>
    rw [readQuoted.eq_4 c cs hdoubled hquote, Option.map_eq_some_iff] at h
    obtain ⟨⟨name', rest'⟩, h, heq⟩ := h
    obtain ⟨rfl, rfl⟩ := Prod.mk.inj heq
    obtain ⟨rfl, hrest⟩ := ih h
    have hc : c ≠ '"' := fun hc => hquote hc
    exact ⟨by simp [doubledQuotes_cons, hc], hrest⟩

namespace Token

theorem flatMap_chars_read (cs : List Char) : (read cs).flatMap chars = cs := by
  fun_induction read cs with
  | case1 => rfl
  | case2 cs name rest hread ih =>
    obtain ⟨rfl, -⟩ := eq_of_readQuoted hread
    simp [chars, toList_doubleQuoted, ih]
  | case3 cs hread ih => simp [chars, ih]
  | case4 c cs hc ih => simp [chars, ih]

theorem chars_ne_nil (t : Token) : t.chars ≠ [] := by
  cases t <;> simp [chars, toList_doubleQuoted]

/-- A text whose first token is a name begins with a quote. -/
theorem head?_of_read {cs : List Char} {t : Token} {ts : List Token} (h : read cs = t :: ts) :
    cs.head? = t.chars.head? := by
  rw [← flatMap_chars_read cs, h, List.flatMap_cons, List.head?_append_of_ne_nil _ t.chars_ne_nil]

/-- No two names are read side by side: their quotes would make one of them. -/
theorem apart_read (cs : List Char) : Apart (read cs) := by
  fun_induction read cs with
  | case1 => exact List.isChain_nil
  | case2 cs name rest hread ih =>
    obtain ⟨-, hrest⟩ := eq_of_readQuoted hread
    refine List.IsChain.cons ih fun t ht _ => ?_
    cases t with
    | char c => rfl
    | quoted name' =>
      obtain ⟨ts, hts⟩ := List.head?_eq_some_iff.1 ht
      rw [head?_of_read hts] at hrest
      simp [chars, toList_doubleQuoted] at hrest
  | case3 cs hread ih => exact ih.cons fun _ _ h => absurd h Bool.false_ne_true
  | case4 c cs hc ih => exact ih.cons fun _ _ h => absurd h Bool.false_ne_true

end Token

/-! ### Texts with paired quotes -/

/-- Whether every quote in a text begins or ends a quoted name, or is doubled in one. -/
def QuotesPaired (s : String) : Prop := .char '"' ∉ Token.lex s

instance (s : String) : Decidable (QuotesPaired s) :=
  inferInstanceAs (Decidable (.char '"' ∉ Token.lex s))

/-- A text without quotes is read character by character. -/
theorem Token.lex_of_not_mem {s : String} (h : '"' ∉ s.toList) : lex s = s.toList.map .char := by
  rw [lex]
  generalize s.toList = cs at h
  induction cs with
  | nil => exact read_nil
  | cons c cs ih =>
    obtain ⟨hc, hcs⟩ := not_or.1 (List.mem_cons.not.1 h)
    rw [read_cons (Ne.symm hc), ih hcs, List.map_cons]

theorem quotesPaired_of_not_mem {s : String} (h : '"' ∉ s.toList) : QuotesPaired s := by
  simpa [QuotesPaired, Token.lex_of_not_mem h] using h

namespace Token

variable {a b : String}

theorem apart_lex (a : String) : Apart (lex a) := apart_read a.toList

theorem head?_toList (a : String) : a.toList.head? = (lex a).head?.bind fun t => t.chars.head? := by
  cases hlex : lex a with
  | nil =>
    rw [← flatMap_chars_read a.toList, show read a.toList = [] from hlex]
    rfl
  | cons t ts => exact head?_of_read hlex

theorem getLast?_toList (a : String) :
    a.toList.getLast? = (lex a).getLast?.bind fun t => t.chars.getLast? := by
  rw [← flatMap_chars_read a.toList, show read a.toList = lex a from rfl]
  obtain hlex | ⟨ts, t, hlex⟩ := List.eq_nil_or_concat (lex a)
  · rw [hlex]
    rfl
  · rw [hlex, List.concat_eq_append, List.flatMap_append, List.flatMap_singleton,
      List.getLast?_append_of_ne_nil _ t.chars_ne_nil, List.getLast?_concat, Option.bind_some]

theorem head?_chars (name : String) : (quoted name).chars.head? = some '"' := by
  simp [chars, toList_doubleQuoted]

theorem getLast?_chars (name : String) : (quoted name).chars.getLast? = some '"' := by
  rw [chars, toList_doubleQuoted, ← List.cons_append, List.getLast?_concat]

/-- A text whose quotes are paired begins with a quote only if it begins with a name. -/
theorem exists_name_of_head? (ha : QuotesPaired a) (h : a.toList.head? = some '"') :
    ∃ name ts, lex a = quoted name :: ts := by
  rw [head?_toList, Option.bind_eq_some_iff] at h
  obtain ⟨t, ht, h⟩ := h
  obtain ⟨ts, hts⟩ := List.head?_eq_some_iff.1 ht
  cases t with
  | quoted name => exact ⟨name, ts, hts⟩
  | char c =>
    cases h
    exact absurd (hts ▸ List.mem_cons_self ..) ha

/-- A text whose quotes are paired ends with a quote only if it ends with a name. -/
theorem exists_name_of_getLast? (ha : QuotesPaired a) (h : a.toList.getLast? = some '"') :
    ∃ ts name, lex a = ts ++ [quoted name] := by
  rw [getLast?_toList, Option.bind_eq_some_iff] at h
  obtain ⟨t, ht, h⟩ := h
  obtain ⟨ts, hts⟩ := List.getLast?_eq_some_iff.1 ht
  cases t with
  | quoted name => exact ⟨ts, name, hts⟩
  | char c =>
    cases h
    exact absurd (hts ▸ List.mem_append_right _ (List.mem_singleton_self _)) ha

theorem toList_append_eq : (a ++ b).toList = (lex a ++ lex b).flatMap chars := by
  rw [String.toList_append, List.flatMap_append, lex, lex, flatMap_chars_read, flatMap_chars_read]

/-- Texts whose quotes are paired are read one after the other, unless two quotes meet. -/
theorem lex_append (ha : QuotesPaired a) (hb : QuotesPaired b)
    (h : a.toList.getLast? = some '"' → b.toList.head? ≠ some '"') :
    lex (a ++ b) = lex a ++ lex b := by
  have hapart : Apart (lex a ++ lex b) := by
    refine List.isChain_append.2 ⟨apart_lex a, apart_lex b, fun t ht u hu hname => ?_⟩
    rw [getLast?_toList, head?_toList, Option.mem_def.1 ht, Option.mem_def.1 hu] at h
    cases t with
    | char c => cases hname
    | quoted name =>
      cases u with
      | char c => rfl
      | quoted name' =>
        rw [Option.bind_some, Option.bind_some, getLast?_chars, head?_chars] at h
        exact absurd rfl (h rfl)
  rw [lex, toList_append_eq]
  refine read_flatMap_chars hapart fun hmem => ?_
  exact (List.mem_append.1 hmem).elim ha hb

/-- Tokens that end with a name and tokens that begin with one stay apart around another name. -/
theorem Apart.replace {ts us : List Token} {name name' : String}
    (hts : Apart (ts ++ [quoted name])) (hus : Apart (quoted name' :: us)) (name'' : String) :
    Apart (ts ++ quoted name'' :: us) := by
  refine List.isChain_append.2 ⟨hts.left_of_append, ?_, fun t ht u hu => ?_⟩
  · exact List.isChain_cons.2 ⟨(List.isChain_cons.1 hus).1, hus.of_cons⟩
  · cases hu
    exact (List.isChain_append.1 hts).2.2 t ht (quoted name) rfl

/-- Where two quotes meet, the names that they end and begin are read as one. -/
theorem lex_append_of_quotes (ha : QuotesPaired a) (hb : QuotesPaired b)
    (hlast : a.toList.getLast? = some '"') (hhead : b.toList.head? = some '"') :
    ∃ ts name name' us, lex a = ts ++ [quoted name] ∧ lex b = quoted name' :: us
      ∧ lex (a ++ b) = ts ++ quoted (name ++ "\"" ++ name') :: us ∧ QuotesPaired (a ++ b) := by
  obtain ⟨ts, name, hts⟩ := exists_name_of_getLast? ha hlast
  obtain ⟨name', us, hus⟩ := exists_name_of_head? hb hhead
  have hplain : .char '"' ∉ ts ++ quoted (name ++ "\"" ++ name') :: us := by
    rw [QuotesPaired, hts] at ha
    rw [QuotesPaired, hus] at hb
    simp_all
  have hapart : Apart (ts ++ quoted (name ++ "\"" ++ name') :: us) :=
    Apart.replace (hts ▸ apart_lex a) (hus ▸ apart_lex b) _
  have hchars : (quoted name).chars ++ (quoted name').chars
      = (quoted (name ++ "\"" ++ name')).chars := by
    simp [chars, toList_doubleQuoted, doubledQuotes]
  have happend : (a ++ b).toList = (ts ++ quoted (name ++ "\"" ++ name') :: us).flatMap chars := by
    rw [toList_append_eq, hts, hus]
    simp only [List.flatMap_append, List.flatMap_cons, List.flatMap_nil, List.append_nil,
      List.append_assoc, ← hchars]
  have hlex : lex (a ++ b) = ts ++ quoted (name ++ "\"" ++ name') :: us := by
    rw [lex, happend, read_flatMap_chars hapart hplain]
  exact ⟨ts, name, name', us, hts, hus, hlex, by rwa [QuotesPaired, hlex]⟩

end Token

theorem QuotesPaired.append {a b : String} (ha : QuotesPaired a) (hb : QuotesPaired b) :
    QuotesPaired (a ++ b) := by
  by_cases h : a.toList.getLast? = some '"' → b.toList.head? ≠ some '"'
  · rw [QuotesPaired, Token.lex_append ha hb h]
    exact fun hmem => (List.mem_append.1 hmem).elim ha hb
  · obtain ⟨hlast, hhead⟩ := Classical.not_imp.1 h
    obtain ⟨-, -, -, -, -, -, -, hpaired⟩ :=
      Token.lex_append_of_quotes ha hb hlast (not_not.1 hhead)
    exact hpaired

/-! ### Lexemes -/

/-- A quoted name, a word, or another character that is not blank. -/
inductive Lexeme where
  | quoted (name : String)
  | word (s : String)
  | symbol (c : Char)
  deriving DecidableEq

namespace Lexeme

variable (letters : Char → Bool)

/-- Whether a character belongs to words: a letter, a digit or an underscore. Which characters
outside of ASCII are letters and digits is left open. -/
def isWordChar (c : Char) : Bool :=
  c.isAlphanum || c == '_' || (128 ≤ c.toNat && !Text.isBlank c && letters c)

/-- The word of a run of its characters. -/
def ofRun (run : List Char) : List Lexeme :=
  if run.isEmpty then [] else [word (String.ofList run)]

@[simp] theorem ofRun_nil : ofRun [] = [] := rfl

theorem length_ofRun {run : List Char} (h : run ≠ []) : (ofRun run).length = 1 := by
  simp [ofRun, h]

/-- The character of words that a token is. -/
def wordChar? : Token → Option Char
  | .char c => if isWordChar letters c then some c else none
  | .quoted _ => none

/-- What a token is read as that belongs to no word. -/
def ofToken : Token → List Lexeme
  | .quoted name => [quoted name]
  | .char c => if Text.isBlank c then [] else [symbol c]

/-- Read tokens behind a run of characters of a word. -/
def group (run : List Char) : List Token → List Lexeme
  | [] => ofRun run
  | t :: ts =>
    match wordChar? letters t with
    | some c => group (run ++ [c]) ts
    | none => ofRun run ++ ofToken t ++ group [] ts

/-- The lexemes of a text. -/
def lex (s : String) : List Lexeme := group letters [] (Token.lex s)

/-- The run of characters of a word that tokens end with, another run being before them. -/
def openRun (run : List Char) : List Token → List Char
  | [] => run
  | t :: ts =>
    match wordChar? letters t with
    | some c => openRun (run ++ [c]) ts
    | none => openRun [] ts

/-- What is read before the run that the tokens end with. -/
def closed (run : List Char) : List Token → List Lexeme
  | [] => []
  | t :: ts =>
    match wordChar? letters t with
    | some c => closed (run ++ [c]) ts
    | none => ofRun run ++ ofToken t ++ closed [] ts

variable {letters}

theorem group_append (run : List Char) (ts us : List Token) :
    group letters run (ts ++ us)
      = closed letters run ts ++ group letters (openRun letters run ts) us := by
  induction ts generalizing run with
  | nil => rfl
  | cons t ts ih =>
    simp only [List.cons_append, group, closed, openRun]
    cases wordChar? letters t with
    | some c => exact ih _
    | none => simp only [ih, List.append_assoc]

theorem group_eq (run : List Char) (ts : List Token) :
    group letters run ts = closed letters run ts ++ ofRun (openRun letters run ts) := by
  have happend : group letters run (ts ++ []) = _ := group_append run ts []
  simpa [group] using happend

/-- A run ends before what is no character of words. -/
theorem group_of_head? (run : List Char) {ts : List Token}
    (h : ∀ t ∈ ts.head?, wordChar? letters t = none) :
    group letters run ts = ofRun run ++ group letters [] ts := by
  cases ts with
  | nil => simp [group]
  | cons t ts => simp [group, h t rfl]

/-- How many lexemes there are does not depend on the length of the run before them. -/
theorem length_group_congr {run run' : List Char} (hrun : run ≠ []) (hrun' : run' ≠ [])
    (ts : List Token) : (group letters run ts).length = (group letters run' ts).length := by
  induction ts generalizing run run' with
  | nil => rw [group, group, length_ofRun hrun, length_ofRun hrun']
  | cons t ts ih =>
    unfold group
    split
    · exact ih (by simp) (by simp)
    · simp [length_ofRun hrun, length_ofRun hrun']

/-- A run goes on with the characters of words behind it, and makes one word with them. -/
theorem length_group_of_wordChar? (run : List Char) {t : Token} {c : Char}
    (h : wordChar? letters t = some c) (ts : List Token) :
    (group letters run (t :: ts)).length = (group letters [] (t :: ts)).length := by
  simp only [group, h]
  exact length_group_congr (by simp) (by simp) ts

theorem openRun_concat (run : List Char) (ts : List Token) (t : Token) :
    openRun letters run (ts ++ [t])
      = (wordChar? letters t).elim [] fun c => openRun letters run ts ++ [c] := by
  induction ts generalizing run with
  | nil =>
    simp only [List.nil_append, openRun]
    cases wordChar? letters t <;> rfl
  | cons u us ih =>
    simp only [List.cons_append, openRun]
    cases wordChar? letters u <;> exact ih _

theorem openRun_eq_nil_iff {ts : List Token} :
    openRun letters [] ts = [] ↔ ∀ t ∈ ts.getLast?, wordChar? letters t = none := by
  obtain rfl | ⟨ts, t, rfl⟩ := List.eq_nil_or_concat ts
  · simp [openRun]
  · rw [List.concat_eq_append, openRun_concat, List.getLast?_concat]
    cases h : wordChar? letters t <;> simp [h]

theorem lex_of_not_mem {s : String} (h : '"' ∉ s.toList) :
    lex letters s = group letters [] (s.toList.map .char) := by
  rw [lex, Token.lex_of_not_mem h]

theorem group_map_char {cs : List Char} (h : ∀ c ∈ cs, isWordChar letters c = true)
    (run : List Char) : group letters run (cs.map .char) = ofRun (run ++ cs) := by
  induction cs generalizing run with
  | nil => simp [group]
  | cons c cs ih =>
    obtain ⟨hc, hcs⟩ := List.forall_mem_cons.1 h
    simp [group, wordChar?, hc, ih hcs]

/-- Characters of words are read as one word. -/
theorem lex_of_wordChars {s : String} (hne : s ≠ "")
    (h : ∀ c ∈ s.toList, isWordChar letters c = true) : lex letters s = [.word s] := by
  have hquote : '"' ∉ s.toList := by
    intro hmem
    have hword := h _ hmem
    cases hword
  rw [lex_of_not_mem hquote, group_map_char h]
  simp [ofRun, hne]

theorem symbol_mem_group {c : Char} (hword : isWordChar letters c = false)
    (hblank : Text.isBlank c = false) {ts : List Token} (h : .char c ∈ ts) (run : List Char) :
    .symbol c ∈ group letters run ts := by
  induction ts generalizing run with
  | nil => cases h
  | cons t ts ih =>
    unfold group
    rcases List.mem_cons.1 h with rfl | h
    · simp [wordChar?, hword, ofToken, hblank]
    · split
      · exact ih h _
      · exact List.mem_append_right _ (ih h _)

/-- The quotes of a text are paired if none is read as a symbol. -/
theorem quotesPaired_of_symbol_not_mem {s : String} (h : .symbol '"' ∉ lex letters s) :
    QuotesPaired s :=
  fun hmem => h (symbol_mem_group rfl rfl hmem [])

/-! ### Texts that stick together -/

variable (letters) in
/-- Whether two texts stick together: the first one ends and the second one begins with a quote, or
they do so with characters of words. -/
def sticks (a b : String) : Bool :=
  a.toList.getLast?.any fun x => b.toList.head?.any fun y =>
    (x == '"' && y == '"') || (isWordChar letters x && isWordChar letters y)

@[simp] theorem isWordChar_quote : isWordChar letters '"' = false := rfl

theorem getLast?_eq_none_iff (a : String) :
    (∀ t ∈ (Token.lex a).getLast?, wordChar? letters t = none)
      ↔ ∀ x ∈ a.toList.getLast?, isWordChar letters x = false := by
  rw [Token.getLast?_toList]
  cases (Token.lex a).getLast? with
  | none => simp
  | some t =>
    cases t with
    | quoted name => simp [wordChar?, Token.getLast?_chars]
    | char c => simp [wordChar?, Token.chars]

theorem head?_eq_none_iff (a : String) :
    (∀ t ∈ (Token.lex a).head?, wordChar? letters t = none)
      ↔ ∀ x ∈ a.toList.head?, isWordChar letters x = false := by
  rw [Token.head?_toList]
  cases (Token.lex a).head? with
  | none => simp
  | some t =>
    cases t with
    | quoted name => simp [wordChar?, Token.head?_chars]
    | char c => simp [wordChar?, Token.chars]

variable {a b : String}

theorem sticks_iff : sticks letters a b = true ↔
    (a.toList.getLast? = some '"' ∧ b.toList.head? = some '"')
      ∨ ∃ x ∈ a.toList.getLast?, ∃ y ∈ b.toList.head?,
        isWordChar letters x = true ∧ isWordChar letters y = true := by
  unfold sticks
  cases a.toList.getLast? <;> cases b.toList.head? <;> simp

theorem sticks_eq_false (hquotes : a.toList.getLast? = some '"' → b.toList.head? ≠ some '"')
    (hwords : (∀ x ∈ a.toList.getLast?, isWordChar letters x = false)
      ∨ ∀ y ∈ b.toList.head?, isWordChar letters y = false) : sticks letters a b = false := by
  rw [← Bool.not_eq_true, sticks_iff]
  rintro (⟨hlast, hhead⟩ | ⟨x, hx, y, hy, hxword, hyword⟩)
  · exact hquotes hlast hhead
  · rcases hwords with hwords | hwords
    · simp [hwords x hx] at hxword
    · simp [hwords y hy] at hyword

/-- Texts whose quotes are paired are read one after the other, unless they stick together. -/
theorem lex_append (ha : QuotesPaired a) (hb : QuotesPaired b) (h : sticks letters a b = false) :
    lex letters (a ++ b) = lex letters a ++ lex letters b := by
  have hsticks := sticks_iff.not.1 (Bool.eq_false_iff.1 h)
  rw [not_or, not_and] at hsticks
  have hrun : group letters (openRun letters [] (Token.lex a)) (Token.lex b)
      = ofRun (openRun letters [] (Token.lex a)) ++ lex letters b := by
    by_cases hlast : ∀ t ∈ (Token.lex a).getLast?, wordChar? letters t = none
    · rw [openRun_eq_nil_iff.2 hlast]
      rfl
    · refine group_of_head? _ ((head?_eq_none_iff b).2 fun y hy => ?_)
      rw [getLast?_eq_none_iff] at hlast
      push Not at hlast
      obtain ⟨x, hx, hword⟩ := hlast
      by_contra hy'
      exact hsticks.2 ⟨x, hx, y, hy, by simpa using hword, by simpa using hy'⟩
  rw [lex, Token.lex_append ha hb hsticks.1, group_append, hrun, ← List.append_assoc, ← group_eq]
  rfl

/-- Where two quotes meet, the two names that they end and begin are one lexeme. -/
theorem length_lex_append_of_quotes (ha : QuotesPaired a) (hb : QuotesPaired b)
    (hlast : a.toList.getLast? = some '"') (hhead : b.toList.head? = some '"') :
    (lex letters (a ++ b)).length + 1 = (lex letters a).length + (lex letters b).length := by
  obtain ⟨ts, name, name', us, hts, hus, happend, -⟩ :=
    Token.lex_append_of_quotes ha hb hlast hhead
  simp only [lex, hts, hus, happend, group_append, group, wordChar?, ofToken, ofRun_nil,
    List.length_append, List.length_cons, List.length_nil]
  omega

theorem openRun_ne_nil {x : Char} (hx : x ∈ a.toList.getLast?)
    (hword : isWordChar letters x = true) : openRun letters [] (Token.lex a) ≠ [] := by
  rw [ne_eq, openRun_eq_nil_iff, getLast?_eq_none_iff]
  intro hall
  simp [hall x hx] at hword

theorem exists_wordChar?_of_head? {y : Char} (hy : y ∈ b.toList.head?)
    (hword : isWordChar letters y = true) :
    ∃ t ts c, Token.lex b = t :: ts ∧ wordChar? letters t = some c := by
  have hhead : ¬ ∀ t ∈ (Token.lex b).head?, wordChar? letters t = none :=
    (head?_eq_none_iff b).not.2 fun hall => by simp [hall y hy] at hword
  push Not at hhead
  obtain ⟨t, ht, hne⟩ := hhead
  obtain ⟨ts, hts⟩ := List.head?_eq_some_iff.1 ht
  obtain ⟨c, hc⟩ := Option.ne_none_iff_exists'.1 hne
  exact ⟨t, ts, c, hts, hc⟩

/-- Where two characters of words meet, the two words that they end and begin are one lexeme. -/
theorem length_lex_append_of_wordChars (ha : QuotesPaired a) (hb : QuotesPaired b) {x y : Char}
    (hx : x ∈ a.toList.getLast?) (hxword : isWordChar letters x = true)
    (hy : y ∈ b.toList.head?) (hyword : isWordChar letters y = true) :
    (lex letters (a ++ b)).length + 1 = (lex letters a).length + (lex letters b).length := by
  have hquotes : a.toList.getLast? = some '"' → b.toList.head? ≠ some '"' := by
    intro hquote
    rw [hx] at hquote
    cases hquote
    simp at hxword
  obtain ⟨t, us, c, hus, hc⟩ := exists_wordChar?_of_head? hy hyword
  have hfirst : (lex letters a).length = (closed letters [] (Token.lex a)).length + 1 := by
    rw [lex, group_eq, List.length_append, length_ofRun (openRun_ne_nil hx hxword)]
  rw [hfirst, lex, Token.lex_append ha hb hquotes, group_append, lex, hus, List.length_append,
    length_group_of_wordChar? _ hc]
  omega

/-- Texts that stick together have one lexeme in common, and other texts have none. -/
theorem length_lex_append (ha : QuotesPaired a) (hb : QuotesPaired b) :
    (lex letters (a ++ b)).length + (sticks letters a b).toNat
      = (lex letters a).length + (lex letters b).length := by
  cases h : sticks letters a b with
  | false => rw [lex_append ha hb h, List.length_append, Bool.toNat_false, Nat.add_zero]
  | true =>
    rcases sticks_iff.1 h with ⟨hlast, hhead⟩ | ⟨x, hx, y, hy, hxword, hyword⟩
    · exact length_lex_append_of_quotes ha hb hlast hhead
    · exact length_lex_append_of_wordChars ha hb hx hxword hy hyword

theorem sticks_append_left {o r : String} (ho : o ≠ "") (l : String) :
    sticks letters (l ++ o) r = sticks letters o r := by
  have ho : o.toList ≠ [] := by simpa using ho
  rw [sticks, String.toList_append, List.getLast?_append_of_ne_nil _ ho, sticks]

/-- A text before one that begins with a symbol is read apart from it. -/
theorem lex_append_of_head? (ha : QuotesPaired a) (hb : QuotesPaired b) {c : Char}
    (h : b.toList.head? = some c) (hquote : c ≠ '"') (hword : isWordChar letters c = false) :
    lex letters (a ++ b) = lex letters a ++ lex letters b := by
  refine lex_append ha hb (sticks_eq_false (fun _ hhead => ?_) (.inr fun y hy => ?_))
  · exact hquote (Option.some.inj (h.symm.trans hhead))
  · rwa [← Option.some.inj (h.symm.trans hy)]

/-- A text behind one that ends with a symbol is read apart from it. -/
theorem lex_append_of_getLast? (ha : QuotesPaired a) (hb : QuotesPaired b) {c : Char}
    (h : a.toList.getLast? = some c) (hquote : c ≠ '"') (hword : isWordChar letters c = false) :
    lex letters (a ++ b) = lex letters a ++ lex letters b := by
  refine lex_append ha hb (sticks_eq_false (fun hlast _ => ?_) (.inl fun x hx => ?_))
  · exact hquote (Option.some.inj (h.symm.trans hlast))
  · rwa [← Option.some.inj (h.symm.trans hx)]

variable (letters) in
/-- Whether three texts that stand one behind the other are read one after the other. -/
def ReadApart (l o r : String) : Prop :=
  lex letters (l ++ o ++ r) = lex letters l ++ lex letters o ++ lex letters r

/-- Texts whose quotes are paired, the middle one not being empty, are read one after the other
exactly if neither of the outer ones sticks to the middle one. -/
theorem readApart_iff {l o r : String} (hl : QuotesPaired l) (ho : QuotesPaired o)
    (hr : QuotesPaired r) (hne : o ≠ "") :
    ReadApart letters l o r ↔ sticks letters l o = false ∧ sticks letters o r = false := by
  have hlo := hl.append ho
  rw [← sticks_append_left hne l]
  constructor
  · intro h
    have hlength := congrArg List.length h
    simp only [List.length_append] at hlength
    -- the whole has as many lexemes as the parts, so nothing is lost at either place
    have hleft : _ + (sticks letters l o).toNat = _ := length_lex_append hl ho
    have hright : _ + (sticks letters (l ++ o) r).toNat = _ := length_lex_append hlo hr
    exact ⟨Bool.toNat_eq_zero.1 (by omega), Bool.toNat_eq_zero.1 (by omega)⟩
  · rintro ⟨hleft, hright⟩
    rw [ReadApart, lex_append hlo hr hright, lex_append hl ho hleft]

/-- A text without quotes is read apart from what stands around it if at both of its ends no two
characters of words meet. -/
theorem readApart_of_not_mem {l o r : String} (hl : QuotesPaired l) (ho : '"' ∉ o.toList)
    (hr : QuotesPaired r) (hne : o ≠ "")
    (hleft : (∀ x ∈ l.toList.getLast?, isWordChar letters x = false)
      ∨ ∀ y ∈ o.toList.head?, isWordChar letters y = false)
    (hright : (∀ x ∈ o.toList.getLast?, isWordChar letters x = false)
      ∨ ∀ y ∈ r.toList.head?, isWordChar letters y = false) : ReadApart letters l o r := by
  refine (readApart_iff hl (quotesPaired_of_not_mem ho) hr hne).2 ⟨?_, ?_⟩
  · exact sticks_eq_false (fun _ hhead => ho (List.mem_of_head? hhead)) hleft
  · exact sticks_eq_false (fun hlast => absurd (List.mem_of_getLast? hlast) ho) hright

end Lexeme

end SqlAssembly
