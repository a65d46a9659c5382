import SqlAssembly.Proofs.Lexemes

/-!
# Expressions with casts

A small language of SQL expressions: words, numbers, quoted names and parentheses, the left
associative `*` and `+`, and casts, written `CAST(e AS t)` or behind an operand as `e::t`, which
binds tighter than both operators. The grammar is a relation between lexemes and expressions
(`Derives`); lexemes derive one expression at most (`Derives.unique`), the one that a reader with a
stack finds (`Derives.parse_eq`).
-/

namespace SqlAssembly

/-! ### The grammar -/

/-- An expression, with its parentheses. -/
inductive Expression where
  | word (s : String)
  /-- A number, with the digits behind its point. -/
  | number (whole : String) (fraction? : Option String)
  | quoted (name : String)
  | paren (e : Expression)
  | add (l r : Expression)
  | mul (l r : Expression)
  | cast (e : Expression) (type : String)
  deriving DecidableEq

/-- Whether a word of lexemes is a name: it begins with no digit. -/
def isNameWord (s : String) : Bool := s.toList.head?.any fun c => !c.isDigit

/-- Whether a word of lexemes consists of digits. -/
def isDigitWord (s : String) : Bool := !s.toList.isEmpty && s.toList.all Char.isDigit

/-- How tightly the outermost operator of an expression binds. -/
inductive Level where
  | operand
  | product
  | sum

/-- The expressions that lexemes derive, level by level. -/
inductive Derives : Level → List Lexeme → Expression → Prop
  | word {s : String} (hs : isNameWord s = true) : Derives .operand [.word s] (.word s)
  | integer {s : String} (hs : isDigitWord s = true) : Derives .operand [.word s] (.number s none)
  | decimal {s t : String} (hs : isDigitWord s = true) (ht : isDigitWord t = true) :
      Derives .operand [.word s, .symbol '.', .word t] (.number s (some t))
  | quoted (name : String) : Derives .operand [.quoted name] (.quoted name)
  | paren {ts : List Lexeme} {e : Expression} (h : Derives .sum ts e) :
      Derives .operand (.symbol '(' :: (ts ++ [.symbol ')'])) (.paren e)
  | castCall {ts : List Lexeme} {e : Expression} {cast as type : String}
      (hcast : Text.isKeyword "CAST" cast.toList = true)
      (has : Text.isKeyword "AS" as.toList = true) (htype : isNameWord type = true)
      (h : Derives .sum ts e) :
      Derives .operand
        (.word cast :: .symbol '(' :: (ts ++ [.word as, .word type, .symbol ')'])) (.cast e type)
  | castSuffix {ts : List Lexeme} {e : Expression} {type : String}
      (htype : isNameWord type = true) (h : Derives .operand ts e) :
      Derives .operand (ts ++ [.symbol ':', .symbol ':', .word type]) (.cast e type)
  | ofOperand {ts : List Lexeme} {e : Expression} (h : Derives .operand ts e) :
      Derives .product ts e
  | mul {ts us : List Lexeme} {l r : Expression} (hl : Derives .product ts l)
      (hr : Derives .operand us r) : Derives .product (ts ++ .symbol '*' :: us) (.mul l r)
  | ofProduct {ts : List Lexeme} {e : Expression} (h : Derives .product ts e) :
      Derives .sum ts e
  | add {ts us : List Lexeme} {l r : Expression} (hl : Derives .sum ts l)
      (hr : Derives .product us r) : Derives .sum (ts ++ .symbol '+' :: us) (.add l r)

/-! ### Reading with a stack -/

/-- What is open while an expression is read. -/
inductive Frame where
  | plus (l : Expression)
  | times (l : Expression)
  | paren
  | call

/-- Where in an expression the reader is. -/
inductive Mode where
  /-- Before an operand. -/
  | operand
  | behind (e : Expression)
  /-- Behind the point of a number. -/
  | fraction (whole : String)
  /-- Behind one colon. -/
  | colon (e : Expression)
  /-- Behind two colons. -/
  | type (e : Expression)
  /-- Behind `AS`. -/
  | callType (e : Expression)
  /-- Before the parenthesis that ends a call. -/
  | callEnd (e : Expression) (type : String)

/-- A mode and what is open, the innermost first. -/
abbrev Reader := Mode × List Frame

namespace Reader

/-- Close a product behind its last operand. -/
def closeProduct (e : Expression) : List Frame → Expression × List Frame
  | .times l :: fs => (.mul l e, fs)
  | fs => (e, fs)

/-- Close a sum behind its last operand. -/
def closeSum (e : Expression) (fs : List Frame) : Expression × List Frame :=
  match closeProduct e fs with
  | (p, .plus l :: fs) => (.add l p, fs)
  | (p, fs) => (p, fs)

/-- Close all that a level can end, behind the last operand of an expression. -/
def close : Level → Expression → List Frame → Expression × List Frame
  | .operand, e, fs => (e, fs)
  | .product, e, fs => closeProduct e fs
  | .sum, e, fs => closeSum e fs

/-- Read a symbol behind an operand. -/
def stepSymbol (e : Expression) (fs : List Frame) (c : Char) : Option Reader :=
  match c with
  | '*' => let (p, fs) := closeProduct e fs; some (.operand, .times p :: fs)
  | '+' => let (s, fs) := closeSum e fs; some (.operand, .plus s :: fs)
  | ':' => some (.colon e, fs)
  | ')' =>
    match closeSum e fs with
    | (s, .paren :: fs) => some (.behind (.paren s), fs)
    | _ => none
  | '(' =>
    match e with
    | .word s => if Text.isKeyword "CAST" s.toList then some (.operand, .call :: fs) else none
    | _ => none
  | '.' =>
    match e with
    | .number whole none => some (.fraction whole, fs)
    | _ => none
  | _ => none

/-- Read a word as an operand. -/
def stepWord (fs : List Frame) (s : String) : Option Reader :=
  if isNameWord s then some (.behind (.word s), fs)
  else if isDigitWord s then some (.behind (.number s none), fs)
  else none

/-- Read a word behind an operand. -/
def stepAs (e : Expression) (fs : List Frame) (s : String) : Option Reader :=
  if Text.isKeyword "AS" s.toList then
    match closeSum e fs with
    | (e, .call :: fs) => some (.callType e, fs)
    | _ => none
  else none

/-- Read a lexeme. -/
def step : Reader → Lexeme → Option Reader
  | (.operand, fs), .word s => stepWord fs s
  | (.operand, fs), .quoted name => some (.behind (.quoted name), fs)
  | (.operand, fs), .symbol '(' => some (.operand, .paren :: fs)
  | (.behind e, fs), .symbol c => stepSymbol e fs c
  | (.behind e, fs), .word s => stepAs e fs s
  | (.fraction whole, fs), .word s =>
    if isDigitWord s then some (.behind (.number whole (some s)), fs) else none
  | (.colon e, fs), .symbol ':' => some (.type e, fs)
  | (.type e, fs), .word s => if isNameWord s then some (.behind (.cast e s), fs) else none
  | (.callType e, fs), .word s => if isNameWord s then some (.callEnd e s, fs) else none
  | (.callEnd e type, fs), .symbol ')' => some (.behind (.cast e type), fs)
  | _, _ => none

/-- Read lexemes. -/
def run (r : Reader) (ts : List Lexeme) : Option Reader := ts.foldlM step r

@[simp] theorem run_nil (r : Reader) : run r [] = some r := rfl

@[simp] theorem run_cons (r : Reader) (t : Lexeme) (ts : List Lexeme) :
    run r (t :: ts) = (step r t).bind (run · ts) := rfl

@[simp] theorem run_append (r : Reader) (ts us : List Lexeme) :
    run r (ts ++ us) = (run r ts).bind (run · us) :=
  List.foldlM_append

end Reader

/-- The expression that lexemes are read as, if they are one. -/
def Expression.parse (ts : List Lexeme) : Option Expression :=
  match Reader.run (.operand, []) ts with
  | some (.behind v, fs) =>
    match Reader.closeSum v fs with
    | (e, []) => some e
    | _ => none
  | _ => none

/-! ### The reader finds what is derived -/

theorem isNameWord_eq_false {s : String} (h : isDigitWord s = true) : isNameWord s = false := by
  unfold isDigitWord at h
  unfold isNameWord
  cases hs : s.toList with
  | nil => rfl
  | cons c cs => simp_all

theorem toLower_of_isDigit {c : Char} (h : c.isDigit = true) : c.toLower = c := by
  simp only [Char.isDigit, Bool.and_eq_true, decide_eq_true_eq] at h
  unfold Char.toLower
  rw [dif_neg]
  rintro ⟨hupper, -⟩
  exact absurd (UInt32.le_trans hupper h.2) (by decide)

theorem isNameWord_of_isKeyword {s : String} (h : Text.isKeyword "CAST" s.toList = true) :
    isNameWord s = true := by
  have h : s.toList.map Char.toLower = ['c', 'a', 's', 't'] := by simpa [Text.isKeyword] using h
  obtain ⟨c, cs, hs, hc, -⟩ := List.map_eq_cons_iff.1 h
  rw [isNameWord, hs, List.head?_cons, Option.any_some, Bool.not_eq_true']
  by_contra hdigit
  rw [Bool.not_eq_false] at hdigit
  rw [toLower_of_isDigit hdigit] at hc
  rw [hc] at hdigit
  cases hdigit

/-- Nothing is open that a level can end. -/
def Level.Free : Level → List Frame → Prop
  | .operand, _ => True
  | .product, fs => ∀ l, fs.head? ≠ some (.times l)
  | .sum, fs => ∀ l, fs.head? ≠ some (.times l) ∧ fs.head? ≠ some (.plus l)

namespace Reader

theorem closeProduct_of_free {fs : List Frame} (h : Level.product.Free fs) (e : Expression) :
    closeProduct e fs = (e, fs) := by
  unfold closeProduct
  split
  · rename_i l fs
    exact absurd rfl (h l)
  · rfl

theorem closeSum_of_closeProduct {fs fs' : List Frame} {v e : Expression}
    (h : closeProduct v fs' = (e, fs)) (hfree : Level.sum.Free fs) : closeSum v fs' = (e, fs) := by
  unfold closeSum
  rw [h]
  split
  · rename_i p l fs heq
    obtain ⟨-, rfl⟩ := Prod.mk.inj heq
    exact absurd rfl (hfree l).2
  · rename_i p fs _ heq
    exact heq.symm

end Reader

open Reader in
/-- Behind lexemes that derive an expression the reader has the expression but for what its level
can still end. -/
theorem Derives.run_eq {l : Level} {ts : List Lexeme} {e : Expression} (h : Derives l ts e)
    (fs : List Frame) (hfree : l.Free fs) :
    ∃ v fs', run (.operand, fs) ts = some (.behind v, fs') ∧ close l v fs' = (e, fs) := by
  induction h generalizing fs with
  | word hs => exact ⟨_, fs, by simp [step, stepWord, hs], rfl⟩
  | integer hs => exact ⟨_, fs, by simp [step, stepWord, hs, isNameWord_eq_false hs], rfl⟩
  | decimal hs ht =>
    exact ⟨_, fs, by simp [step, stepWord, stepSymbol, hs, ht, isNameWord_eq_false hs], rfl⟩
  | quoted name => exact ⟨_, fs, by simp [step], rfl⟩
  | @paren ts e h ih =>
    obtain ⟨v, fs', hrun, hclose⟩ := ih (.paren :: fs) (by simp [Level.Free])
    refine ⟨.paren e, fs, ?_, rfl⟩
    rw [close] at hclose
    simp [step, hrun, stepSymbol, hclose]
  | @castCall ts e cast as type hcast has htype h ih =>
    obtain ⟨v, fs', hrun, hclose⟩ := ih (.call :: fs) (by simp [Level.Free])
    refine ⟨.cast e type, fs, ?_, rfl⟩
    rw [close] at hclose
    simp [step, stepWord, isNameWord_of_isKeyword hcast, stepSymbol, hcast, hrun, stepAs, has,
      hclose, htype]
  | @castSuffix ts e type htype h ih =>
    obtain ⟨v, fs', hrun, hclose⟩ := ih fs hfree
    obtain ⟨rfl, rfl⟩ := Prod.mk.inj hclose
    exact ⟨.cast v type, fs', by simp [hrun, step, stepSymbol, htype], rfl⟩
  | @ofOperand ts e h ih =>
    obtain ⟨v, fs', hrun, hclose⟩ := ih fs trivial
    obtain ⟨rfl, rfl⟩ := Prod.mk.inj hclose
    exact ⟨v, fs', hrun, closeProduct_of_free hfree v⟩
  | @mul ts us l r hl hr ihl ihr =>
    obtain ⟨v, fs', hrun, hclose⟩ := ihl fs hfree
    obtain ⟨w, fs'', hrun', hclose'⟩ := ihr (.times l :: fs) trivial
    obtain ⟨rfl, rfl⟩ := Prod.mk.inj hclose'
    rw [close] at hclose
    exact ⟨w, .times l :: fs, by simp [hrun, step, stepSymbol, hclose, hrun'], rfl⟩
  | @ofProduct ts e h ih =>
    obtain ⟨v, fs', hrun, hclose⟩ := ih fs fun l => (hfree l).1
    exact ⟨v, fs', hrun, closeSum_of_closeProduct hclose hfree⟩
  | @add ts us l r hl hr ihl ihr =>
    obtain ⟨v, fs', hrun, hclose⟩ := ihl fs hfree
    obtain ⟨w, fs'', hrun', hclose'⟩ := ihr (.plus l :: fs) (by simp [Level.Free])
    simp only [close] at hclose hclose'
    refine ⟨w, fs'', by simp [hrun, step, stepSymbol, hclose, hrun'], ?_⟩
    simp only [close, closeSum, hclose']

/-- What lexemes derive is what they are read as. -/
theorem Derives.parse_eq {ts : List Lexeme} {e : Expression} (h : Derives .sum ts e) :
    Expression.parse ts = some e := by
  obtain ⟨v, fs, hrun, hclose⟩ := h.run_eq [] (by simp [Level.Free])
  rw [Reader.close] at hclose
  simp [Expression.parse, hrun, hclose]

/-- Lexemes derive one expression at most. -/
theorem Derives.unique {ts : List Lexeme} {e e' : Expression} (h : Derives .sum ts e)
    (h' : Derives .sum ts e') : e = e' :=
  Option.some.inj (h.parse_eq.symm.trans h'.parse_eq)

end SqlAssembly
