import SqlAssembly.Proofs.DelimitedText
import SqlAssembly.Proofs.References

/-!
# What the SQL of unions is made of

The SQL of a bare union is a list of tokens, each behind a blank: selects from one table, the
keywords between them, limits and offsets. Under a dialect whose quoted names can be told apart
(`Dialect.Readable`) the tokens can be read back from it (`UnionToken.spaced_inj`).
-/

namespace SqlAssembly

variable {d : Dialect}

/-! ### Tokens -/

/-- A select from one table. No columns stand for all of them. -/
structure TableSelect where
  columns : List String := []
  schema : Option String := none
  table : String
  deriving DecidableEq

/-- Texts, each behind a blank. -/
def spaced (texts : List String) : String := String.join (texts.map (" " ++ ·))

@[simp] theorem spaced_nil : spaced [] = "" := rfl

@[simp] theorem spaced_cons (s : String) (ss : List String) :
    spaced (s :: ss) = " " ++ s ++ spaced ss := by
  simp [spaced]

@[simp] theorem spaced_append (ss ts : List String) :
    spaced (ss ++ ts) = spaced ss ++ spaced ts := by
  simp [spaced]

theorem spaced_eq {ss : List String} (h : ss ≠ []) :
    spaced ss = " " ++ String.intercalate " " ss := by
  induction ss with
  | nil => exact absurd rfl h
  | cons s ss ih =>
    by_cases hss : ss = []
    · simp [hss]
    · rw [spaced_cons, ih hss, String.intercalate_cons_of_ne_nil hss]
      simp only [String.append_assoc]

/-- What the SQL of a tree is made of. -/
inductive UnionToken where
  | select (s : TableSelect)
  | keyword (kind : UnionKind)
  /-- A limit, or none of all rows. -/
  | limit (rows : Option Int)
  | offset (rows : Int)
  deriving DecidableEq

namespace TableSelect

/-- The columns that are listed, or `*` behind the table. -/
def listText (d : Dialect) (s : TableSelect) : String :=
  match s.columns with
  | [] => d.pathText s.schema s.table ++ ".*"
  | columns => String.intercalate "," (columns.map fun c => (SqlName.name c).textBehind d none)

def text (d : Dialect) (s : TableSelect) : String :=
  "SELECT " ++ s.listText d ++ " FROM " ++ d.pathText s.schema s.table

end TableSelect

namespace UnionToken

def text (d : Dialect) : UnionToken → String
  | select s => s.text d
  | keyword kind => kind.keyword
  | limit none => "LIMIT ALL"
  | limit (some rows) => "LIMIT " ++ toString rows
  | offset rows => "OFFSET " ++ toString rows

/-- The limit and the offset. All negative limits are the same. -/
def page (limit? offset? : Option Int64) : List UnionToken :=
  (limit?.map fun n => limit (if n < 0 then none else some n.toInt)).toList
    ++ (offset?.map fun n => offset n.toInt).toList

end UnionToken

/-! ### Reading tokens -/

/-- What can follow a name: nothing, or what separates names. -/
def NameEnd (s : List Char) : Prop := ∀ c ∈ s.head?, c = '.' ∨ c = ',' ∨ c = ' '

/-- Quoted names can be told apart before what can follow them, and are not taken for `*`. -/
structure Dialect.Readable (d : Dialect) : Prop where
  delimited : Delimited NameEnd d.quoteIdentifier
  star : ∀ name, (d.quoteIdentifier name).toList.head? ≠ some '*'

theorem Dialect.readable_of_doubleQuoted (h : d.quoteIdentifier = doubleQuoted) : d.Readable := by
  constructor
  · rw [h]
    refine delimited_doubleQuoted.mono fun s hs hquote => ?_
    obtain h | h | h := hs '"' hquote <;> cases h
  · intro name
    rw [h, toList_doubleQuoted, List.head?_cons]
    decide

/-- What can follow a table: what can follow a name, but no further name. -/
def PathEnd (s : List Char) : Prop := NameEnd s ∧ ∀ r, s = '.' :: r → r.head? = some '*'

/-- What can follow a token: nothing, or a blank and a token that does not begin with `ALL`. -/
def TokenEnd (s : List Char) : Prop := s = [] ∨ ∃ c r, s = ' ' :: c :: r ∧ c ≠ 'A'

theorem TokenEnd.pathEnd {s : List Char} (h : TokenEnd s) : PathEnd s := by
  obtain rfl | ⟨c, r, rfl, -⟩ := h
  · exact ⟨by simp [NameEnd], by simp⟩
  · exact ⟨by simp [NameEnd], by simp⟩

theorem TokenEnd.noDigit {s : List Char} (h : TokenEnd s) : NoDigit s := by
  obtain rfl | ⟨c, r, rfl, -⟩ := h
  · simp [NoDigit]
  · intro c' hc'
    cases hc'
    decide

namespace Dialect.Readable

variable (hd : d.Readable)
include hd

theorem head?_ne_star (name : String) {s : List Char} (hs : NameEnd s) :
    ((d.quoteIdentifier name).toList ++ s).head? ≠ some '*' := by
  intro h
  cases hname : (d.quoteIdentifier name).toList with
  | nil =>
    rw [hname, List.nil_append] at h
    obtain h | h | h := hs '*' h <;> cases h
  | cons c cs =>
    rw [hname] at h
    have hstar := hd.star name
    rw [hname] at hstar
    exact hstar h

/-- A table can be told apart from what follows it, whether it has a schema or not. -/
theorem delimited_path :
    Delimited PathEnd fun p : Option String × String => d.pathText p.1 p.2 := by
  -- A table without a schema is not the schema of another table.
  have hapart (x schema y : String) (s t : List Char) (hs : PathEnd s) (ht : PathEnd t) :
      (d.quoteIdentifier x).toList ++ s
        ≠ (d.quoteIdentifier schema).toList ++ '.' :: ((d.quoteIdentifier y).toList ++ t) := by
    intro h
    obtain ⟨-, hrest⟩ := hd.delimited _ _ _ _ hs.1 (by simp [NameEnd]) h
    exact hd.head?_ne_star y ht.1 (hs.2 _ hrest)
  rintro ⟨schema, x⟩ ⟨schema', y⟩ s t hs ht h
  cases schema with
  | none =>
    cases schema' with
    | none =>
      obtain ⟨rfl, rfl⟩ := hd.delimited _ _ _ _ hs.1 ht.1 h
      exact ⟨rfl, rfl⟩
    | some schema' =>
      refine absurd ?_ (hapart x schema' y s t hs ht)
      simpa [pathText, String.toList_append] using h
  | some schema =>
    cases schema' with
    | none =>
      refine absurd ?_ (hapart y schema x t s ht hs)
      simpa [pathText, String.toList_append] using h.symm
    | some schema' =>
      have hpath : (d.quoteIdentifier schema).toList ++ '.' :: ((d.quoteIdentifier x).toList ++ s)
          = (d.quoteIdentifier schema').toList ++ '.' :: ((d.quoteIdentifier y).toList ++ t) := by
        simpa [pathText, String.toList_append] using h
      obtain ⟨rfl, hrest⟩ := hd.delimited _ _ _ _ (by simp [NameEnd]) (by simp [NameEnd]) hpath
      obtain ⟨rfl, rfl⟩ := hd.delimited _ _ _ _ hs.1 ht.1 (List.cons.inj hrest).2
      exact ⟨rfl, rfl⟩

theorem delimited_column :
    Delimited NameEnd fun c => (SqlName.name c).textBehind d none := by
  intro x y s t hs ht h
  simp only [SqlName.textBehind] at h
  by_cases hx : x = "*"
  · by_cases hy : y = "*"
    · rw [if_pos hx, if_pos hy] at h
      exact ⟨hx.trans hy.symm, List.append_cancel_left h⟩
    · rw [if_pos hx, if_neg hy] at h
      exact absurd (congrArg List.head? h.symm) (hd.head?_ne_star y ht)
  · by_cases hy : y = "*"
    · rw [if_neg hx, if_pos hy] at h
      exact absurd (congrArg List.head? h) (hd.head?_ne_star x hs)
    · rw [if_neg hx, if_neg hy] at h
      exact hd.delimited x y s t hs ht h

end Dialect.Readable

/-- The characters of columns, each behind a comma. -/
def columnChars (d : Dialect) (cs : List String) : List Char :=
  cs.flatMap fun c => ',' :: ((SqlName.name c).textBehind d none).toList

theorem nameEnd_columnChars {cs : List String} {s : List Char} (hs : s.head? = some ' ') :
    ∀ c ∈ (columnChars d cs ++ s).head?, c = ',' ∨ c = ' ' := by
  cases cs with
  | nil =>
    intro c hc
    rw [columnChars, List.flatMap_nil, List.nil_append, hs] at hc
    exact .inr (Option.some.inj hc).symm
  | cons c cs => simp [columnChars]

theorem TableSelect.toList_listText (s : TableSelect) :
    (s.listText d).toList = match s.columns with
      | [] => (d.pathText s.schema s.table).toList ++ ['.', '*']
      | c :: cs => ((SqlName.name c).textBehind d none).toList ++ columnChars d cs := by
  rw [listText]
  cases s.columns with
  | nil => simp
  | cons c cs =>
    rw [String.toList_intercalate, List.map_map]
    induction cs generalizing c with
    | nil => simp [columnChars]
    | cons c' cs ih =>
      have ih := ih c'
      simp only [List.map_cons, Function.comp_apply, List.intercalate_cons_cons] at ih ⊢
      rw [ih]
      simp [columnChars]

namespace Dialect.Readable

variable (hd : d.Readable)
include hd

theorem columnChars_append_inj {cs cs' : List String} {s t : List Char} (hs : s.head? = some ' ')
    (ht : t.head? = some ' ') (h : columnChars d cs ++ s = columnChars d cs' ++ t) :
    cs = cs' ∧ s = t := by
  induction cs generalizing cs' with
  | nil =>
    cases cs' with
    | nil => exact ⟨rfl, h⟩
    | cons c' cs' =>
      have h : s = ',' :: _ := h
      rw [h] at hs
      cases hs
  | cons c cs ih =>
    cases cs' with
    | nil =>
      have h : ',' :: _ = t := h
      rw [← h] at ht
      cases ht
    | cons c' cs' =>
      have hcolumns : ((SqlName.name c).textBehind d none).toList ++ (columnChars d cs ++ s)
          = ((SqlName.name c').textBehind d none).toList ++ (columnChars d cs' ++ t) := by
        simpa [columnChars] using h
      obtain ⟨rfl, hrest⟩ := hd.delimited_column _ _ _ _
        (fun c hc => .inr (nameEnd_columnChars hs c hc))
        (fun c hc => .inr (nameEnd_columnChars ht c hc)) hcolumns
      obtain ⟨rfl, rfl⟩ := ih hrest
      exact ⟨rfl, rfl⟩

/-- A list of columns is not taken for the columns of a table. -/
theorem columns_ne_star {p : Option String × String} {c : String} {cs : List String}
    {s t : List Char} (ht : t.head? = some ' ') :
    (d.pathText p.1 p.2).toList ++ '.' :: s
      ≠ ((SqlName.name c).textBehind d none).toList ++ (columnChars d cs ++ t) := by
  intro h
  have hend : ∀ c' ∈ (columnChars d cs ++ t).head?, c' = ',' ∨ c' = ' ' := nameEnd_columnChars ht
  obtain ⟨x, rest, hx⟩ : ∃ x rest, (d.pathText p.1 p.2).toList ++ '.' :: s
      = (d.quoteIdentifier x).toList ++ '.' :: rest := by
    obtain ⟨schema, table⟩ := p
    cases schema with
    | none => exact ⟨table, s, rfl⟩
    | some schema =>
      exact ⟨schema, (d.quoteIdentifier table).toList ++ '.' :: s,
        by simp [pathText, String.toList_append]⟩
  rw [hx] at h
  simp only [SqlName.textBehind] at h
  by_cases hc : c = "*"
  · rw [if_pos hc] at h
    exact hd.head?_ne_star x (by simp [NameEnd]) (congrArg List.head? h)
  · rw [if_neg hc] at h
    obtain ⟨-, hrest⟩ := hd.delimited _ _ _ _ (by simp [NameEnd])
      (fun c hc => .inr (hend c hc)) h
    rw [← hrest] at hend
    obtain h | h := hend '.' rfl <;> cases h

/-- A select from one table can be told apart from what follows it. -/
theorem delimited_tableSelect : Delimited TokenEnd (TableSelect.text d) := by
  rintro ⟨columns, schema, table⟩ ⟨columns', schema', table'⟩ s t hs ht h
  have hpath (huv : " FROM ".toList ++ ((d.pathText schema table).toList ++ s)
      = " FROM ".toList ++ ((d.pathText schema' table').toList ++ t)) :
      schema = schema' ∧ table = table' ∧ s = t := by
    obtain ⟨hpath, rfl⟩ := hd.delimited_path (schema, table) (schema', table') s t hs.pathEnd
      ht.pathEnd (List.append_cancel_left huv)
    cases hpath
    exact ⟨rfl, rfl, rfl⟩
  have hlist : (TableSelect.listText d ⟨columns, schema, table⟩).toList
        ++ (" FROM ".toList ++ ((d.pathText schema table).toList ++ s))
      = (TableSelect.listText d ⟨columns', schema', table'⟩).toList
        ++ (" FROM ".toList ++ ((d.pathText schema' table').toList ++ t)) := by
    simp only [TableSelect.text, String.toList_append, List.append_assoc] at h
    exact List.append_cancel_left h
  rw [TableSelect.toList_listText, TableSelect.toList_listText] at hlist
  cases columns with
  | nil =>
    cases columns' with
    | nil =>
      simp only [List.append_assoc] at hlist
      obtain ⟨-, hrest⟩ := hd.delimited_path (schema, table) (schema', table') _ _
        ⟨by simp [NameEnd], by simp⟩ ⟨by simp [NameEnd], by simp⟩ hlist
      obtain ⟨rfl, rfl, rfl⟩ := hpath (List.append_cancel_left hrest)
      exact ⟨rfl, rfl⟩
    | cons c cs =>
      simp only [List.append_assoc] at hlist
      exact absurd hlist (hd.columns_ne_star (p := (schema, table)) rfl)
  | cons c cs =>
    cases columns' with
    | nil =>
      simp only [List.append_assoc] at hlist
      exact absurd hlist.symm (hd.columns_ne_star (p := (schema', table')) rfl)
    | cons c' cs' =>
      simp only [List.append_assoc] at hlist
      have hend (u : List Char) : (" FROM ".toList ++ u).head? = some ' ' := rfl
      obtain ⟨rfl, hrest⟩ := hd.delimited_column _ _ _ _
        (fun c hc => .inr (nameEnd_columnChars (hend _) c hc))
        (fun c hc => .inr (nameEnd_columnChars (hend _) c hc)) hlist
      obtain ⟨rfl, hfrom⟩ := hd.columnChars_append_inj (hend _) (hend _) hrest
      obtain ⟨rfl, rfl, rfl⟩ := hpath hfrom
      exact ⟨rfl, rfl⟩

end Dialect.Readable

namespace UnionToken

/-- The first character of a token. -/
def initial : UnionToken → Char
  | select _ => 'S'
  | keyword _ => 'U'
  | limit _ => 'L'
  | offset _ => 'O'

theorem exists_toList_text (k : UnionToken) : ∃ cs, (k.text d).toList = k.initial :: cs := by
  match k with
  | select s =>
    refine ⟨"ELECT ".toList ++ ((s.listText d).toList ++ (" FROM ".toList
      ++ (d.pathText s.schema s.table).toList)), ?_⟩
    simp [text, TableSelect.text, initial]
  | keyword .distinct => exact ⟨"NION".toList, by simp [text, UnionKind.keyword, initial]⟩
  | keyword .all => exact ⟨"NION ALL".toList, by simp [text, UnionKind.keyword, initial]⟩
  | limit none => exact ⟨"IMIT ALL".toList, by simp [text, initial]⟩
  | limit (some n) => exact ⟨"IMIT ".toList ++ (toString n).toList, by simp [text, initial]⟩
  | offset n => exact ⟨"FFSET ".toList ++ (toString n).toList, by simp [text, initial]⟩

/-- A token can be told apart from what follows it. -/
theorem delimited_text (hd : d.Readable) : Delimited TokenEnd (text d) := by
  -- The number of rows is not taken for the word that stands for all of them.
  have hall (n : Int) (s t : List Char) : "ALL".toList ++ s ≠ (toString n).toList ++ t := by
    intro h
    obtain ⟨c, cs, hcs, hc⟩ := exists_toList_toString_int n
    rw [hcs] at h
    obtain rfl : 'A' = c := (List.cons.inj h).1
    obtain hc | hc := hc <;> cases hc
  -- What follows a `UNION` does not make it a `UNION ALL`.
  have hunion (s t : List Char) (hs : TokenEnd s) :
      "UNION".toList ++ s ≠ "UNION ALL".toList ++ t := by
    intro h
    have h : "UNION".toList ++ s = "UNION".toList ++ (" ALL".toList ++ t) := h
    have h := List.append_cancel_left h
    obtain rfl | ⟨c, r, rfl, hc⟩ := hs
    · cases h
    · exact hc (List.cons.inj (List.cons.inj h).2).1
  intro a b s t hs ht h
  have hinitial : a.initial = b.initial := by
    obtain ⟨cs, hcs⟩ := exists_toList_text (d := d) a
    obtain ⟨cs', hcs'⟩ := exists_toList_text (d := d) b
    rw [hcs, hcs'] at h
    exact (List.cons.inj h).1
  match a, b with
  | select a, select b =>
    obtain ⟨rfl, rfl⟩ := hd.delimited_tableSelect a b s t hs ht h
    exact ⟨rfl, rfl⟩
  | keyword .distinct, keyword .distinct => exact ⟨rfl, List.append_cancel_left h⟩
  | keyword .all, keyword .all => exact ⟨rfl, List.append_cancel_left h⟩
  | keyword .distinct, keyword .all => exact absurd h (hunion s t hs)
  | keyword .all, keyword .distinct => exact absurd h.symm (hunion t s ht)
  | limit none, limit none => exact ⟨rfl, List.append_cancel_left h⟩
  | limit none, limit (some n) =>
    have h : "LIMIT ".toList ++ ("ALL".toList ++ s)
        = "LIMIT ".toList ++ ((toString n).toList ++ t) := by
      simpa [text] using h
    exact absurd (List.append_cancel_left h) (hall n s t)
  | limit (some n), limit none =>
    have h : "LIMIT ".toList ++ ((toString n).toList ++ s)
        = "LIMIT ".toList ++ ("ALL".toList ++ t) := by
      simpa [text] using h
    exact absurd (List.append_cancel_left h).symm (hall n t s)
  | limit (some m), limit (some n) =>
    simp only [text, String.toList_append, List.append_assoc] at h
    obtain ⟨rfl, rfl⟩ := delimited_int m n s t hs.noDigit ht.noDigit (List.append_cancel_left h)
    exact ⟨rfl, rfl⟩
  | offset m, offset n =>
    simp only [text, String.toList_append, List.append_assoc] at h
    obtain ⟨rfl, rfl⟩ := delimited_int m n s t hs.noDigit ht.noDigit (List.append_cancel_left h)
    exact ⟨rfl, rfl⟩
  | select _, keyword _ | select _, limit _ | select _, offset _ => cases hinitial
  | keyword _, select _ | keyword _, limit _ | keyword _, offset _ => cases hinitial
  | limit _, select _ | limit _, keyword _ | limit _, offset _ => cases hinitial
  | offset _, select _ | offset _, keyword _ | offset _, limit _ => cases hinitial

/-- The tokens can be read back from their texts. -/
theorem spaced_inj (hd : d.Readable) {ks ls : List UnionToken}
    (h : spaced (ks.map (text d)) = spaced (ls.map (text d))) : ks = ls := by
  have hend (ks : List UnionToken) : TokenEnd (spaced (ks.map (text d))).toList := by
    cases ks with
    | nil => exact .inl rfl
    | cons k ks =>
      obtain ⟨cs, hcs⟩ := exists_toList_text (d := d) k
      refine .inr ⟨k.initial, cs ++ (spaced (ks.map (text d))).toList, ?_, ?_⟩
      · simp [hcs]
      · cases k <;> simp [initial]
  induction ks generalizing ls with
  | nil =>
    cases ls with
    | nil => rfl
    | cons l ls =>
      have h := congrArg String.toList h
      simp at h
  | cons k ks ih =>
    cases ls with
    | nil =>
      have h := congrArg String.toList h
      simp at h
    | cons l ls =>
      have h := congrArg String.toList h
      simp only [List.map_cons, spaced_cons, String.toList_append, List.append_assoc] at h
      obtain ⟨rfl, hrest⟩ :=
        delimited_text hd k l _ _ (hend ks) (hend ls) (List.append_cancel_left h)
      rw [ih (String.toList_inj.1 hrest)]

end UnionToken

/-! ### Limits and offsets -/

/-- A limit, all negative ones made alike. -/
def shownLimit (n : Int64) : Int64 := if n < 0 then -1 else n

theorem UnionToken.page_inj {limit limit' offset offset' : Option Int64}
    (h : page limit offset = page limit' offset') :
    limit.map shownLimit = limit'.map shownLimit ∧ offset = offset' := by
  obtain ⟨hlimit, hoffset⟩ := append_inj_of_span (p := fun k => k.initial = 'L')
    (by simp [initial]) (by simp [initial]) (by simp [initial]) (by simp [initial]) h
  constructor
  · cases limit with
    | none =>
      cases limit' with
      | none => rfl
      | some m => cases hlimit
    | some n =>
      cases limit' with
      | none => cases hlimit
      | some m =>
        have hrows : (if n < 0 then none else some n.toInt)
            = (if m < 0 then none else some m.toInt) := by
          simpa using hlimit
        by_cases hn : n < 0 <;> by_cases hm : m < 0 <;>
          simp_all [shownLimit, Int64.toInt_inj]
  · cases offset with
    | none =>
      cases offset' with
      | none => rfl
      | some m => cases hoffset
    | some n =>
      cases offset' with
      | none => cases hoffset
      | some m => simpa [Int64.toInt_inj] using hoffset

/-- A token of a limit or an offset. -/
def UnionToken.IsPage (k : UnionToken) : Prop := k.initial = 'L' ∨ k.initial = 'O'

theorem UnionToken.isPage_of_mem_page {limit offset : Option Int64} {k : UnionToken}
    (h : k ∈ page limit offset) : k.IsPage := by
  simp only [page, List.mem_append, Option.mem_toList, Option.map_eq_some_iff] at h
  obtain ⟨n, -, rfl⟩ | ⟨n, -, rfl⟩ := h
  · exact .inl rfl
  · exact .inr rfl

end SqlAssembly
