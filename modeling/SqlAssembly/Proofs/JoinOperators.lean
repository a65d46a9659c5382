import SqlAssembly.Proofs.JoinTables
import SqlAssembly.Proofs.Lexemes

/-!
# Operators of join conditions

A condition on columns is written as one column, the operator and the other column, with no blank
between them. They stay separate lexemes exactly if neither column sticks to the operator, which
never happens to quoted names with an operator that has no quotes, but does happen to a raw column
beside an operator that is a word (`Select.readApart_joinOn`).
-/

namespace SqlAssembly

open Lexeme (ReadApart isWordChar sticks)

variable {d : Dialect} {letters : Char → Bool}

/-! ### Quoted paths -/

theorem Token.lex_doubleQuoted (name : String) : lex (doubleQuoted name) = [.quoted name] := by
  simpa [lex] using read_doubleQuoted name (s := []) (by simp)

/-- What a quoted path looks like: it begins with a quote and ends with a quote or with `*`, and its
quotes are paired. -/
structure IsQuotedPath (s : String) : Prop where
  paired : QuotesPaired s
  head?_eq : s.toList.head? = some '"'
  getLast?_eq : s.toList.getLast? = some '"' ∨ s.toList.getLast? = some '*'

namespace IsQuotedPath

theorem toList_ne_nil {s : String} (h : IsQuotedPath s) : s.toList ≠ [] := by
  intro hnil
  have hhead := h.head?_eq
  rw [hnil] at hhead
  cases hhead

theorem doubleQuoted (name : String) : IsQuotedPath (doubleQuoted name) :=
  ⟨by simp [QuotesPaired, Token.lex_doubleQuoted], Token.head?_chars name,
    .inl (Token.getLast?_chars name)⟩

/-- A path goes on behind a dot with a name or with `*`. -/
theorem dot {s column : String} (hs : IsQuotedPath s)
    (hcolumn : IsQuotedPath column ∨ column = "*") : IsQuotedPath (s ++ "." ++ column) := by
  have hdot : QuotesPaired (s ++ ".") := hs.paired.append (quotesPaired_of_not_mem (by simp))
  have hhead : (s ++ "." ++ column).toList.head? = some '"' := by
    rw [String.toList_append, String.toList_append, List.append_assoc,
      List.head?_append_of_ne_nil _ hs.toList_ne_nil]
    exact hs.head?_eq
  rcases hcolumn with hcolumn | rfl
  · refine ⟨hdot.append hcolumn.paired, hhead, ?_⟩
    rw [String.toList_append, List.getLast?_append_of_ne_nil _ hcolumn.toList_ne_nil]
    exact hcolumn.getLast?_eq
  · refine ⟨hdot.append (quotesPaired_of_not_mem (by simp)), hhead, .inr ?_⟩
    rw [String.toList_append]
    exact List.getLast?_concat

end IsQuotedPath

theorem isQuotedPath_pathText (hquote : d.quoteIdentifier = doubleQuoted) (schema : Option String)
    (table : String) : IsQuotedPath (d.pathText schema table) := by
  cases schema with
  | none => simpa [Dialect.pathText, hquote] using IsQuotedPath.doubleQuoted table
  | some schema =>
    simpa [Dialect.pathText, hquote] using
      (IsQuotedPath.doubleQuoted schema).dot (.inl (IsQuotedPath.doubleQuoted table))

theorem Binding.Named.isQuotedPath_place (hquote : d.quoteIdentifier = doubleQuoted)
    {b : Binding Query} (hb : b.Named) : IsQuotedPath (b.place d) := by
  rw [hb.place_eq]
  exact isQuotedPath_pathText hquote _ _

theorem isQuotedPath_textBehind (hquote : d.quoteIdentifier = doubleQuoted) {place : String}
    (hplace : IsQuotedPath place) (column : String) :
    IsQuotedPath ((SqlName.name column).textBehind d (some place)) := by
  refine hplace.dot ?_
  rw [hquote]
  split
  · exact .inr rfl
  · exact .inl (IsQuotedPath.doubleQuoted column)

/-! ### Paths beside operators -/

namespace Lexeme

/-- Paths and an operator without quotes between them are read one after the other. -/
theorem readApart_paths {left operator right : String} (hleft : IsQuotedPath left)
    (hoperator : '"' ∉ operator.toList) (hright : IsQuotedPath right) (hne : operator ≠ "") :
    ReadApart letters left operator right := by
  have hlast : ∀ x ∈ left.toList.getLast?, isWordChar letters x = false := by
    intro x hx
    rcases hleft.getLast?_eq with h | h
    all_goals
      rw [h] at hx
      cases hx
      rfl
  have hfirst : ∀ y ∈ right.toList.head?, isWordChar letters y = false := by
    intro y hy
    rw [hright.head?_eq] at hy
    cases hy
    rfl
  exact readApart_of_not_mem hleft.paired hoperator hright.paired hne (.inl hlast) (.inr hfirst)

end Lexeme

/-! ### Conditions -/

namespace Select

/-- A join on two columns whose operator is not blank, in a select that is written in a built-in
dialect: behind `ON` stand the left column, the operator and the right column. If the quotes of
these are paired then they are read one after the other exactly if neither column sticks to the
operator. They always are if both columns are names and the operator has no quotes. -/
theorem readApart_joinOn (builtin : BuiltinDialect) (letters : Char → Bool) {s : Select Query}
    {scope : Scope Query} (hbind : Scope.bind s = .ok scope) {i : Nat} {j : BoundJoin Query}
    (hj : scope.joins[i]? = some j) {field other otherField : Identifier} {operator : String}
    (hcondition : j.join.condition = some (.columns field other otherField operator))
    (hoperator : Text.trim operator ≠ "") {bound after : List Value} {text : String}
    (h : ((Query.of s).write builtin.dialect).run bound = .ok (text, after)) :
    ∃ q b left right, other.asQualifier = .ok q ∧ b ∈ scope.earlier i ∧ b.qualifier = q.name
      ∧ (otherField.asColumn (q.record.or b.record)).map Prod.fst = .ok left
      ∧ (field.asColumn j.binding.record).map Prod.fst = .ok right
      ∧ ∃ l r before behind, l = left.textBehind builtin.dialect (some (b.place builtin.dialect))
        ∧ r = right.textBehind builtin.dialect (some (j.binding.place builtin.dialect))
        ∧ text = before ++ (" ON " ++ l ++ Text.trim operator ++ r) ++ behind
        ∧ (QuotesPaired l → QuotesPaired (Text.trim operator) → QuotesPaired r →
          (ReadApart letters l (Text.trim operator) r
            ↔ sticks letters l (Text.trim operator) = false
              ∧ sticks letters (Text.trim operator) r = false))
        ∧ ((∃ n, left = .name n) → (∃ n, right = .name n) → '"' ∉ (Text.trim operator).toList →
          ReadApart letters l (Text.trim operator) r) := by
  have hquote : builtin.dialect.quoteIdentifier = doubleQuoted := by cases builtin <;> rfl
  have hearlier : ∀ b ∈ scope.earlier i, b.Named := fun b hb =>
    Scope.named_of_mem hbind (scope.earlier_subset i hb)
  have hbinding : j.binding.Named := Scope.named_of_mem hbind
    (List.mem_append_right _ (List.mem_map_of_mem (List.mem_of_getElem? hj)))
  obtain ⟨condition, hon, source, before, behind, -, rfl⟩ := exists_joinText hbind hj h
  have hconditionText :=
    BoundJoin.conditionText_of_joinOnSql (d := builtin.dialect) hearlier hbinding hon
  generalize builtin.dialect.spell condition = conditionText at hconditionText
  cases hconditionText with
  | none h' => simp [hcondition] at h'
  | raw h' => simp [hcondition] at h'
  | @columns _ _ _ _ q b left right h' hother hb hname hleft hright =>
    rw [hcondition] at h'
    cases h'
    refine ⟨q, b, left, right, hother, hb, hname, hleft, hright, _, _,
      before ++ (j.join.kind.keyword ++ " " ++ source), behind, rfl, rfl,
      by simp only [String.append_assoc],
      fun hl ho hr => Lexeme.readApart_iff hl ho hr hoperator, ?_⟩
    rintro ⟨n, rfl⟩ ⟨m, rfl⟩ hplain
    have hleft := isQuotedPath_textBehind hquote ((hearlier b hb).isQuotedPath_place hquote) n
    have hright := isQuotedPath_textBehind hquote (hbinding.isQuotedPath_place hquote) m
    exact Lexeme.readApart_paths hleft hplain hright hoperator

/-- Two tables whose columns are compared by `LIKE`. -/
def alike (otherField : Identifier) : Select Query :=
  .build .generic
    [.source (.table (.name "a") none) .all,
      .join { kind := .inner, source := .table (.name "b") none
              condition := some (.columns (.name "id") (.name "a") otherField "LIKE") }]

theorem readApart_joinOn_alike :
    (∃ scope, Scope.bind (alike (.name "x")) = .ok scope ∧ Text.trim "LIKE" ≠ "")
      ∧ ((Query.of (alike (.name "x"))).write .generic).run [] = .ok
        ("SELECT \"a\".* FROM \"a\" INNER JOIN \"b\" ON \"a\".\"x\"LIKE\"b\".\"id\"", [])
      ∧ ReadApart (fun _ => false) "\"a\".\"x\"" "LIKE" "\"b\".\"id\"" := by
  have hbind : Scope.bind (alike (.name "x")) = .ok _ := rfl
  have hrun : ((Query.of (alike (.name "x"))).write BuiltinDialect.generic.dialect).run []
      = .ok (_, []) := rfl
  have hoperator : Text.trim "LIKE" ≠ "" := by decide
  refine ⟨⟨_, hbind, hoperator⟩, hrun, ?_⟩
  obtain ⟨q, b, left, right, hother, hb, -, hleft, hright, l, r, -, -, rfl, rfl, -, -, happart⟩ :=
    readApart_joinOn .generic (fun _ => false) hbind (i := 0) rfl rfl hoperator hrun
  cases hother
  obtain rfl := List.mem_singleton.1 hb
  cases hleft
  cases hright
  exact happart ⟨_, rfl⟩ ⟨_, rfl⟩ (by decide)

/-- A raw column and the operator behind it are read as one word. -/
theorem not_readApart_literal :
    ((Query.of (alike (.literal "x"))).write .generic).run [] = .ok
        ("SELECT \"a\".* FROM \"a\" INNER JOIN \"b\" ON xLIKE\"b\".\"id\"", [])
      ∧ Lexeme.lex (fun _ => false) "x" = [.word "x"]
      ∧ Lexeme.lex (fun _ => false) "xLIKE" = [.word "xLIKE"]
      ∧ ¬ ReadApart (fun _ => false) "x" "LIKE" "\"b\".\"id\"" := by
  have hpath : QuotesPaired "\"b\".\"id\"" := by decide +kernel
  have hwords : QuotesPaired "x" ∧ QuotesPaired "LIKE" := by decide +kernel
  refine ⟨rfl, by decide +kernel, by decide +kernel, fun h => ?_⟩
  have hsticks := (Lexeme.readApart_iff hwords.1 hwords.2 hpath (by decide)).1 h
  exact absurd hsticks.1 (by decide)

end Select

end SqlAssembly
