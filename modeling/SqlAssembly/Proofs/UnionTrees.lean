import SqlAssembly.Proofs.Rendering
import SqlAssembly.Proofs.UnionTokens
import SqlAssembly.Proofs.Writing.Statement

/-!
# Unions in unions

A bare union writes its members one after the other, without parentheses. So its SQL shows the
selects, the keywords between them, and the `LIMIT` and `OFFSET` clauses in the order in which they
are written (`UnionTree.tokens`), and nothing else: unions are rendered alike exactly if these are
the same (`UnionTree.sql_eq_iff`). To which union a limit belongs is not shown, and neither is
whether a member is a union itself.
-/

namespace SqlAssembly

variable {d : Dialect}

/-! ### Trees of unions -/

/-- A select from one table, or a union of such trees, each with the kind that joins it to those
before it. Each of them may have a limit and an offset. -/
inductive UnionTree where
  | select (s : TableSelect) (limit offset : Option Int64)
  | union (members : List (UnionKind × UnionTree)) (limit offset : Option Int64)

namespace UnionTree

mutual

/-- The tree as a select. -/
def toSelect (d : Dialect) : UnionTree → Select Query
  | select s limit offset =>
    { dialect := d
      items := [.plain (.table (.name s.table) s.schema)
        (.list (s.columns.map fun c => { name := .name c }))]
      limit, offset }
  | union members limit offset => { dialect := d, unions := toParts d members, limit, offset }

/-- The members of a union. -/
def toParts (d : Dialect) : List (UnionKind × UnionTree) → List (UnionPart Query)
  | [] => []
  | (kind, t) :: members => ⟨.query (.of (toSelect d t)), kind⟩ :: toParts d members

end

mutual

/-- The tokens of a tree, from left to right. -/
def tokens : UnionTree → List UnionToken
  | select s limit offset => .select s :: UnionToken.page limit offset
  | union members limit offset => memberTokens true members ++ UnionToken.page limit offset

/-- The tokens of members, each behind its keyword; but the first of a union has none. -/
def memberTokens (first : Bool) : List (UnionKind × UnionTree) → List UnionToken
  | [] => []
  | (kind, t) :: members =>
    (if first then [] else [.keyword kind]) ++ tokens t ++ memberTokens false members

end

end UnionTree

/-! ### What the SQL of a tree is -/

theorem Select.map_spell_present_text (s : String) :
    (present [Sql.text s, []]).map d.spell = [s] := by
  simp [present, Sql.text, Dialect.spell, Piece.spell]

theorem UnionToken.spaced_page (limit? offset? : Option Int64) :
    spaced ((page limit? offset?).map (text d))
      = spaced ((Select.present [[], Select.limitSql limit? offset?, []]).map d.spell) := by
  cases limit? with
  | none =>
    cases offset? with
    | none => rfl
    | some m => simp [page, text, Select.limitSql, Select.map_spell_present_text]
  | some n =>
    by_cases hn : n < 0
    · cases offset? <;>
        simp [page, text, hn, Select.limitSql, Select.map_spell_present_text,
          ← String.append_assoc]
    · cases offset? with
      | none =>
        simp [page, text, hn, Select.limitSql, Select.map_spell_present_text,
          ← String.append_assoc]
      | some m =>
        have hlimit : Select.limitSql (some n) (some m)
            = Sql.text ("LIMIT " ++ toString n.toInt
              ++ (" " ++ ("OFFSET " ++ toString m.toInt))) := by
          simp [Select.limitSql, hn, String.append_assoc]
        simp [page, text, hn, hlimit, Select.map_spell_present_text, String.append_assoc]

namespace TableSelect

/-- The table as a source, under its own name. -/
def binding {σ : Type} (s : TableSelect) : Binding σ :=
  { qualifier := s.table, alias? := none, schema := s.schema, qualifies := false, record := none
    body := .table (.name s.table) s.schema }

theorem ofSource_eq_ok {σ : Type} {s : TableSelect} {b : Binding σ}
    (h : Binding.ofSource [] (.table (.name s.table) s.schema) = .ok b) : b = s.binding := by
  obtain ⟨t, ht, h⟩ := Except.bind_eq_ok.1 h
  obtain ⟨_, _, ht⟩ := Except.bind_eq_ok.1 ht
  have ht : t = { schema := s.schema, table := .name s.table, alias? := none } := by
    cases hschema : s.schema with
    | none =>
      rw [hschema] at ht
      cases ht
      rfl
    | some schema =>
      rw [hschema] at ht
      obtain ⟨_, _, ht⟩ := Except.bind_eq_ok.1 ht
      cases ht
      rfl
  subst ht
  cases h
  rfl

theorem textBehind_eq_of_ok {c text : String}
    (h : Column.textBehind d none none { name := .name c } = .ok text) :
    text = (SqlName.name c).textBehind d none := by
  obtain ⟨r, hr, h⟩ := Except.bind_eq_ok.1 h
  obtain ⟨_, _, hr⟩ := Except.bind_eq_ok.1 hr
  cases hr
  cases h
  simp [Dialect.aliasText]

theorem intercalate_of_listTexts {σ : Type} {s : TableSelect} {texts : List String}
    (h : (s.binding : Binding σ).listTexts d false
      (.list (s.columns.map fun c => { name := .name c })) = .ok texts) :
    String.intercalate "," texts = s.listText d := by
  have hplace : (s.binding : Binding σ).place d = d.pathText s.schema s.table :=
    Dialect.quoteTable_name s.table s.schema
  rw [listText]
  cases hcolumns : s.columns with
  | nil =>
    rw [hcolumns] at h
    cases h
    rw [hplace, String.intercalate_singleton]
  | cons c cs =>
    rw [hcolumns] at h
    have h : ((c :: cs).map fun c => ({ name := .name c } : Column)).mapM
        (Column.textBehind d none none) = .ok texts := h
    rw [List.mapM_map] at h
    rw [Except.eq_map_of_mapM (fun _ _ => textBehind_eq_of_ok) h]

/-- The columns and the source of a select from one table. -/
theorem headSql_eq_ok {s : TableSelect} {limit offset : Option Int64} {head : List Sql}
    (h : (((UnionTree.select s limit offset).toSelect d).map (Query.render d)).headSql = .ok head) :
    ∃ columns, Sql.valuesAll columns = []
      ∧ String.intercalate "," (columns.map d.spell) = s.listText d
      ∧ head = [Select.listSql false columns,
          Sql.text "FROM " ++ tableSql (.name s.table) s.schema] := by
  obtain ⟨⟨items, joins⟩, hbind, h⟩ := Except.bind_eq_ok.1 h
  obtain ⟨columns, hcolumns, h⟩ := Except.bind_eq_ok.1 h
  obtain ⟨hitems, hjoins⟩ := Scope.bind_eq_ok.1 hbind
  obtain ⟨b, hb, hitems⟩ := Except.bind_eq_ok.1 hitems
  have hb := ofSource_eq_ok hb
  cases hitems
  cases hjoins
  have hfrom : Select.fromSql [BoundItem.source b false
      (.list (s.columns.map fun c => { name := .name c }))]
        = .ok (Sql.text "FROM " ++ tableSql (.name s.table) s.schema) := by
    rw [hb]
    simp [Select.fromSql, BoundItem.sources, Binding.sql, binding, aliasSql, Sql.join]
  rw [hfrom] at h
  cases h
  refine ⟨columns, Scope.values_selectList hcolumns, ?_, rfl⟩
  have htexts := Scope.listTexts_eq_ok (d := d) (fun _ => Scope.named_of_mem hbind) hcolumns
  obtain ⟨items, hitems, htexts⟩ := Except.bind_eq_ok.1 htexts
  obtain ⟨texts, hlist, hitems⟩ := Except.bind_eq_ok.1 hitems
  cases hitems
  have htexts : texts = columns.map d.spell := by simpa using htexts
  rw [← htexts]
  rw [hb] at hlist
  exact intercalate_of_listTexts hlist

end TableSelect

namespace UnionTree

/-- What a tree is rendered as: it binds nothing, and its text is that of its tokens. -/
def RenderedAs (d : Dialect) (tokens : List UnionToken) (sql : Sql) : Prop :=
  sql.values = [] ∧ " " ++ d.spell sql = spaced (tokens.map (UnionToken.text d))

theorem renderedAs_join {tokens : List UnionToken} {parts : List Sql} (hne : parts ≠ [])
    (hvalues : Sql.valuesAll parts = [])
    (htext : spaced (parts.map d.spell) = spaced (tokens.map (UnionToken.text d))) :
    RenderedAs d tokens (Sql.join " " parts) := by
  constructor
  · rw [Sql.values_join, hvalues]
  · rw [Dialect.spell, Sql.spell_join, Sql.spellAll_of_valuesAll_eq_nil hvalues, ← htext,
      spaced_eq (by simpa using hne)]

theorem values_page (limit? offset? : Option Int64) :
    Sql.valuesAll (Select.present [[], Select.limitSql limit? offset?, []]) = [] := by
  simp [Sql.valuesAll_present, Select.values_limitSql]

theorem renderedAs_select {s : TableSelect} {limit offset : Option Int64} {sql : Sql}
    (h : (((select s limit offset).toSelect d).map (Query.render d)).render d = .ok sql) :
    RenderedAs d (tokens (.select s limit offset)) sql := by
  obtain ⟨-, h⟩ := Select.render_eq_ok.1 h
  obtain ⟨head, filter, tail, members, hhead, hfilter, htail, hmembers, rfl⟩ := h
  obtain ⟨columns, hvalues, hlist, rfl⟩ := TableSelect.headSql_eq_ok hhead
  cases hfilter
  cases htail
  cases hmembers
  rw [List.append_nil]
  show RenderedAs d _ (Sql.join " " (Select.listSql false columns
    :: (Sql.text "FROM " ++ tableSql (.name s.table) s.schema)
    :: Select.present [[], Select.limitSql limit offset, []]))
  have hselect : d.spell (Select.listSql false columns) = "SELECT " ++ s.listText d := by
    rw [← hlist, Dialect.spell, Select.listSql, Sql.spell_append, Sql.spell_text, Sql.spell_join,
      Sql.spellAll_of_valuesAll_eq_nil hvalues]
    rfl
  have hfrom : d.spell (Sql.text "FROM " ++ tableSql (.name s.table) s.schema)
      = "FROM " ++ d.pathText s.schema s.table := by
    rw [← Dialect.quoteTable_name, Dialect.quoteTable, Dialect.spell, Sql.spell_append,
      Sql.spell_text]
    simp [Dialect.spell, aliasSql]
  refine renderedAs_join (List.cons_ne_nil _ _) ?_ ?_
  · simp [Select.listSql, hvalues, values_tableSql, Select.values_limitSql]
  · have hblank (t : String) : " " ++ ("FROM " ++ t) = " FROM " ++ t := by
      rw [← String.append_assoc]
      rfl
    rw [List.map_cons, List.map_cons, spaced_cons, spaced_cons, hselect, hfrom,
      ← UnionToken.spaced_page, tokens, List.map_cons, spaced_cons, UnionToken.text,
      TableSelect.text]
    simp only [String.append_assoc, hblank]

/-- A union that passes its checks has members. -/
theorem ne_nil_of_check {members : List (UnionKind × UnionTree)} {limit offset : Option Int64}
    {sqls : List Sql}
    (hcheck : (((union members limit offset).toSelect d).map (Query.render d)).check = .ok ())
    (h : Select.unionsSql true ((toParts d members).map (UnionPart.map (Query.render d)))
      = .ok sqls) : sqls ≠ [] := by
  cases members with
  | nil => cases hcheck
  | cons m members =>
    obtain ⟨member, -, h⟩ := Except.bind_eq_ok.1 h
    obtain ⟨rest, -, h⟩ := Except.bind_eq_ok.1 h
    cases h
    exact List.cons_ne_nil _ _

mutual

theorem renderedAs_tokens (t : UnionTree) {sql : Sql}
    (h : ((t.toSelect d).map (Query.render d)).render d = .ok sql) :
    RenderedAs d t.tokens sql := by
  match t with
  | select s limit offset => exact renderedAs_select h
  | union members limit offset =>
    obtain ⟨hcheck, h⟩ := Select.render_eq_ok.1 h
    obtain ⟨sqls, tail, hmembers, htail, rfl⟩ := h
    cases htail
    have ih := renderedAs_memberTokens members true hmembers
    have hne : sqls ≠ [] := ne_nil_of_check hcheck hmembers
    refine renderedAs_join (by simp [hne]) ?_ ?_
    · rw [Sql.valuesAll_append, ih.1]
      exact values_page limit offset
    · rw [List.map_append, spaced_append, ih.2, tokens, List.map_append, spaced_append,
        UnionToken.spaced_page]
      rfl

/-- The members of a union bind nothing, and their texts are those of their tokens. -/
theorem renderedAs_memberTokens (members : List (UnionKind × UnionTree)) (first : Bool)
    {sqls : List Sql}
    (h : Select.unionsSql first ((toParts d members).map (UnionPart.map (Query.render d)))
      = .ok sqls) :
    Sql.valuesAll sqls = []
      ∧ spaced (sqls.map d.spell)
        = spaced ((memberTokens first members).map (UnionToken.text d)) := by
  match members with
  | [] =>
    cases h
    exact ⟨rfl, rfl⟩
  | (kind, t) :: members =>
    obtain ⟨member, hmember, h⟩ := Except.bind_eq_ok.1 h
    obtain ⟨rest, hrest, h⟩ := Except.bind_eq_ok.1 h
    have hmember : Query.render d (.of (toSelect d t)) = .ok member := hmember
    rw [Query.render_of] at hmember
    obtain ⟨hvalues, htext⟩ := renderedAs_tokens t hmember
    obtain ⟨hvaluesRest, htextRest⟩ := renderedAs_memberTokens members false hrest
    cases h
    cases first with
    | true =>
      refine ⟨by simp [hvalues, hvaluesRest], ?_⟩
      simp only [memberTokens, if_true, List.cons_append, List.nil_append, List.map_cons,
        List.map_append, spaced_cons, spaced_append, htext, htextRest]
    | false =>
      refine ⟨by simp [hvalues, hvaluesRest], ?_⟩
      simp only [memberTokens, Bool.false_eq_true, if_false, List.cons_append, List.nil_append,
        List.map_cons, List.map_append, spaced_cons, spaced_append, htext, htextRest]
      have hkeyword : d.spell (Sql.text kind.keyword) = kind.keyword := Sql.spell_text _
      simp only [UnionPart.map, hkeyword, UnionToken.text]

end

end UnionTree

/-! ### What the SQL of a tree tells -/

namespace UnionTree

mutual

/-- The tree with what is never shown made alike: the kind of each first member, and which negative
number a limit is. -/
def shown : UnionTree → UnionTree
  | select s limit offset => select s (limit.map shownLimit) offset
  | union members limit offset => union (shownMembers true members) (limit.map shownLimit) offset

def shownMembers (first : Bool) : List (UnionKind × UnionTree) → List (UnionKind × UnionTree)
  | [] => []
  | (kind, t) :: members =>
    ((if first then .distinct else kind), shown t) :: shownMembers false members

end

theorem page_shownLimit (limit offset : Option Int64) :
    UnionToken.page (limit.map shownLimit) offset = UnionToken.page limit offset := by
  cases limit with
  | none => rfl
  | some n =>
    by_cases hn : n < 0 <;> simp [UnionToken.page, shownLimit, hn]

mutual

theorem tokens_shown (t : UnionTree) : t.shown.tokens = t.tokens := by
  match t with
  | select s limit offset => rw [shown, tokens, tokens, page_shownLimit]
  | union members limit offset =>
    rw [shown, tokens, tokens, page_shownLimit, memberTokens_shownMembers members true]

theorem memberTokens_shownMembers (members : List (UnionKind × UnionTree)) (first : Bool) :
    memberTokens first (shownMembers first members) = memberTokens first members := by
  match members with
  | [] => rfl
  | (kind, t) :: members =>
    rw [shownMembers, memberTokens, memberTokens, tokens_shown t,
      memberTokens_shownMembers members false]
    cases first <;> rfl

end

/-- Selects, the last of which has neither a limit nor an offset. -/
inductive FlatMembers : List (UnionKind × UnionTree) → Prop
  | last (kind : UnionKind) (s : TableSelect) : FlatMembers [(kind, select s none none)]
  | cons (kind : UnionKind) (s : TableSelect) (limit offset : Option Int64)
      {members : List (UnionKind × UnionTree)} (rest : FlatMembers members) :
      FlatMembers ((kind, select s limit offset) :: members)

/-- A union of selects, the last of which has neither a limit nor an offset. -/
def IsFlat (t : UnionTree) : Prop :=
  ∃ members limit offset, t = union members limit offset ∧ FlatMembers members

/-- A member that is a select begins with its keyword, unless it is the first one, and its text. -/
theorem member_append_inj {first : Bool} {kind kind' : UnionKind} {s s' : TableSelect}
    {r r' : List UnionToken}
    (h : (if first then [] else [UnionToken.keyword kind]) ++ .select s :: r
      = (if first then [] else [UnionToken.keyword kind']) ++ .select s' :: r') :
    (if first then UnionKind.distinct else kind) = (if first then UnionKind.distinct else kind')
      ∧ s = s' ∧ r = r' := by
  cases first <;> simpa using h

theorem memberTokens_cons (first : Bool) (kind : UnionKind) (s : TableSelect)
    (limit offset : Option Int64) (members : List (UnionKind × UnionTree)) (r : List UnionToken) :
    memberTokens first ((kind, select s limit offset) :: members) ++ r
      = (if first then [] else [UnionToken.keyword kind])
        ++ .select s :: (UnionToken.page limit offset ++ (memberTokens false members ++ r)) := by
  simp [memberTokens, tokens]

theorem FlatMembers.exists_keyword {ms : List (UnionKind × UnionTree)} (h : FlatMembers ms)
    (r : List UnionToken) : ∃ kind rest, memberTokens false ms ++ r = .keyword kind :: rest := by
  cases h with
  | last kind s => exact ⟨kind, _, memberTokens_cons false kind s none none [] r⟩
  | cons kind s limit offset rest =>
    exact ⟨kind, _, memberTokens_cons false kind s limit offset _ r⟩

/-- A limit and an offset hold no further members. -/
theorem FlatMembers.page_ne {ms : List (UnionKind × UnionTree)} (h : FlatMembers ms)
    {limit offset : Option Int64} {r p : List UnionToken} :
    UnionToken.page limit offset ≠ p ++ (memberTokens false ms ++ r) := by
  intro heq
  obtain ⟨kind, rest, hkeyword⟩ := h.exists_keyword r
  have hmem : UnionToken.keyword kind ∈ UnionToken.page limit offset := by
    rw [heq, hkeyword]
    simp
  obtain h | h := UnionToken.isPage_of_mem_page hmem <;> cases h

/-- Members that are selects can be told from their tokens, and from the limit and the offset behind
them, as the last member has none of its own. -/
theorem FlatMembers.shownMembers_eq {ms ns : List (UnionKind × UnionTree)} (hms : FlatMembers ms)
    (hns : FlatMembers ns) {limit limit' offset offset' : Option Int64} {first : Bool}
    (h : memberTokens first ms ++ UnionToken.page limit offset
      = memberTokens first ns ++ UnionToken.page limit' offset') :
    shownMembers first ms = shownMembers first ns
      ∧ UnionToken.page limit offset = UnionToken.page limit' offset' := by
  induction hms generalizing ns first with
  | last kind s =>
    cases hns with
    | last kind' s' =>
      rw [memberTokens_cons, memberTokens_cons] at h
      obtain ⟨hkind, rfl, hrest⟩ := member_append_inj h
      exact ⟨by simp [shownMembers, hkind], hrest⟩
    | cons kind' s' l' o' rest' =>
      rw [memberTokens_cons, memberTokens_cons] at h
      obtain ⟨-, -, hrest⟩ := member_append_inj h
      exact absurd hrest rest'.page_ne
  | cons kind s l o rest ih =>
    cases hns with
    | last kind' s' =>
      rw [memberTokens_cons, memberTokens_cons] at h
      obtain ⟨-, -, hrest⟩ := member_append_inj h
      exact absurd hrest.symm rest.page_ne
    | cons kind' s' l' o' rest' =>
      rw [memberTokens_cons, memberTokens_cons] at h
      obtain ⟨hkind, rfl, htail⟩ := member_append_inj h
      have hhead {members : List (UnionKind × UnionTree)} (hmembers : FlatMembers members)
          (r : List UnionToken) : ∀ k ∈ (memberTokens false members ++ r).head?, ¬ k.IsPage := by
        obtain ⟨kind, rest, hkeyword⟩ := hmembers.exists_keyword r
        rw [hkeyword]
        rintro k hk (h | h) <;> cases hk <;> cases h
      obtain ⟨hpage, hrest⟩ := append_inj_of_span (p := UnionToken.IsPage)
        (fun _ => UnionToken.isPage_of_mem_page) (fun _ => UnionToken.isPage_of_mem_page)
        (hhead rest _) (hhead rest' _) htail
      obtain ⟨hlimit, rfl⟩ := UnionToken.page_inj hpage
      obtain ⟨hmembers, hlast⟩ := ih rest' hrest
      exact ⟨by simp [shownMembers, shown, hkind, hlimit, hmembers], hlast⟩

theorem spaced_of_assemble {t : UnionTree} {a : Assembled}
    (h : (Command.select (t.toSelect d)).assemble = .ok a) :
    " " ++ a.sql = spaced (t.tokens.map (UnionToken.text d)) := by
  have hdialect : (t.toSelect d).dialect = d := by
    cases t <;> simp [toSelect]
  rw [Command.assemble_eq] at h
  obtain ⟨sql, hsql, rfl⟩ := Except.map_eq_ok.1 h
  simp only [Command.dialect, hdialect] at hsql ⊢
  have hsql : Query.render d (.of (t.toSelect d)) = .ok sql := hsql
  rw [Query.render_of] at hsql
  exact (renderedAs_tokens t hsql).2

/-- Two unions have the same SQL exactly if they are made of the same selects, keywords, limits and
offsets in the order in which they are written. What is never shown makes no difference. If no
member is a union itself and no last member has a limit or an offset, nothing else is lost. -/
theorem sql_eq_iff (hd : d.Readable) {t u : UnionTree} {a b : Assembled}
    (ht : (Command.select (t.toSelect d)).assemble = .ok a)
    (hu : (Command.select (u.toSelect d)).assemble = .ok b) :
    (a.sql = b.sql ↔ t.tokens = u.tokens)
    ∧ (t.shown = u.shown → a.sql = b.sql)
    ∧ (t.IsFlat → u.IsFlat → (a.sql = b.sql ↔ t.shown = u.shown)) := by
  have htokens : a.sql = b.sql ↔ t.tokens = u.tokens := by
    have hta := spaced_of_assemble ht
    have hub := spaced_of_assemble hu
    constructor
    · intro h
      rw [h, hub] at hta
      exact (UnionToken.spaced_inj hd hta).symm
    · intro h
      rw [h, ← hub] at hta
      exact String.toList_inj.1 (List.append_cancel_left (by
        simpa using congrArg String.toList hta : " ".toList ++ a.sql.toList = _))
  have hshown : t.shown = u.shown → t.tokens = u.tokens := by
    intro h
    rw [← tokens_shown t, ← tokens_shown u, h]
  refine ⟨htokens, fun h => htokens.2 (hshown h), ?_⟩
  rintro ⟨ms, limit, offset, rfl, hms⟩ ⟨ns, limit', offset', rfl, hns⟩
  refine ⟨fun h => ?_, fun h => htokens.2 (hshown h)⟩
  have h := htokens.1 h
  rw [tokens, tokens] at h
  obtain ⟨hmembers, hpage⟩ := hms.shownMembers_eq hns h
  obtain ⟨hlimit, rfl⟩ := UnionToken.page_inj hpage
  rw [shown, shown, hmembers, hlimit]

/-- A table without a limit or an offset. -/
def table (name : String) : UnionTree := select { table := name } none none

/-- Two tables under a limit, behind one kind of union and another one that is not shown. -/
def limited (first : UnionKind) (limit : Int64) : UnionTree :=
  union [(first, table "a"), (.distinct, table "b")] (some limit) none

theorem isFlat_limited (first : UnionKind) (limit : Int64) : (limited first limit).IsFlat :=
  ⟨_, _, _, rfl, .cons first { table := "a" } none none (.last .distinct { table := "b" })⟩

/-- The kind of the first member is not shown; the limit is. -/
theorem sql_eq_iff_limited :
    ∃ a b c, (Command.select ((limited .distinct 1).toSelect .generic)).assemble = .ok a
      ∧ (Command.select ((limited .all 1).toSelect .generic)).assemble = .ok b
      ∧ (Command.select ((limited .all 2).toSelect .generic)).assemble = .ok c
      ∧ a.sql = b.sql ∧ a.sql ≠ c.sql := by
  have hd : Dialect.generic.Readable := Dialect.readable_of_doubleQuoted rfl
  have ha : (Command.select ((limited .distinct 1).toSelect .generic)).assemble = .ok _ := rfl
  have hb : (Command.select ((limited .all 1).toSelect .generic)).assemble = .ok _ := rfl
  have hc : (Command.select ((limited .all 2).toSelect .generic)).assemble = .ok _ := rfl
  refine ⟨_, _, _, ha, hb, hc, (sql_eq_iff hd ha hb).2.1 rfl, fun h => ?_⟩
  have hshown := ((sql_eq_iff hd ha hc).2.2 (isFlat_limited _ _) (isFlat_limited _ _)).1 h
  simp [limited, shown, shownLimit] at hshown

/-- Whether two trees are rendered alike. -/
def SameSql (d : Dialect) (t u : UnionTree) : Prop :=
  ∃ a, (Command.select (t.toSelect d)).assemble = .ok a
    ∧ (Command.select (u.toSelect d)).assemble = .ok a

/-- A limit of the last member is rendered like one of the union, a union in a union like a longer
union, and one negative limit like another. A dialect can also quote two names alike. -/
theorem not_injective_sql :
    (SameSql .generic (limited .distinct 1)
        (union [(.distinct, table "a"), (.distinct, select { table := "b" } (some 1) none)]
          none none)
      ∧ (limited .distinct 1).shown
        ≠ (union [(.distinct, table "a"), (.distinct, select { table := "b" } (some 1) none)]
          none none).shown)
    ∧ (SameSql .generic
        (union [(.distinct, table "a"), (.all, table "b"), (.distinct, table "c")] none none)
        (union [(.distinct, table "a"),
          (.all, union [(.distinct, table "b"), (.distinct, table "c")] none none)] none none)
      ∧ (union [(.distinct, table "a"), (.all, table "b"), (.distinct, table "c")] none none).shown
        ≠ (union [(.distinct, table "a"),
          (.all, union [(.distinct, table "b"), (.distinct, table "c")] none none)]
          none none).shown)
    ∧ (SameSql .generic (limited .distinct (-1)) (limited .distinct (-2))
      ∧ limited .distinct (-1) ≠ limited .distinct (-2))
    ∧ ∃ d : Dialect, SameSql d
        (union [(.distinct, table "a"), (.distinct, table "b")] none none)
        (union [(.distinct, table "a"), (.distinct, table "c")] none none)
      ∧ (union [(.distinct, table "a"), (.distinct, table "b")] none none).shown
        ≠ (union [(.distinct, table "a"), (.distinct, table "c")] none none).shown := by
  refine ⟨⟨⟨_, rfl, rfl⟩, ?_⟩, ⟨⟨_, rfl, rfl⟩, ?_⟩, ⟨⟨_, rfl, rfl⟩, ?_⟩,
    { Dialect.generic with quoteIdentifier := fun _ => "x" }, ⟨_, rfl, rfl⟩, ?_⟩
  · simp [limited, table, shown, shownMembers]
  · simp [table, shown, shownMembers]
  · simp [limited]
  · simp [table, shown, shownMembers]

end UnionTree

end SqlAssembly
