import SqlAssembly.Proofs.CallOrder

/-!
# Pages of rows

A page is a limit together with an offset. A select that takes a page can be assembled exactly if
the offset of the page can be counted in sixty-four bits, and differs from the select without it in
one clause (`Select.assemble_page`). The pages that can be counted tile the rows: of pages of one
length no two share a row (`not_inWindow_of_ne`), and each row that can be counted, but the last
one, is on one of them (`existsUnique_page`).
-/

namespace SqlAssembly

/-! ### Windows -/

/-- How many rows stand before a page, pages being counted from one. -/
def pageOffset (page rows : Int64) : Int := (page.toInt - 1) * rows.toInt

/-- A row is in the window of a page, rows being counted from zero. -/
def InWindow (page rows : Int64) (k : Int) : Prop :=
  pageOffset page rows ≤ k ∧ k < pageOffset page rows + rows.toInt

/-- The page and its length are positive, and its offset fits sixty-four bits. -/
def IsPage (page rows : Int64) : Prop :=
  1 ≤ page ∧ 1 ≤ rows ∧ pageOffset page rows ≤ Int64.maxValue.toInt

theorem one_le_int64_iff {n : Int64} : 1 ≤ n ↔ 1 ≤ n.toInt := Int64.le_iff_toInt_le

/-- A row is on the page that dividing by the length of the pages gives. -/
theorem inWindow_iff {page rows : Int64} (hrows : 1 ≤ rows) {k : Int} :
    InWindow page rows k ↔ page.toInt = k / rows.toInt + 1 := by
  have hpos : 0 < rows.toInt := one_le_int64_iff.1 hrows
  have hdiv : k / rows.toInt = page.toInt - 1 ↔ InWindow page rows k :=
    Int.ediv_eq_iff_of_pos hpos
  rw [← hdiv]
  omega

/-- The offset of a page that can be counted is kept as it is. -/
theorem IsPage.toInt_ofInt {page rows : Int64} (h : IsPage page rows) :
    (Int64.ofInt (pageOffset page rows)).toInt = pageOffset page rows := by
  obtain ⟨hpage, hrows, hfits⟩ := h
  have hnonneg : 0 ≤ pageOffset page rows :=
    Int.mul_nonneg (Int.sub_nonneg_of_le (one_le_int64_iff.1 hpage))
      (Int.le_of_lt (one_le_int64_iff.1 hrows))
  rw [Int64.toInt_maxValue] at hfits
  exact Int64.toInt_ofInt_of_le (by omega) (by omega)

/-- A row is in the window of one page at most. -/
theorem not_inWindow_of_ne {page page' rows : Int64} (hrows : 1 ≤ rows) (hne : page ≠ page')
    {k : Int} (hk : InWindow page rows k) : ¬ InWindow page' rows k := by
  intro hk'
  refine hne (Int64.toInt_inj.1 ?_)
  rw [(inWindow_iff hrows).1 hk, (inWindow_iff hrows).1 hk']

/-- Every row but the last one that can be counted is on one page that can be counted. -/
theorem existsUnique_page {rows : Int64} (hrows : 1 ≤ rows) {k : Int} (hk : 0 ≤ k)
    (hmax : k < Int64.maxValue.toInt) : ∃! page, IsPage page rows ∧ InWindow page rows k := by
  have hpos : 0 < rows.toInt := one_le_int64_iff.1 hrows
  have hnonneg : 0 ≤ k / rows.toInt := Int.ediv_nonneg hk (Int.le_of_lt hpos)
  have hle : k / rows.toInt ≤ k := Int.ediv_le_self _ hk
  have hlast := Int64.toInt_maxValue
  have hpage : (Int64.ofInt (k / rows.toInt + 1)).toInt = k / rows.toInt + 1 :=
    Int64.toInt_ofInt_of_le (by omega) (by omega)
  have hmem : InWindow (Int64.ofInt (k / rows.toInt + 1)) rows k := (inWindow_iff hrows).2 hpage
  refine ⟨Int64.ofInt (k / rows.toInt + 1), ⟨⟨?_, hrows, ?_⟩, hmem⟩, ?_⟩
  · rw [one_le_int64_iff, hpage]
    omega
  · exact Int.le_trans hmem.1 (Int.le_of_lt hmax)
  · rintro page ⟨-, hmem'⟩
    refine Int64.toInt_inj.1 ?_
    rw [hpage, (inWindow_iff hrows).1 hmem']

/-! ### Limits among the other clauses -/

variable {σ : Type} {d : Dialect}

open SqlAssembly.Except (Succeeds)

/-- A call for a page defers no error exactly if the page can be counted. -/
theorem SelectCall.pageError?_eq_none {page rows : Int64} :
    (SelectCall.page page rows : SelectCall σ).pageError? = none ↔ IsPage page rows := by
  rw [pageError?, IsPage, ← Int64.not_lt, ← Int64.not_lt, ← and_assoc, ← not_or]
  by_cases hpositive : page < 1 ∨ rows < 1
  · simp [hpositive]
  · by_cases hfits : (page.toInt - 1) * rows.toInt ≤ Int64.maxValue.toInt <;>
      simp [hpositive, hfits, pageOffset]

/-- A call that alone concerns a bucket can be made last. -/
theorem SelectCall.sameBuckets_last {before after : List (SelectCall σ)} {call : SelectCall σ}
    (h : ∀ c ∈ before ++ after, c.bucket ≠ call.bucket) :
    SameBuckets (before ++ call :: after) (before ++ after ++ [call]) := by
  intro b
  by_cases hb : call.bucket = b
  · have hnone : ∀ cs ⊆ before ++ after, cs.filter (fun c => c.bucket = b) = [] := by
      intro cs hcs
      refine List.filter_eq_nil_iff.2 fun c hc => ?_
      simpa [← hb] using h c (hcs hc)
    have hbefore := hnone before (List.subset_append_left _ _)
    have hafter := hnone after (List.subset_append_right _ _)
    simp [within, hb, hbefore, hafter]
  · simp [within, hb]

/-- Parts that bind nothing do not change how the parts around them are spelled. -/
theorem Sql.spellAll_plain {k : Nat} (front members : List Sql) {plain : List Sql}
    (h : valuesAll plain = []) :
    spellAll d k (front ++ plain ++ members)
      = spellAll d k front ++ plain.map d.spell
        ++ spellAll d (k + (valuesAll front).length) members := by
  rw [spellAll_append, spellAll_append, spellAll_of_valuesAll_eq_nil h, valuesAll_append, h,
    List.append_nil]

namespace Select

/-- A select with another limit and another offset. -/
def withRows (limit offset : Option Int64) (s : Select σ) : Select σ := { s with limit, offset }

/-- The clauses on which rows are taken, and that they are locked. -/
def rowsSql (s : Select σ) (limit offset : Option Int64) : List Sql :=
  present [limitSql limit offset, if s.forUpdate then Sql.text "FOR UPDATE" else []]

theorem valuesAll_rowsSql (s : Select σ) (limit offset : Option Int64) :
    Sql.valuesAll (s.rowsSql limit offset) = [] := by
  rw [rowsSql, Sql.valuesAll_present, Sql.valuesAll_cons, values_limitSql]
  cases s.forUpdate <;> rfl

theorem exists_tailSql_withRows {s : Select σ} {tail : List Sql} (h : s.tailSql = .ok tail) :
    ∃ orderBy, ∀ limit offset, ∃ tail', (s.withRows limit offset).tailSql = .ok tail'
      ∧ present tail' = present [orderBy] ++ s.rowsSql limit offset := by
  obtain ⟨orderBy, horderBy, -⟩ := Except.bind_eq_ok.1 h
  refine ⟨orderBy, fun limit offset => ⟨_, Except.bind_eq_ok.2 ⟨orderBy, horderBy, rfl⟩, ?_⟩⟩
  exact present_append [orderBy] _

/-- The clauses on the rows stand in front of the members of a union that goes on behind a select,
and behind everything else. Whether a select can be rendered does not depend on its limit and on its
offset. -/
theorem exists_render_withRows {s : Select Rendered} {sql : Sql} (h : s.render d = .ok sql) :
    ∃ front members, (s.items = [] ∨ s.unions = [] → members = [])
      ∧ ∀ limit offset, (s.withRows limit offset).render d
        = .ok (Sql.join " " (front ++ s.rowsSql limit offset ++ members)) := by
  obtain ⟨hcheck, h⟩ := render_eq_ok.1 h
  by_cases hitems : s.items.isEmpty = true
  · -- in a bare union the members come first
    rw [if_pos hitems] at h
    obtain ⟨members, tail, hmembers, htail, -⟩ := h
    obtain ⟨orderBy, htail⟩ := exists_tailSql_withRows htail
    refine ⟨members ++ present [orderBy], [], fun _ => rfl, fun limit offset => ?_⟩
    obtain ⟨tail', htail', hpresent⟩ := htail limit offset
    have hsame : (s.withRows limit offset).items.isEmpty = true := hitems
    refine render_eq_ok.2 ⟨hcheck, ?_⟩
    rw [if_pos hsame]
    refine ⟨members, tail', hmembers, htail', ?_⟩
    rw [hpresent, List.append_nil, List.append_assoc]
  · rw [if_neg hitems] at h
    obtain ⟨head, filter, tail, members, hhead, hfilter, htail, hmembers, -⟩ := h
    obtain ⟨orderBy, htail⟩ := exists_tailSql_withRows htail
    refine ⟨present (head ++ filter) ++ present [orderBy], members, ?_, fun limit offset => ?_⟩
    · rintro (hnone | hnone)
      · exact absurd (List.isEmpty_iff.2 hnone) hitems
      · rw [hnone] at hmembers
        cases hmembers
        rfl
    obtain ⟨tail', htail', hpresent⟩ := htail limit offset
    have hsame : ¬ (s.withRows limit offset).items.isEmpty = true := hitems
    refine render_eq_ok.2 ⟨hcheck, ?_⟩
    rw [if_neg hsame]
    refine ⟨head, filter, tail', members, hhead, hfilter, htail', hmembers, ?_⟩
    rw [present_append (head ++ filter), hpresent, List.append_assoc (present (head ++ filter))]

/-- With another limit and another offset a select binds the same values, and its text is the same
around its clauses on the rows. -/
theorem exists_assemble_withRows {s : Select Query} {a : Assembled}
    (ha : (Command.select s).assemble = .ok a) :
    ∃ front members, (s.items = [] ∨ s.unions = [] → members = [])
      ∧ ∀ limit offset, (Command.select (s.withRows limit offset)).assemble
        = .ok ⟨" ".intercalate (front ++ (s.rowsSql limit offset).map s.dialect.spell ++ members),
            a.values⟩ := by
  obtain ⟨sql, hsql, rfl⟩ := (assemble_eq_ok rfl).1 ha
  obtain ⟨front, members, hmembers, hrows⟩ := exists_render_withRows hsql
  refine ⟨Sql.spellAll s.dialect 0 front,
    Sql.spellAll s.dialect (0 + (Sql.valuesAll front).length) members, ?_, fun limit offset => ?_⟩
  · intro hnone
    rw [hmembers (by simpa [map] using hnone), Sql.spellAll_nil]
  have hsame := Except.ok.inj (hsql.symm.trans (hrows s.limit s.offset))
  have hplain := valuesAll_rowsSql s limit offset
  refine (assemble_eq_ok rfl).2 ⟨_, hrows limit offset, ?_⟩
  rw [Assembled.mk.injEq]
  constructor
  · rw [← Sql.spellAll_plain front members hplain, ← Sql.spell_join]
    rfl
  · show sql.values = _
    rw [hsame, Sql.values_join, Sql.values_join]
    simp only [Sql.valuesAll_append, valuesAll_rowsSql]

/-! ### The clause of a page -/

/-- The text of the clause that a page comes to. -/
def pageText (page rows : Int64) : String :=
  "LIMIT " ++ toString rows.toInt ++ " OFFSET " ++ toString (pageOffset page rows)

/-- The text of the clause that locks the rows, if there is one. -/
def lockText (s : Select σ) : List String := if s.forUpdate then ["FOR UPDATE"] else []

/-- The clause of a page. -/
theorem limitSql_page {page rows : Int64} (h : IsPage page rows) :
    limitSql (some rows) (some (Int64.ofInt (pageOffset page rows)))
      = Sql.text (pageText page rows) := by
  have hrows : ¬ rows < 0 := by
    have hpos := one_le_int64_iff.1 h.2.1
    rw [Int64.lt_iff_toInt_lt, Int64.toInt_zero]
    omega
  have hspaced : " OFFSET " = " " ++ "OFFSET " := rfl
  simp only [limitSql, if_neg hrows, h.toInt_ofInt, pageText, hspaced, String.append_assoc]

theorem map_spell_rowsSql_none (s : Select σ) :
    (s.rowsSql none none).map d.spell = s.lockText := by
  rw [rowsSql, lockText]
  cases s.forUpdate <;> simp [limitSql, present, Sql.text, Dialect.spell, Piece.spell]

theorem map_spell_rowsSql_page (s : Select σ) {page rows : Int64} (h : IsPage page rows) :
    (s.rowsSql (some rows) (some (Int64.ofInt (pageOffset page rows)))).map d.spell
      = pageText page rows :: s.lockText := by
  rw [rowsSql, limitSql_page h, lockText]
  cases s.forUpdate <;> simp [present, Sql.text, Dialect.spell, Piece.spell]

/-! ### Selects that take a page -/

/-- A page that can be counted becomes the limit and the offset of the select. -/
theorem build_page {before after : List (SelectCall σ)} {page rows : Int64}
    (hrows : ∀ call ∈ before ++ after, call.bucket ≠ .rows)
    (hcalls : SelectCall.NoneDefers (before ++ after)) (h : IsPage page rows) :
    build d (before ++ .page page rows :: after)
      = (build d (before ++ after)).withRows (some rows)
          (some (Int64.ofInt (pageOffset page rows))) := by
  have hlast : SelectCall.SameBuckets (before ++ .page page rows :: after)
      (before ++ after ++ [.page page rows]) := SelectCall.sameBuckets_last hrows
  have herror := SelectCall.pageError?_eq_none (σ := σ).2 h
  have hnone : SelectCall.NoneDefers (before ++ after ++ [.page page rows]) :=
    SelectCall.noneDefers_concat.2 ⟨hcalls, Option.or_eq_none_iff.2 ⟨rfl, herror⟩⟩
  rw [build_of_sameBuckets d hlast (hlast.noneDefers_iff.2 hnone), build_concat, apply,
    paginate_eq, herror]
  rfl

/-- Without a call about rows there is no limit and no offset. -/
theorem withRows_build {calls : List (SelectCall σ)} (h : ∀ call ∈ calls, call.bucket ≠ .rows) :
    (build d calls).withRows none none = build d calls := by
  have hnone : SelectCall.within .rows calls = [] :=
    List.filter_eq_nil_iff.2 fun call hcall => by simpa using h call hcall
  have honly := only_build d .rows calls
  rw [hnone] at honly
  have hlimit : (build d calls).limit = none := congrArg limit honly
  have hoffset : (build d calls).offset = none := congrArg offset honly
  have hself : (build d calls).withRows (build d calls).limit (build d calls).offset
      = build d calls := rfl
  rwa [hlimit, hoffset] at hself

/-- Assemble a select that takes a page, among other calls. -/
def assemblePage (d : Dialect) (before after : List (SelectCall Query)) (page rows : Int64) :
    Except SqlError Assembled :=
  (Command.select (build d (before ++ .page page rows :: after))).assemble

/-- A select that takes a page fails if the page cannot be counted, and else has the clause of the
page among the clauses of the select without it. -/
theorem exists_assemblePage {before after : List (SelectCall Query)}
    (hrows : ∀ call ∈ before ++ after, call.bucket ≠ .rows) {a : Assembled}
    (ha : (Command.select (build d (before ++ after))).assemble = .ok a) :
    (∀ page rows, ¬ IsPage page rows → ¬ Succeeds (assemblePage d before after page rows))
    ∧ ∃ front members, ((build d (before ++ after)).items = []
          ∨ (build d (before ++ after)).unions = [] → members = [])
      ∧ a.sql = " ".intercalate (front ++ (build d (before ++ after)).lockText ++ members)
      ∧ ∀ page rows, IsPage page rows → assemblePage d before after page rows
        = .ok ⟨" ".intercalate (front ++ pageText page rows
            :: (build d (before ++ after)).lockText ++ members), a.values⟩ := by
  -- a page is judged by itself, so another call that defers an error would fail without it too
  have hcalls : SelectCall.NoneDefers (before ++ after) := by
    by_contra hdefers
    obtain ⟨e, he, -⟩ := assemble_of_defers d hdefers
    rw [he] at ha
    cases ha
  obtain ⟨front, members, hmembers, hassemble⟩ := exists_assemble_withRows ha
  refine ⟨fun page rows hpage => ?_, front, members, hmembers, ?_, fun page rows hpage => ?_⟩
  · have herror := mt (SelectCall.pageError?_eq_none (σ := Query)).1 hpage
    have hdefers : ¬ SelectCall.NoneDefers (before ++ .page page rows :: after) := fun hnone =>
      herror ((SelectCall.noneDefers_iff.1 hnone).2 _ (by simp))
    obtain ⟨e, he, -⟩ := assemble_of_defers d hdefers
    exact Except.not_succeeds_iff.2 ⟨e, he⟩
  · have hnone := hassemble none none
    rw [withRows_build hrows, ha, map_spell_rowsSql_none] at hnone
    exact congrArg Assembled.sql (Except.ok.inj hnone)
  · have hpaged := hassemble (some rows) (some (Int64.ofInt (pageOffset page rows)))
    rw [← build_page hrows hcalls hpage, map_spell_rowsSql_page _ hpage] at hpaged
    exact hpaged

/-- A select that can be assembled, and in which nothing else is said about the rows that are taken,
can take exactly the pages whose number and length are positive and whose offset, counted exactly,
fits sixty-four bits. Such a page adds one clause with its length and its offset, in front of the
clause that locks the rows and of the members of a union that goes on behind the select. No two
pages of one length that can be taken share a row, and each row that can be counted, but the last
one, is on exactly one of them. -/
theorem assemble_page {before after : List (SelectCall Query)}
    (hrows : ∀ call ∈ before ++ after, call.bucket ≠ .rows) {a : Assembled}
    (ha : (Command.select (build d (before ++ after))).assemble = .ok a) :
    (∀ page rows, Succeeds (assemblePage d before after page rows)
      ↔ 1 ≤ page ∧ 1 ≤ rows ∧ (page.toInt - 1) * rows.toInt ≤ Int64.maxValue.toInt)
    ∧ (∃ front behind,
        ((build d (before ++ after)).items = [] ∨ (build d (before ++ after)).unions = [] →
          behind = [])
        ∧ a.sql = " ".intercalate (front ++ (build d (before ++ after)).lockText ++ behind)
        ∧ ∀ page rows a', assemblePage d before after page rows = .ok a' →
          a' = ⟨" ".intercalate (front ++ ("LIMIT " ++ toString rows.toInt ++ " OFFSET "
              ++ toString ((page.toInt - 1) * rows.toInt))
            :: (build d (before ++ after)).lockText ++ behind), a.values⟩)
    ∧ ∀ rows, 1 ≤ rows →
      (∀ page page', page ≠ page' → Succeeds (assemblePage d before after page rows) →
        Succeeds (assemblePage d before after page' rows) →
        ∀ k, ¬ (InWindow page rows k ∧ InWindow page' rows k))
      ∧ ∀ k : Int, 0 ≤ k → k < Int64.maxValue.toInt → ∃! page,
        Succeeds (assemblePage d before after page rows) ∧ InWindow page rows k := by
  obtain ⟨hrefused, front, behind, hbehind, hsql, htaken⟩ := exists_assemblePage hrows ha
  have haccepted (page rows : Int64) :
      Succeeds (assemblePage d before after page rows) ↔ IsPage page rows :=
    ⟨fun h => by_contra fun hpage => hrefused page rows hpage h, fun h => ⟨_, htaken page rows h⟩⟩
  refine ⟨haccepted, ⟨front, behind, hbehind, hsql, fun page rows a' ha' => ?_⟩,
    fun rows hrows => ⟨fun page page' hne _ _ k ⟨hk, hk'⟩ => not_inWindow_of_ne hrows hne hk hk',
      fun k hk hmax => ?_⟩⟩
  · have hpage := (haccepted page rows).1 ⟨a', ha'⟩
    exact Except.ok.inj (ha'.symm.trans (htaken page rows hpage))
  · simp only [haccepted]
    exact existsUnique_page hrows hk hmax

/-- The rows of a table that a condition keeps. -/
def filteredCalls : List (SelectCall Query) :=
  [.source (.table (.name "t") none) .all,
    .filter (.add .and { name := .name "k" } "=" (.value (.int 3)))]

/-- Of the pages of two rows, the last one that can be taken has the last row but one. -/
theorem assemble_page_filteredCalls :
    (∀ call ∈ filteredCalls ++ [.forUpdate], call.bucket ≠ .rows)
    ∧ (Command.select (build .generic (filteredCalls ++ [.forUpdate]))).assemble
      = .ok ⟨"SELECT \"t\".* FROM \"t\" WHERE (\"k\" = ?) FOR UPDATE", [.int 3]⟩
    ∧ assemblePage .generic filteredCalls [.forUpdate] 4611686018427387904 2 = .ok
      ⟨"SELECT \"t\".* FROM \"t\" WHERE (\"k\" = ?) LIMIT 2 OFFSET 9223372036854775806 FOR UPDATE",
        [.int 3]⟩
    ∧ ¬ Succeeds (assemblePage .generic filteredCalls [.forUpdate] 4611686018427387905 2)
    ∧ ∃! page, Succeeds (assemblePage .generic filteredCalls [.forUpdate] page 2)
      ∧ InWindow page 2 9223372036854775806 := by
  have hrows : ∀ call ∈ filteredCalls ++ [.forUpdate], call.bucket ≠ .rows := by decide
  obtain ⟨hsucceeds, -, htiles⟩ := assemble_page (d := .generic) hrows (a := ⟨_, _⟩) rfl
  refine ⟨hrows, rfl, rfl, ?_, (htiles 2 (by decide)).2 _ (by decide) (by decide)⟩
  rw [hsucceeds]
  decide

end Select

end SqlAssembly
