import SqlAssembly.Proofs.InsertRows
import SqlAssembly.Proofs.Query.Rows
import SqlAssembly.Proofs.Rendering
import SqlAssembly.Proofs.Renaming.Selects
import SqlAssembly.Proofs.UncheckedNames

/-!
# Renaming inserts, updates and deletes

The SQL of a statement on a table, of plain names and bound values, is renamed with the statement.
Which columns repeat, which value is for which column and which assignment wins is decided by the
equality of names, which an injective renaming keeps.
-/

namespace SqlAssembly

variable {r : Renaming} {σ τ : Type}

/-! ### Columns and values -/

/-- Without a record the column of the renamed name is the renamed column. -/
theorem leVia_columnName (name : String) :
    Except.LeVia (fun c c' => r c = c') (columnName none name) (columnName none (r name)) := by
  intro c hc
  obtain ⟨⟨column, alias?⟩, hcolumn, hc⟩ := Except.bind_eq_ok.1 hc
  obtain ⟨_, hcheck, hcolumn⟩ := Except.bind_eq_ok.1 hcolumn
  cases hcolumn
  cases hc
  exact ⟨r name, columnName_none (r.wellFormed (checkName_eq_ok.1 hcheck)), rfl⟩

theorem leVia_mapM_columnName (names : List String) :
    Except.LeVia (fun cs cs' => cs' = cs.map r) (names.mapM (columnName none))
      ((names.map r).mapM (columnName none)) := by
  intro cs hcs
  obtain ⟨cs', hcs', hrenamed⟩ :=
    Except.leVia_mapM_map r (fun name _ => leVia_columnName (r := r) name) cs hcs
  have heq := List.forall₂_map_left_iff.2 hrenamed
  rw [List.forall₂_eq_eq_eq] at heq
  exact ⟨cs', hcs', heq.symm⟩

/-- A plain operand and the renamed operand. -/
def Operand.Renamed (r : Renaming) (o o' : Operand σ) : Prop := o.isPlain ∧ o' = o.rename r

/-- A plain operand under a column, and the renamed operand under the renamed column. -/
def Entries.Renamed (r : Renaming) (e e' : String × Operand σ) : Prop :=
  e'.1 = r e.1 ∧ Operand.Renamed r e.2 e'.2

theorem Operand.Renamed.leVia_render {o o' : Operand Rendered} (h : Renamed r o o') :
    Except.LeVia (Option.Rel (Sql.Renamed r)) (o.render none) (o'.render none) := by
  obtain ⟨hplain, rfl⟩ := h
  exact Operand.leVia_render hplain

/-- Storing under renamed keys gives renamed entries. -/
theorem Entries.renamed_put {es es' : List (String × Operand σ)} {e e' : String × Operand σ}
    (hes : List.Forall₂ (Renamed r) es es') (he : Renamed r e e') :
    List.Forall₂ (Renamed r) (put e.1 e.2 es) (put e'.1 e'.2 es') := by
  induction hes with
  | nil => exact .cons he .nil
  | @cons b b' bs bs' hb hbs ih =>
    have hkey : b'.1 = e'.1 ↔ b.1 = e.1 := by rw [hb.1, he.1, r.apply_eq_apply]
    by_cases h : b.1 = e.1
    · rw [put, put, if_pos h, if_pos (hkey.2 h)]
      exact .cons he hbs
    · rw [put, put, if_neg h, if_neg (fun h' => h (hkey.1 h'))]
      exact .cons hb ih

theorem OrderedMap.renamed_ofEntries {es es' : List (String × Operand σ)}
    (h : List.Forall₂ (Entries.Renamed r) es es') :
    List.Forall₂ (Entries.Renamed r) (ofEntries es).entries (ofEntries es').entries := by
  have hrun (m m' : OrderedMap (Operand σ))
      (hm : List.Forall₂ (Entries.Renamed r) m.entries m'.entries) :
      List.Forall₂ (Entries.Renamed r) (es.foldl (fun m e => m.put e.1 e.2) m).entries
        (es'.foldl (fun m e => m.put e.1 e.2) m').entries := by
    induction h generalizing m m' with
    | nil => exact hm
    | cons he _ ih => exact ih _ _ (Entries.renamed_put hm he)
  exact hrun empty empty .nil

namespace Assignment

def rename (r : Renaming) (a : Assignment σ) : Assignment σ := ⟨r a.name, a.operand.rename r⟩

@[simp] theorem rename_map (f : σ → τ) (a : Assignment σ) :
    (a.map f).rename r = (a.rename r).map f := by
  simp [rename, map]

theorem leVia_resolveAll {as : List (Assignment σ)} (h : as.all fun a => a.operand.isPlain) :
    Except.LeVia (List.Forall₂ (Entries.Renamed r)) (resolveAll none as)
      (resolveAll none (as.map (rename r))) := by
  refine Except.leVia_mapM_map (rename r) fun a ha =>
    (leVia_columnName a.name).bind fun c c' hc => ?_
  subst hc
  exact Except.leVia_ok ⟨rfl, List.all_eq_true.1 h a ha, rfl⟩

end Assignment

/-! ### Inserts -/

namespace Row

def rename (r : Renaming) : Row σ → Row σ
  | positional operands => positional (operands.map (Operand.rename r))
  | named assignments => named (assignments.map (Assignment.rename r))

/-- Whether all values are plain. -/
def isPlain : Row σ → Bool
  | positional operands => operands.all Operand.isPlain
  | named assignments => assignments.all fun a => a.operand.isPlain

@[simp] theorem rename_map (f : σ → τ) (row : Row σ) :
    (row.map f).rename r = (row.rename r).map f := by
  cases row <;> simp [rename, map]

@[simp] theorem isPlain_map (f : σ → τ) (row : Row σ) : (row.map f).isPlain = row.isPlain := by
  cases row <;> simp [isPlain, map, Function.comp_def, Assignment.map]

end Row

namespace Insert

def rename (r : Renaming) (s : Insert σ) : Insert σ :=
  { s with
    target := s.target.map (Source.rename r)
    fields := s.fields.map r
    rows := s.rows.map (Row.rename r)
    returning := s.returning.map (Columns.rename r) }

/-- Whether all parts of the insert are plain. -/
def isPlain (s : Insert σ) : Bool :=
  s.target.all Source.isPlain && s.rows.all Row.isPlain && s.returning.all Columns.isPlain

@[simp] theorem rename_map (f : σ → τ) (s : Insert σ) :
    (s.map f).rename r = (s.rename r).map f := by
  simp [rename, map, Function.comp_def]

@[simp] theorem isPlain_map (f : σ → τ) (s : Insert σ) : (s.map f).isPlain = s.isPlain := by
  cases htarget : s.target <;> simp [isPlain, map, htarget, Function.comp_def]

theorem isPlain_iff {s : Insert σ} :
    s.isPlain ↔ s.target.all Source.isPlain ∧ s.rows.all Row.isPlain
      ∧ s.returning.all Columns.isPlain := by
  simp only [isPlain, Bool.and_eq_true, and_assoc]

theorem givenNames_rename (s : Insert σ) : (s.rename r).givenNames = s.givenNames.map r := by
  have hnamed : ((s.rows.map (Row.rename r)).findSome? Row.named?).getD []
      = ((s.rows.findSome? Row.named?).getD []).map (Assignment.rename r) := by
    induction s.rows with
    | nil => rfl
    | cons row rows ih => cases row <;> simp [Row.rename, List.findSome?_cons, Row.named?, ih]
  simp only [givenNames, rename, hnamed, List.isEmpty_map]
  split <;> simp [Assignment.rename]

/-- The columns are renamed, and they are repeated only if they were. -/
theorem leVia_columns (s : Insert σ) :
    Except.LeVia (fun cs cs' => cs' = cs.map r) (s.columns none) ((s.rename r).columns none) := by
  have hgiven : Except.LeVia (fun cs cs' => cs' = cs.map r) (s.givenColumns none)
      ((s.rename r).givenColumns none) := by
    rw [givenColumns_eq, givenColumns_eq, givenNames_rename]
    exact leVia_mapM_columnName s.givenNames
  intro columns hcolumns
  obtain ⟨hs, hne, hnodup⟩ := columns_eq_ok.1 hcolumns
  obtain ⟨columns', hs', rfl⟩ := hgiven columns hs
  exact ⟨_, columns_eq_ok.2 ⟨hs', by simpa using hne, hnodup.map r.injective⟩, rfl⟩

theorem leVia_operandFor (number : Nat) {es es' : List (String × Operand σ)}
    (h : List.Forall₂ (Entries.Renamed r) es es') (column : String) :
    Except.LeVia (Operand.Renamed r) (operandFor number es column)
      (operandFor number es' (r column)) := by
  induction h with
  | nil => exact Except.leVia_error _ _
  | @cons e e' es es' he _ ih =>
    have hkey : (e'.1 == r column) = (e.1 == column) := by
      rw [he.1, Bool.eq_iff_iff, beq_iff_eq, beq_iff_eq, r.apply_eq_apply]
    unfold operandFor at ih ⊢
    rw [List.find?_cons, List.find?_cons, hkey]
    cases e.1 == column with
    | true => exact Except.leVia_ok he.2
    | false => exact ih

theorem leVia_orderRow (columns : List String) (number : Nat) {row : Row σ} (h : row.isPlain) :
    Except.LeVia (List.Forall₂ (Operand.Renamed r)) (orderRow none columns number row)
      (orderRow none (columns.map r) number (row.rename r)) := by
  cases row with
  | positional operands =>
    simp only [Row.rename, orderRow, List.length_map]
    split
    · refine Except.leVia_ok (List.forall₂_map_right_iff.2 (List.forall₂_same.2 fun o ho => ?_))
      exact ⟨List.all_eq_true.1 h o ho, rfl⟩
    · exact Except.leVia_error _ _
  | named assignments =>
    refine (Assignment.leVia_resolveAll h).bind fun es es' hes => ?_
    rw [← hes.length_eq, List.length_map]
    split
    · exact Except.leVia_error _ _
    · exact Except.leVia_mapM_map r fun column _ => leVia_operandFor number hes column

theorem leVia_orderRows (columns : List String) (number : Nat) {rows : List (Row σ)}
    (h : rows.all Row.isPlain) :
    Except.LeVia (List.Forall₂ (List.Forall₂ (Operand.Renamed r)))
      (orderRows none columns number rows)
      (orderRows none (columns.map r) number (rows.map (Row.rename r))) := by
  induction rows generalizing number with
  | nil => exact Except.leVia_ok .nil
  | cons row rows ih =>
    obtain ⟨hrow, hrows⟩ : row.isPlain = true ∧ rows.all Row.isPlain = true := by simpa using h
    exact (leVia_orderRow columns number hrow).bind fun _ _ hfirst =>
      (ih _ hrows).bind fun _ _ hrest => Except.leVia_ok (.cons hfirst hrest)

theorem leVia_valuesSql (number : Nat) (columns : List String)
    {operands operands' : List (Operand Rendered)}
    (h : List.Forall₂ (Operand.Renamed r) operands operands') :
    Except.LeVia (List.Forall₂ (Sql.Renamed r)) (valuesSql none number columns operands)
      (valuesSql none number (columns.map r) operands') := by
  induction h generalizing columns with
  | nil => cases columns <;> exact Except.leVia_ok .nil
  | cons ho _ ih =>
    cases columns with
    | nil => exact Except.leVia_ok .nil
    | cons column columns =>
      refine ho.leVia_render.bind fun sql? sql?' hsql => ?_
      cases hsql with
      | none => exact Except.leVia_error _ _
      | some hsql =>
        exact (ih columns).bind fun _ _ hrest => Except.leVia_ok (.cons hsql hrest)

theorem leVia_rowsSql (columns : List String) (number : Nat)
    {rows rows' : List (List (Operand Rendered))}
    (h : List.Forall₂ (List.Forall₂ (Operand.Renamed r)) rows rows') :
    Except.LeVia (List.Forall₂ (Sql.Renamed r)) (rowsSql none columns number rows)
      (rowsSql none (columns.map r) number rows') := by
  induction h generalizing number with
  | nil => exact Except.leVia_ok .nil
  | cons hrow _ ih =>
    refine (leVia_valuesSql number columns hrow).bind fun _ _ hparts =>
      (ih _).bind fun _ _ hrest => Except.leVia_ok (.cons (.parenthesized ?_) hrest)
    exact .join _ (by decide) hparts

/-- The SQL of a plain insert is renamed with the insert. -/
theorem leVia_render {s : Insert Rendered} (h : s.isPlain) :
    Except.LeVia (Sql.Renamed r) s.render (s.rename r).render := by
  obtain ⟨htarget, hrows, hreturning⟩ := isPlain_iff.1 h
  have hrenamedTarget : (s.rename r).target = s.target.map (Source.rename r) := rfl
  have hempty : (s.rename r).rows.isEmpty = s.rows.isEmpty := List.isEmpty_map
  unfold render
  rw [show (s.rename r).deferred = s.deferred from rfl, hrenamedTarget, hempty]
  cases s.deferred with
  | some e => exact Except.leVia_error e _
  | none =>
    cases hsource : s.target with
    | none => exact Except.leVia_error _ _
    | some source =>
      have hplain : source.isPlain = true := by simpa [hsource] using htarget
      have hrenamed : (source.rename r).isPlain = true := by rwa [Source.isPlain_rename]
      simp only [Option.map_some, Source.recordType?_of_isPlain hplain,
        Source.recordType?_of_isPlain hrenamed]
      refine (Source.leVia_asTarget .insert hplain).bind fun target target' htarget => ?_
      split
      · exact Except.leVia_error _ _
      · refine (leVia_columns s).bind fun columns _ hcolumns => ?_
        subst hcolumns
        have hnames : List.Forall₂ (Sql.Renamed r) (columns.map fun c => [.name c])
            ((columns.map r).map fun c => [.name c]) := by
          rw [List.map_map, List.forall₂_map_left_iff, List.forall₂_map_right_iff,
            List.forall₂_same]
          exact fun c _ => .name c
        refine (leVia_orderRows columns 1 hrows).bind fun ordered ordered' hordered => ?_
        refine (leVia_rowsSql columns 1 hordered).bind fun rows rows' hparts => ?_
        refine (leVia_returningClause hreturning).bind fun returning returning' hreturning =>
          Except.leVia_ok ?_
        have hinto := Sql.Renamed.text_append (s := "INSERT INTO ") (by decide) htarget.sql
        have hcolumns := hinto.append_text_append (s := " (") (by decide)
          (.join ", " (by decide) hnames)
        have hvalues := hcolumns.append_text_append (s := ") VALUES ") (by decide)
          (.join ", " (by decide) hparts)
        exact hvalues.append hreturning

end Insert

/-! ### Updates -/

namespace Update

def rename (r : Renaming) (s : Update σ) : Update σ :=
  { s with
    target := s.target.map (Source.rename r)
    fields := s.fields.map r
    positional := s.positional.map (List.map (Operand.rename r))
    assignments := s.assignments.map (Assignment.rename r)
    filter := s.filter.rename r
    returning := s.returning.map (Columns.rename r) }

/-- Whether all parts of the update are plain. -/
def isPlain (s : Update σ) : Bool :=
  s.target.all Source.isPlain && s.positional.all (List.all · Operand.isPlain)
    && (s.assignments.all fun a => a.operand.isPlain) && s.filter.isPlain
    && s.returning.all Columns.isPlain

@[simp] theorem rename_map (f : σ → τ) (s : Update σ) :
    (s.map f).rename r = (s.rename r).map f := by
  simp [rename, map, Function.comp_def]

@[simp] theorem isPlain_map (f : σ → τ) (s : Update σ) : (s.map f).isPlain = s.isPlain := by
  cases htarget : s.target <;> cases hpositional : s.positional <;>
    simp [isPlain, map, htarget, hpositional, Function.comp_def, Assignment.map]

theorem isPlain_iff {s : Update σ} :
    s.isPlain ↔ s.target.all Source.isPlain ∧ s.positional.all (List.all · Operand.isPlain)
      ∧ (s.assignments.all fun a => a.operand.isPlain) ∧ s.filter.isPlain
      ∧ s.returning.all Columns.isPlain := by
  simp only [isPlain, Bool.and_eq_true, and_assoc]

theorem leVia_positionalAssignments {s : Update σ}
    (h : s.positional.all (List.all · Operand.isPlain)) :
    Except.LeVia (fun as as' => as.all (fun a => a.operand.isPlain)
        ∧ as' = as.map (Assignment.rename r))
      s.positionalAssignments (s.rename r).positionalAssignments := by
  unfold positionalAssignments
  rw [show (s.rename r).positional = s.positional.map (List.map (Operand.rename r)) from rfl,
    show (s.rename r).fields = s.fields.map r from rfl]
  cases hpositional : s.positional with
  | none => exact Except.leVia_ok ⟨rfl, rfl⟩
  | some operands =>
    have hplain : ∀ o ∈ operands, o.isPlain = true := by simpa [hpositional] using h
    simp only [Option.map_some, List.length_map]
    split
    · refine Except.leVia_ok ⟨?_, ?_⟩
      · rw [List.all_eq_true, ← List.map_uncurry_zip_eq_zipWith]
        exact List.forall_mem_map.2 fun e he => hplain e.2 (List.of_mem_zip he).2
      · rw [List.zipWith_map, List.map_zipWith]
        rfl
    · exact Except.leVia_error _ _

/-- The last assignment to a column wins, and the first gives its place, as before. -/
theorem leVia_merged {s : Update σ} (hpositional : s.positional.all (List.all · Operand.isPlain))
    (hassignments : s.assignments.all fun a => a.operand.isPlain) :
    Except.LeVia (fun m m' => List.Forall₂ (Entries.Renamed r) m.entries m'.entries)
      (s.merged none) ((s.rename r).merged none) := by
  refine (leVia_positionalAssignments hpositional).bind fun as _ has => ?_
  obtain ⟨has, rfl⟩ := has
  have hall : (as ++ s.assignments).all fun a => a.operand.isPlain := by
    rw [List.all_append, has, hassignments]
    rfl
  rw [show (s.rename r).assignments = s.assignments.map (Assignment.rename r) from rfl,
    ← List.map_append]
  refine (Assignment.leVia_resolveAll hall).bind fun es es' hes => ?_
  have hentries := OrderedMap.renamed_ofEntries hes
  have hempty : (OrderedMap.ofEntries es').entries.isEmpty
      = (OrderedMap.ofEntries es).entries.isEmpty := by
    rw [Bool.eq_iff_iff, List.isEmpty_iff_length_eq_zero, List.isEmpty_iff_length_eq_zero,
      hentries.length_eq]
  dsimp only
  rw [hempty]
  split
  · exact Except.leVia_error _ _
  · exact Except.leVia_ok hentries

theorem leVia_assignmentSql {e e' : String × Operand Rendered} (h : Entries.Renamed r e e') :
    Except.LeVia (Sql.Renamed r) (assignmentSql none e.1 e.2) (assignmentSql none e'.1 e'.2) := by
  refine h.2.leVia_render.bind fun sql? sql?' hsql => ?_
  rw [h.1]
  cases hsql with
  | none => exact Except.leVia_error _ _
  | some hsql =>
    exact Except.leVia_ok ((Sql.Renamed.name e.1).append_text_append (by decide) hsql)

/-- The SQL of a plain update is renamed with the update. -/
theorem leVia_render {d : Dialect} (hquote : d.quoteIdentifier = doubleQuoted)
    {s : Update Rendered} (h : s.isPlain) :
    Except.LeVia (Sql.Renamed r) (s.render d) ((s.rename r).render d) := by
  obtain ⟨htarget, hpositional, hassignments, hfilter, hreturning⟩ := isPlain_iff.1 h
  have hrenamedTarget : (s.rename r).target = s.target.map (Source.rename r) := rfl
  have hcheck : (s.rename r).filter.check = s.filter.check := Condition.check_rename s.filter
  unfold render
  rw [show (s.rename r).deferred = s.deferred from rfl, hrenamedTarget, hcheck]
  cases s.deferred with
  | some e => exact Except.leVia_error e _
  | none =>
    refine (Except.leVia_refl s.filter.check).bind fun _ _ _ => ?_
    cases hsource : s.target with
    | none => exact Except.leVia_error _ _
    | some source =>
      have hplain : source.isPlain = true := by simpa [hsource] using htarget
      have hrenamed : (source.rename r).isPlain = true := by rwa [Source.isPlain_rename]
      simp only [Option.map_some, Source.recordType?_of_isPlain hplain,
        Source.recordType?_of_isPlain hrenamed]
      refine (Source.leVia_asTarget .update hplain).bind fun target target' htarget => ?_
      refine (leVia_merged hpositional hassignments).bind fun m m' hm => ?_
      refine (Except.leVia_mapM hm fun _ _ he => leVia_assignmentSql he).bind
        fun parts parts' hparts => ?_
      refine (Condition.leVia_renderClause hquote (by decide) hfilter).bind
        fun filter filter' hfilter => ?_
      refine (leVia_returningClause hreturning).bind fun returning returning' hreturning =>
        Except.leVia_ok ?_
      have hupdate := Sql.Renamed.text_append (s := "UPDATE ") (by decide) htarget.sql
      have hset := hupdate.append_text_append (s := " SET ") (by decide)
        (.join ", " (by decide) hparts)
      exact (hset.append hfilter).append hreturning

end Update

/-! ### Deletes -/

namespace Delete

def rename (r : Renaming) (s : Delete σ) : Delete σ :=
  { s with
    target := s.target.map (Source.rename r)
    filter := s.filter.rename r
    returning := s.returning.map (Columns.rename r) }

/-- Whether all parts of the delete are plain. -/
def isPlain (s : Delete σ) : Bool :=
  s.target.all Source.isPlain && s.filter.isPlain && s.returning.all Columns.isPlain

@[simp] theorem rename_map (f : σ → τ) (s : Delete σ) :
    (s.map f).rename r = (s.rename r).map f := by
  simp [rename, map, Function.comp_def]

@[simp] theorem isPlain_map (f : σ → τ) (s : Delete σ) : (s.map f).isPlain = s.isPlain := by
  cases htarget : s.target <;> simp [isPlain, map, htarget]

theorem isPlain_iff {s : Delete σ} :
    s.isPlain ↔ s.target.all Source.isPlain ∧ s.filter.isPlain
      ∧ s.returning.all Columns.isPlain := by
  simp only [isPlain, Bool.and_eq_true, and_assoc]

/-- The SQL of a plain delete is renamed with the delete. -/
theorem leVia_render {d : Dialect} (hquote : d.quoteIdentifier = doubleQuoted)
    {s : Delete Rendered} (h : s.isPlain) :
    Except.LeVia (Sql.Renamed r) (s.render d) ((s.rename r).render d) := by
  obtain ⟨htarget, hfilter, hreturning⟩ := isPlain_iff.1 h
  have hrenamedTarget : (s.rename r).target = s.target.map (Source.rename r) := rfl
  have hcheck : (s.rename r).filter.check = s.filter.check := Condition.check_rename s.filter
  unfold render
  rw [hrenamedTarget, hcheck]
  refine (Except.leVia_refl s.filter.check).bind fun _ _ _ => ?_
  cases hsource : s.target with
  | none => exact Except.leVia_error _ _
  | some source =>
    have hplain : source.isPlain = true := by simpa [hsource] using htarget
    have hrenamed : (source.rename r).isPlain = true := by rwa [Source.isPlain_rename]
    simp only [Option.map_some, Source.recordType?_of_isPlain hplain,
      Source.recordType?_of_isPlain hrenamed]
    refine (Source.leVia_asTarget .delete hplain).bind fun target target' htarget => ?_
    refine (Condition.leVia_renderClause hquote (by decide) hfilter).bind
      fun filter filter' hfilter => ?_
    refine (leVia_returningClause hreturning).bind fun returning returning' hreturning =>
      Except.leVia_ok ?_
    have hfrom := Sql.Renamed.text_append (s := "DELETE FROM ") (by decide) htarget.sql
    exact (hfrom.append hfilter).append hreturning

end Delete

end SqlAssembly
