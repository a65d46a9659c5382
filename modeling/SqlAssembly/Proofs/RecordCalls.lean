import SqlAssembly.Proofs.KeptErrors

/-!
# Instances filled by calls

What a run of calls leaves in a new record instance is an ordered partial map, in whatever order the
calls come: each field that is selected by a call, in declaration order and once, with the value of
the last call that selects it (`RecordInstance.columnValues_ofCalls`). A call selects a field by its
attribute or by its column, so one field may be selected by two names.
-/

namespace SqlAssembly

/-- What satisfies a condition is found wherever it stands, if nothing else satisfies it. -/
theorem find?_eq_of_perm {α : Type} {p : α → Bool} {as bs : List α} (h : as.Perm bs)
    (hone : as.Pairwise fun a b => ¬ (p a = true ∧ p b = true)) : as.find? p = bs.find? p := by
  rw [← List.head?_filter, ← List.head?_filter]
  have hfilter := h.filter p
  match hcase : as.filter p with
  | [] =>
    rw [hcase] at hfilter
    rw [List.nil_perm.1 hfilter]
  | [a] =>
    rw [hcase] at hfilter
    rw [List.singleton_perm.1 hfilter]
  | a :: b :: rest =>
    have hpairs : (a :: b :: rest).Pairwise fun a b => ¬ (p a = true ∧ p b = true) :=
      hcase ▸ hone.filter p
    have hp : ∀ c ∈ a :: b :: rest, p c = true := fun c hc =>
      (List.mem_filter.1 (hcase.symm ▸ hc)).2
    exact absurd ⟨hp a (by simp), hp b (by simp)⟩ ((List.pairwise_cons.1 hpairs).1 b (by simp))

/-! ### Selection -/

namespace RecordType

variable {t : RecordType} {name : String} {p : String × String}

/-- A name selects the first field that is declared of which it is the attribute or the column. -/
def Selects (t : RecordType) (name : String) (p : String × String) : Prop :=
  ∃ before after, t.pairs = before ++ p :: after ∧ (p.1 = name ∨ p.2 = name)
    ∧ ∀ q ∈ before, q.1 ≠ name ∧ q.2 ≠ name

theorem selects_iff_find? :
    t.Selects name p ↔ t.pairs.find? (fun q => q.1 == name || q.2 == name) = some p := by
  rw [List.find?_eq_some_iff_append, Selects]
  constructor
  · rintro ⟨before, after, hpairs, hp, hbefore⟩
    exact ⟨by simpa using hp, before, after, hpairs, fun q hq => by simpa using hbefore q hq⟩
  · rintro ⟨hp, before, after, hpairs, hbefore⟩
    exact ⟨before, after, hpairs, by simpa using hp, fun q hq => by simpa using hbefore q hq⟩

theorem Selects.mem (h : t.Selects name p) : p ∈ t.pairs := by
  obtain ⟨before, after, hpairs, -⟩ := h
  simp [hpairs]

theorem selects_iff_attribute? (hp : p ∈ t.pairs) :
    t.Selects name p ↔ t.attribute? name = some p.1 := by
  rw [selects_iff_find?, attribute?, Option.map_eq_some_iff]
  constructor
  · intro h
    exact ⟨p, h, rfl⟩
  · rintro ⟨q, hq, hattr⟩
    rwa [eq_of_fst_eq (List.mem_of_find?_eq_some hq) hp hattr] at hq

/-- A name selects no field exactly if no attribute can be set by it. -/
theorem attribute?_eq_none : t.attribute? name = none ↔ ∀ p, ¬ t.Selects name p := by
  rw [attribute?, Option.map_eq_none_iff]
  simp only [selects_iff_find?, Option.eq_none_iff_forall_ne_some, ne_eq]

theorem exists_selects : (∃ p, t.Selects name p) ↔ t.attribute? name ≠ none := by
  rw [ne_eq, attribute?_eq_none, not_forall_not]

/-- Calls that each select a field, no two of them the same. -/
structure SelectDistinct (t : RecordType) (calls : List (String × Value)) : Prop where
  selects : ∀ c ∈ calls, ∃ p, t.Selects c.1 p
  distinct : calls.Pairwise fun c d => ∀ p, t.Selects c.1 p → ¬ t.Selects d.1 p

theorem SelectDistinct.pairwise_ne {calls : List (String × Value)} (h : t.SelectDistinct calls) :
    calls.Pairwise fun c d => t.attribute? c.1 ≠ t.attribute? d.1 := by
  refine h.distinct.imp_of_mem fun hc _ hdistinct heq => ?_
  obtain ⟨p, hp⟩ := h.selects _ hc
  have hattr := (selects_iff_attribute? hp.mem).1 hp
  exact hdistinct p hp ((selects_iff_attribute? hp.mem).2 (heq ▸ hattr))

end RecordType

/-! ### The values of a run -/

namespace RecordInstance

variable {type : RecordType}

/-- A new instance after names are set to values, one after the other. -/
def ofCalls (type : RecordType) (calls : List (String × Value)) : RecordInstance :=
  calls.foldl (fun r c => r.set c.1 c.2) { type }

theorem ofCalls_eq_fill (calls : List (String × Value)) :
    ofCalls type calls = fill type (calls.map fun c => .set c.1 c.2) := by
  rw [ofCalls, fill, List.foldl_map]
  rfl

theorem ofCalls_concat (calls : List (String × Value)) (c : String × Value) :
    ofCalls type (calls ++ [c]) = (ofCalls type calls).set c.1 c.2 := by
  simp [ofCalls]

theorem set_of_attribute? {r : RecordInstance} {name attr : String} {v : Value}
    (h : r.type.attribute? name = some attr) :
    r.set name v = { r with values := r.values.put attr v } := by
  simp [set, set?, h]

theorem set_of_attribute?_eq_none {r : RecordInstance} {name : String} {v : Value}
    (h : r.type.attribute? name = none) :
    r.set name v
      = { r with error := r.error.or (some (.unknownAttribute name r.type.table)) } := by
  simp [set, set?, h]

@[simp] theorem type_set (r : RecordInstance) (name : String) (v : Value) :
    (r.set name v).type = r.type :=
  r.type_apply (.set name v)

@[simp] theorem type_ofCalls (calls : List (String × Value)) :
    (ofCalls type calls).type = type := by
  induction calls using List.reverseRecOn with
  | nil => rfl
  | append_singleton calls c ih => rw [ofCalls_concat, type_set, ih]

/-- The value of an attribute is that of the last call that selects it. -/
theorem get?_values_ofCalls (calls : List (String × Value)) (attr : String) :
    (ofCalls type calls).values.get? attr
      = (calls.reverse.find? fun c => type.attribute? c.1 == some attr).map Prod.snd := by
  induction calls using List.reverseRecOn with
  | nil => rfl
  | append_singleton calls c ih =>
    rw [ofCalls_concat, List.reverse_append, List.reverse_singleton, List.singleton_append,
      List.find?_cons]
    cases hattr : type.attribute? c.1 with
    | none =>
      rw [set_of_attribute?_eq_none (by rw [type_ofCalls, hattr])]
      exact ih
    | some selected =>
      rw [set_of_attribute? (by rw [type_ofCalls, hattr]), OrderedMap.get?_put, ih]
      by_cases h : selected = attr
      · simp [h]
      · simp [h, beq_eq_false_iff_ne.2 h]

/-- The error of a call that selects no field. -/
def callError? (type : RecordType) (c : String × Value) : Option SqlError :=
  if type.attribute? c.1 = none then some (.unknownAttribute c.1 type.table) else none

theorem callError?_eq_none {c : String × Value} :
    callError? type c = none ↔ ∃ p, type.Selects c.1 p := by
  rw [RecordType.exists_selects, callError?]
  by_cases h : type.attribute? c.1 = none <;> simp [h]

/-- The error that is kept is that of the first call that selects no field. -/
theorem error_ofCalls (calls : List (String × Value)) :
    (ofCalls type calls).error = calls.findSome? (callError? type) := by
  have hcolumn (name : String) : type.column? name = none ↔ type.attribute? name = none := by
    simpa using congrArg (· = false) (RecordType.isSome_column? (t := type) (n := name))
  rw [ofCalls_eq_fill, error_fill, List.findSome?_map]
  congr 1
  funext c
  simp only [Function.comp_apply, InstanceCall.error?, callError?, hcolumn]

/-- Fields with values as a run of calls leaves them in a new instance. -/
structure IsFilledBy (type : RecordType) (calls : List (String × Value))
    (filled : List ((String × String) × Value)) : Prop where
  /-- The fields come in declaration order. -/
  order : (filled.map Prod.fst).Sublist type.pairs
  nodup : (filled.map fun f => f.1.1).Nodup
  mem_iff : ∀ p, p ∈ filled.map Prod.fst ↔ ∃ c ∈ calls, type.Selects c.1 p
  last : ∀ f ∈ filled, ∃ before name after, calls = before ++ (name, f.2) :: after
    ∧ type.Selects name f.1 ∧ ∀ c ∈ after, ¬ type.Selects c.1 f.1

/-- The fields that have a value in an instance. -/
def filled (r : RecordInstance) : List ((String × String) × Value) :=
  r.type.pairs.filterMap fun p => (r.values.get? p.1).map fun v => (p, v)

theorem columnValues_row (r : RecordInstance) :
    r.row.columnValues = r.filled.map fun f => (f.1.2, f.2) := by
  simp [filled, RecordRow.columnValues, row, List.map_filterMap, Function.comp_def]

theorem mem_filled {r : RecordInstance} {p : String × String} {v : Value} :
    (p, v) ∈ r.filled ↔ p ∈ r.type.pairs ∧ r.values.get? p.1 = some v := by
  simp only [filled, List.mem_filterMap, Option.map_eq_some_iff, Prod.mk.injEq]
  constructor
  · rintro ⟨q, hq, w, hw, rfl, rfl⟩
    exact ⟨hq, hw⟩
  · rintro ⟨hp, hv⟩
    exact ⟨p, hp, v, hv, rfl, rfl⟩

theorem map_fst_filled (r : RecordInstance) :
    r.filled.map Prod.fst = r.type.pairs.filter fun p => (r.values.get? p.1).isSome := by
  rw [filled, List.map_filterMap, ← List.filterMap_eq_filter]
  refine List.filterMap_congr fun p _ => ?_
  cases hv : r.values.get? p.1 <;> simp [Option.guard, hv]

/-- Each field that is selected has the value of the last call that selects it. -/
theorem isFilledBy_ofCalls (type : RecordType) (calls : List (String × Value)) :
    IsFilledBy type calls (ofCalls type calls).filled := by
  have horder : ((ofCalls type calls).filled.map Prod.fst).Sublist type.pairs := by
    rw [map_fst_filled, type_ofCalls]
    exact List.filter_sublist
  refine ⟨horder, ?_, fun p => ?_, ?_⟩
  · have hkeys := horder.map Prod.fst
    rw [List.map_map] at hkeys
    exact type.fields.nodup.sublist hkeys
  · rw [map_fst_filled, List.mem_filter, type_ofCalls, get?_values_ofCalls, Option.isSome_map,
      List.find?_isSome]
    simp only [List.mem_reverse, beq_iff_eq]
    constructor
    · rintro ⟨hp, c, hc, hselect⟩
      exact ⟨c, hc, (RecordType.selects_iff_attribute? hp).2 hselect⟩
    · rintro ⟨c, hc, hselect⟩
      exact ⟨hselect.mem, c, hc, (RecordType.selects_iff_attribute? hselect.mem).1 hselect⟩
  · rintro ⟨p, v⟩ hfilled
    obtain ⟨hp, hv⟩ := mem_filled.1 hfilled
    rw [type_ofCalls] at hp
    rw [get?_values_ofCalls, Option.map_eq_some_iff] at hv
    obtain ⟨⟨name, _⟩, hfind, rfl⟩ := hv
    obtain ⟨hname, after, before, hcalls, hafter⟩ := List.find?_eq_some_iff_append.1 hfind
    refine ⟨before.reverse, name, after.reverse, ?_, ?_, fun c hc hselect => ?_⟩
    · rw [← List.reverse_reverse calls, hcalls]
      simp
    · exact (RecordType.selects_iff_attribute? hp).2 (by simpa using hname)
    · have hne := hafter c (List.mem_reverse.1 hc)
      rw [(RecordType.selects_iff_attribute? hp).1 hselect] at hne
      simp at hne

/-! ### Calls that change nothing -/

/-- A call that selects no field changes no value. -/
theorem value?_ofCalls_of_attribute?_eq_none {name : String} (h : type.attribute? name = none)
    (before after : List (String × Value)) (v : Value) :
    (ofCalls type (before ++ (name, v) :: after)).row.value?
      = (ofCalls type (before ++ after)).row.value? := by
  funext attr
  simp [row, get?_values_ofCalls, List.find?_append, h]

/-! ### Calls in another order -/

/-- Calls that select distinct fields can be made in any order. -/
theorem row_ofCalls_perm {block block' : List (String × Value)} (h : block.Perm block')
    (hdistinct : type.SelectDistinct block) (before after : List (String × Value)) :
    (ofCalls type (before ++ block ++ after)).row
      = (ofCalls type (before ++ block' ++ after)).row := by
  have hvalues (attr : String) :
      block.reverse.find? (fun c => type.attribute? c.1 == some attr)
        = block'.reverse.find? (fun c => type.attribute? c.1 == some attr) := by
    refine find?_eq_of_perm
      ((List.reverse_perm block).trans (h.trans (List.reverse_perm block').symm))
      (List.pairwise_reverse.2 (hdistinct.pairwise_ne.imp fun hne => ?_))
    rintro ⟨hlast, hfirst⟩
    exact hne ((eq_of_beq hfirst).trans (eq_of_beq hlast).symm)
  have herror : block.findSome? (callError? type) = none :=
    List.findSome?_eq_none_iff.2 fun c hc => callError?_eq_none.2 (hdistinct.selects c hc)
  have herror' : block'.findSome? (callError? type) = none :=
    List.findSome?_eq_none_iff.2 fun c hc =>
      callError?_eq_none.2 (hdistinct.selects c (h.mem_iff.2 hc))
  simp only [row, type_ofCalls, error_ofCalls, RecordRow.mk.injEq, true_and]
  constructor
  · funext attr
    simp only [get?_values_ofCalls, List.reverse_append, List.find?_append, hvalues]
  · simp only [List.findSome?_append, herror, herror']

/-! ### Objects -/

theorem setAll?_cons (r : RecordInstance) (m : String × Value) (ms : List (String × Value)) :
    r.setAll? (m :: ms) = r.set? m.1 m.2 >>= fun r' => r'.setAll? ms := by
  rw [setAll?, List.foldlM_cons]
  rfl

theorem set?_of_selects {r : RecordInstance} {name : String} (h : ∃ p, r.type.Selects name p)
    (v : Value) : r.set? name v = .ok (r.set name v) := by
  obtain ⟨attr, hattr⟩ := Option.ne_none_iff_exists'.1 (RecordType.exists_selects.1 h)
  rw [set_of_attribute? hattr, set?, hattr]

/-- Names that all select a field are set as by calls. -/
theorem setAll?_of_selects {r : RecordInstance} {members : List (String × Value)}
    (h : ∀ m ∈ members, ∃ p, r.type.Selects m.1 p) :
    r.setAll? members = .ok (members.foldl (fun r m => r.set m.1 m.2) r) := by
  induction members generalizing r with
  | nil => rfl
  | cons m ms ih =>
    obtain ⟨hm, hms⟩ := List.forall_mem_cons.1 h
    rw [setAll?_cons, set?_of_selects hm, Except.ok_bind, List.foldl_cons]
    exact ih fun m' hm' => by simpa using hms m' hm'

/-- The first name that selects no field is reported. -/
theorem setAll?_of_not_selects {r : RecordInstance} {before after : List (String × Value)}
    {m : String × Value} (hbefore : ∀ m ∈ before, ∃ p, r.type.Selects m.1 p)
    (hm : ∀ p, ¬ r.type.Selects m.1 p) :
    r.setAll? (before ++ m :: after) = .error (.unknownAttribute m.1 r.type.table) := by
  induction before generalizing r with
  | nil =>
    rw [List.nil_append, setAll?_cons, set?, RecordType.attribute?_eq_none.2 hm]
    rfl
  | cons b before ih =>
    obtain ⟨hb, hbefore⟩ := List.forall_mem_cons.1 hbefore
    rw [List.cons_append, setAll?_cons, set?_of_selects hb, Except.ok_bind,
      ih (by simpa using hbefore) (by simpa using hm), type_set]

theorem ofMembers_of_selects {members : List (String × Json)}
    (h : ∀ m ∈ members, ∃ p, type.Selects m.1 p) :
    ofMembers type members = .ok (ofCalls type (members.map fun m => (m.1, .ofJson m.2))) :=
  setAll?_of_selects (List.forall_mem_map.2 h)

/-- If some member selects no field, the first such member is reported. -/
theorem ofMembers_of_not_selects {members : List (String × Json)}
    (h : ¬ ∀ m ∈ members, ∃ p, type.Selects m.1 p) :
    ∃ before m after, members = before ++ m :: after ∧ (∀ b ∈ before, ∃ p, type.Selects b.1 p)
      ∧ (∀ p, ¬ type.Selects m.1 p)
      ∧ ofMembers type members = .error (.unknownAttribute m.1 type.table) := by
  cases hfirst : members.find? fun m => type.attribute? m.1 == none with
  | none =>
    refine absurd (fun m hm => RecordType.exists_selects.2 ?_) h
    simpa using List.find?_eq_none.1 hfirst m hm
  | some m =>
    obtain ⟨hm, before, after, rfl, hbefore⟩ := List.find?_eq_some_iff_append.1 hfirst
    have hm : ∀ p, ¬ type.Selects m.1 p := RecordType.attribute?_eq_none.1 (eq_of_beq hm)
    have hbefore : ∀ b ∈ before, ∃ p, type.Selects b.1 p := fun b hb =>
      RecordType.exists_selects.2 (Option.isSome_iff_ne_none.1 (by simpa using hbefore b hb))
    refine ⟨before, m, after, rfl, hbefore, hm, ?_⟩
    rw [ofMembers, List.map_append, List.map_cons]
    exact setAll?_of_not_selects (List.forall_mem_map.2 hbefore) hm

/-- A new instance after a run of calls is an ordered partial map: each field that a call selects is
listed in declaration order, once, with the value of the last call that selects it. A call that
selects no field changes no value, and the first such call is reported. So calls that select
distinct fields can be made in any order. Filling an instance from an object sets its names in
order, and fails exactly if one of them selects no field. -/
theorem columnValues_ofCalls (type : RecordType) :
    (∀ calls, ∃ filled, IsFilledBy type calls filled
      ∧ (ofCalls type calls).row.columnValues = filled.map fun f => (f.1.2, f.2))
    ∧ (∀ before name v after, (∀ p, ¬ type.Selects name p) →
      (ofCalls type (before ++ (name, v) :: after)).row.value?
          = (ofCalls type (before ++ after)).row.value?
        ∧ ((∀ c ∈ before, ∃ p, type.Selects c.1 p) →
          (ofCalls type (before ++ (name, v) :: after)).row.error
            = some (.unknownAttribute name type.table)))
    ∧ (∀ calls, (∀ c ∈ calls, ∃ p, type.Selects c.1 p) → (ofCalls type calls).row.error = none)
    ∧ (∀ before block block' after, block.Perm block' → type.SelectDistinct block →
      (ofCalls type (before ++ block ++ after)).row
        = (ofCalls type (before ++ block' ++ after)).row)
    ∧ ∀ members,
      ((∀ m ∈ members, ∃ p, type.Selects m.1 p) →
        ofMembers type members = .ok (ofCalls type (members.map fun m => (m.1, .ofJson m.2))))
      ∧ ((¬ ∀ m ∈ members, ∃ p, type.Selects m.1 p) →
        ∃ before m after, members = before ++ m :: after
          ∧ (∀ b ∈ before, ∃ p, type.Selects b.1 p) ∧ (∀ p, ¬ type.Selects m.1 p)
          ∧ ofMembers type members = .error (.unknownAttribute m.1 type.table)) := by
  refine ⟨fun calls => ⟨_, isFilledBy_ofCalls type calls, columnValues_row _⟩, ?_, ?_, ?_,
    fun members => ⟨ofMembers_of_selects, ofMembers_of_not_selects⟩⟩
  · intro before name v after hname
    have hnone := RecordType.attribute?_eq_none.2 hname
    refine ⟨value?_ofCalls_of_attribute?_eq_none hnone before after v, fun hbefore => ?_⟩
    have hcall : callError? type (name, v) = some (.unknownAttribute name type.table) :=
      if_pos hnone
    exact (error_ofCalls _).trans
      (findSome?_first (fun c hc => callError?_eq_none.2 (hbefore c hc)) hcall)
  · intro calls hcalls
    exact (error_ofCalls calls).trans
      (List.findSome?_eq_none_iff.2 fun c hc => callError?_eq_none.2 (hcalls c hc))
  · intro before block block' after hperm hdistinct
    exact row_ofCalls_perm hperm hdistinct before after

/-- A record type with an attribute that is named apart from its column. -/
def book : RecordType :=
  (({ table := "book" } : RecordType).declare "title" "title").declare "author" "fk_author"

/-- One field is set by its attribute and then by its column, around a misspelled name. -/
theorem columnValues_ofCalls_book :
    (ofCalls book ([("author", .int 3)] ++ ("titel", .null) :: [("fk_author", .int 4)])).row.error
        = some (.unknownAttribute "titel" "book")
      ∧ (ofCalls book
          ([("author", .int 3)] ++ ("titel", .null) :: [("fk_author", .int 4)])).row.columnValues
        = [("fk_author", .int 4)]
      ∧ (ofCalls book ([("titel", .null)] ++ [("fk_author", .int 4), ("title", .int 5)] ++ [])).row
        = (ofCalls book
          ([("titel", .null)] ++ [("title", .int 5), ("fk_author", .int 4)] ++ [])).row
      ∧ ofMembers book [("title", .null), ("fk_author", .bool true)]
        = .ok (ofCalls book [("title", .null), ("fk_author", .bool true)])
      ∧ ∃ name, ofMembers book [("title", .null), ("pages", .int 412)]
        = .error (.unknownAttribute name "book") := by
  obtain ⟨-, hnone, -, hperm, hmembers⟩ := columnValues_ofCalls book
  have htitle : book.Selects "title" ("title", "title") := ⟨[], _, rfl, .inl rfl, by simp⟩
  have hauthor : book.Selects "author" ("author", "fk_author") :=
    ⟨[("title", "title")], [], rfl, .inl rfl, by decide⟩
  have hcolumn : book.Selects "fk_author" ("author", "fk_author") :=
    ⟨[("title", "title")], [], rfl, .inr rfl, by decide⟩
  have hunknown (name : String) (h : book.attribute? name = none) :
      ∀ p, ¬ book.Selects name p := RecordType.attribute?_eq_none.1 h
  refine ⟨(hnone [("author", .int 3)] "titel" .null [("fk_author", .int 4)] (hunknown _ rfl)).2 ?_,
    rfl, hperm _ _ _ _ (.swap _ _ []) ⟨?_, ?_⟩, (hmembers _).1 ?_, ?_⟩
  · simpa using ⟨_, _, hauthor⟩
  · simpa using ⟨⟨_, _, hcolumn⟩, _, _, htitle⟩
  · refine List.pairwise_pair.2 fun p hp hp' => ?_
    have hattr := (RecordType.selects_iff_attribute? hp.mem).1 hp
    rw [← (RecordType.selects_iff_attribute? hp'.mem).1 hp'] at hattr
    exact absurd hattr (by decide)
  · simpa using ⟨⟨_, _, htitle⟩, _, _, hcolumn⟩
  · have hpages : ¬ ∀ m ∈ [("title", Json.null), ("pages", .int 412)],
        ∃ p, book.Selects m.1 p := fun h => by
      obtain ⟨p, hp⟩ := h ("pages", .int 412) (by simp)
      exact hunknown "pages" rfl p hp
    obtain ⟨_, m, _, -, -, -, herror⟩ := (hmembers _).2 hpages
    exact ⟨m.1, herror⟩

end RecordInstance

end SqlAssembly
