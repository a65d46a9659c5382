import SqlAssembly.Dialect

/-!
# Texts whose end can be seen

A way of writing things is delimited before some texts if what is written and the text behind it can
be told apart (`Delimited`). Quoted names are delimited before all that does not begin with a quote,
and numbers before all that does not begin with a digit.
-/

namespace SqlAssembly

variable {α : Type}

/-- Before a text of the given kind it can be seen what was written, and where it ends. -/
def Delimited (before : List Char → Prop) (text : α → String) : Prop :=
  ∀ a b s t, before s → before t → (text a).toList ++ s = (text b).toList ++ t → a = b ∧ s = t

theorem Delimited.mono {before before' : List Char → Prop} {text : α → String}
    (h : Delimited before text) (hbefore : ∀ s, before' s → before s) : Delimited before' text :=
  fun a b s t hs ht heq => h a b s t (hbefore s hs) (hbefore t ht) heq

/-! ### Quoted names -/

/-- The characters of a name, the quotes doubled. -/
def doubledQuotes (cs : List Char) : List Char :=
  cs.flatMap fun c => if c = '"' then ['"', '"'] else [c]

@[simp] theorem doubledQuotes_nil : doubledQuotes [] = [] := rfl

theorem doubledQuotes_cons (c : Char) (cs : List Char) :
    doubledQuotes (c :: cs) = c :: ((if c = '"' then ['"'] else []) ++ doubledQuotes cs) := by
  by_cases h : c = '"' <;> simp [doubledQuotes, h]

theorem toList_doubleQuoted (name : String) :
    (doubleQuoted name).toList = '"' :: (doubledQuotes name.toList ++ ['"']) := by
  simp [doubleQuoted, doubledQuotes]

/-- A quote that is not doubled ends the name. -/
theorem doubledQuotes_append_inj {cs ds s t : List Char} (hs : s.head? ≠ some '"')
    (ht : t.head? ≠ some '"')
    (h : doubledQuotes cs ++ '"' :: s = doubledQuotes ds ++ '"' :: t) : cs = ds ∧ s = t := by
  induction cs generalizing ds with
  | nil =>
    cases ds with
    | nil => simpa using h
    | cons d ds =>
      rw [doubledQuotes_cons] at h
      obtain ⟨rfl, h⟩ := List.cons.inj h
      rw [if_pos rfl] at h
      rw [h] at hs
      exact absurd rfl hs
  | cons c cs ih =>
    cases ds with
    | nil =>
      rw [doubledQuotes_cons] at h
      obtain ⟨rfl, h⟩ := List.cons.inj h
      rw [if_pos rfl] at h
      rw [← h] at ht
      exact absurd rfl ht
    | cons d ds =>
      rw [doubledQuotes_cons, doubledQuotes_cons] at h
      rw [List.cons_append, List.cons_append] at h
      obtain ⟨rfl, hrest⟩ := List.cons.inj h
      rw [List.append_assoc, List.append_assoc] at hrest
      obtain ⟨rfl, rfl⟩ := ih (List.append_cancel_left hrest)
      exact ⟨rfl, rfl⟩

theorem delimited_doubleQuoted : Delimited (fun s => s.head? ≠ some '"') doubleQuoted := by
  intro x y s t hs ht h
  rw [toList_doubleQuoted, toList_doubleQuoted] at h
  have h : doubledQuotes x.toList ++ '"' :: s = doubledQuotes y.toList ++ '"' :: t := by
    simpa using h
  obtain ⟨hname, hrest⟩ := doubledQuotes_append_inj hs ht h
  exact ⟨String.toList_inj.1 hname, hrest⟩

/-! ### Numbers -/

/-- What ends a number: no digit follows. -/
def NoDigit (s : List Char) : Prop := ∀ c ∈ s.head?, c.isDigit = false

/-- Where a part ends is seen if the part is of one kind and what follows does not begin with that
kind. -/
theorem append_inj_of_span {p : α → Prop} {ds es s t : List α} (hds : ∀ c ∈ ds, p c)
    (hes : ∀ c ∈ es, p c) (hs : ∀ c ∈ s.head?, ¬ p c) (ht : ∀ c ∈ t.head?, ¬ p c)
    (h : ds ++ s = es ++ t) : ds = es ∧ s = t := by
  induction ds generalizing es with
  | nil =>
    cases es with
    | nil => exact ⟨rfl, h⟩
    | cons e es =>
      rw [List.nil_append] at h
      exact absurd (hes e (List.mem_cons_self ..)) (hs e (by rw [h]; rfl))
  | cons d ds ih =>
    cases es with
    | nil =>
      rw [List.nil_append] at h
      exact absurd (hds d (List.mem_cons_self ..)) (ht d (by rw [← h]; rfl))
    | cons e es =>
      obtain ⟨rfl, hrest⟩ := List.cons.inj h
      obtain ⟨rfl, rfl⟩ := ih (fun c hc => hds c (List.mem_cons_of_mem _ hc))
        (fun c hc => hes c (List.mem_cons_of_mem _ hc)) hrest
      exact ⟨rfl, rfl⟩

theorem isDigit_of_mem_toString {n : Nat} {c : Char} (h : c ∈ (toString n).toList) :
    c.isDigit = true := by
  rw [Nat.toString_eq_ofList_toDigits, String.toList_ofList] at h
  exact Nat.isDigit_of_mem_toDigits (by decide) (by decide) h

theorem delimited_nat : Delimited NoDigit (toString : Nat → String) := by
  intro m n s t hs ht h
  obtain ⟨hdigits, hrest⟩ := append_inj_of_span (p := fun c => c.isDigit = true)
    (fun _ => isDigit_of_mem_toString) (fun _ => isDigit_of_mem_toString)
    (fun c hc => by simp [hs c hc]) (fun c hc => by simp [ht c hc]) h
  rw [Nat.toString_eq_ofList_toDigits, Nat.toString_eq_ofList_toDigits, String.toList_ofList,
    String.toList_ofList] at hdigits
  have hvalue := congrArg (fun ds => Nat.ofDigitChars 10 ds 0) hdigits
  simp only [Nat.ofDigitChars_ten_toDigits] at hvalue
  exact ⟨hvalue, hrest⟩

theorem toList_toString_int (n : Int) :
    (toString n).toList
      = if 0 ≤ n then (toString n.toNat).toList else '-' :: (toString (-n).toNat).toList := by
  rw [Int.toString_eq_repr, Int.repr_eq_if]
  split <;> simp

/-- A number begins with a digit, or with its sign. -/
theorem exists_toList_toString_int (n : Int) :
    ∃ c cs, (toString n).toList = c :: cs ∧ (c = '-' ∨ c.isDigit = true) := by
  rw [toList_toString_int]
  split
  · have hne : (toString n.toNat).toList ≠ [] := by
      rw [Nat.toString_eq_ofList_toDigits, String.toList_ofList]
      exact Nat.toDigits_ne_nil
    obtain ⟨c, cs, hcs⟩ := List.exists_cons_of_ne_nil hne
    exact ⟨c, cs, hcs, .inr (isDigit_of_mem_toString (hcs ▸ List.mem_cons_self ..))⟩
  · exact ⟨'-', _, rfl, .inl rfl⟩

theorem delimited_int : Delimited NoDigit (toString : Int → String) := by
  -- A number without a sign does not begin with one.
  have hsign (m : Nat) (s u : List Char) (hs : NoDigit s) :
      (toString m).toList ++ s ≠ '-' :: u := by
    intro h
    cases hm : (toString m).toList with
    | nil =>
      rw [Nat.toString_eq_ofList_toDigits, String.toList_ofList] at hm
      exact Nat.toDigits_ne_nil hm
    | cons c cs =>
      rw [hm] at h
      obtain ⟨rfl, -⟩ := List.cons.inj h
      have hdigit : '-'.isDigit = true := isDigit_of_mem_toString (hm ▸ List.mem_cons_self ..)
      cases hdigit
  intro m n s t hs ht h
  rw [toList_toString_int, toList_toString_int] at h
  split at h <;> split at h
  · obtain ⟨hvalue, hrest⟩ := delimited_nat _ _ s t hs ht h
    exact ⟨by omega, hrest⟩
  · exact absurd h (hsign _ _ _ hs)
  · exact absurd h.symm (hsign _ _ _ ht)
  · obtain ⟨hvalue, hrest⟩ := delimited_nat _ _ s t hs ht (List.cons.inj h).2
    exact ⟨by omega, hrest⟩

end SqlAssembly
