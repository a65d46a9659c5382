import Mathlib.Data.List.Forall2

/-!
# Outcomes

When a computation that may fail succeeds (`Except.Succeeds`), and with what: each step of it
succeeded. Where it fails, one of its steps failed (`Except.FailsWith`). One computation agrees with
another if it succeeds wherever the other does, with the same result (`Except.Le`).
-/

namespace SqlAssembly.Except

variable {ε α β : Type}

@[simp] theorem pure_eq (a : α) : (pure a : Except ε α) = .ok a := rfl

@[simp] theorem throw_eq (e : ε) : (throw e : Except ε α) = .error e := rfl

@[simp] theorem ok_bind (a : α) (f : α → Except ε β) : (Except.ok a >>= f) = f a := rfl

@[simp] theorem error_bind (e : ε) (f : α → Except ε β) : (Except.error e >>= f) = .error e := rfl

@[simp] theorem map_ok (f : α → β) (a : α) : (Except.ok a : Except ε α).map f = .ok (f a) := rfl

@[simp] theorem map_error (f : α → β) (e : ε) :
    (Except.error e : Except ε α).map f = .error e := rfl

@[simp] theorem mapError_ok {ε' : Type} (f : ε → ε') (a : α) :
    (Except.ok a : Except ε α).mapError f = .ok a := rfl

@[simp] theorem mapError_error {ε' : Type} (f : ε → ε') (e : ε) :
    (Except.error e : Except ε α).mapError f = .error (f e) := rfl

theorem bind_eq_ok {x : Except ε α} {f : α → Except ε β} {b : β} :
    (x >>= f) = .ok b ↔ ∃ a, x = .ok a ∧ f a = .ok b := by
  cases x <;> simp

theorem map_eq_ok {x : Except ε α} {f : α → β} {b : β} :
    x.map f = .ok b ↔ ∃ a, x = .ok a ∧ f a = b := by
  cases x <;> simp

/-- A list of steps succeeds with one result for each. -/
theorem mapM_eq_ok {f : α → Except ε β} {as : List α} {bs : List β} :
    as.mapM f = .ok bs ↔ List.Forall₂ (fun a b => f a = .ok b) as bs := by
  induction as generalizing bs with
  | nil => cases bs <;> simp
  | cons a as ih =>
    simp only [List.mapM_cons, bind_eq_ok, pure_eq, Except.ok.injEq, ih]
    constructor
    · rintro ⟨b, hb, bs', hbs, rfl⟩
      exact .cons hb hbs
    · rintro (_ | ⟨hb, hbs⟩)
      exact ⟨_, hb, _, hbs, rfl⟩

/-- Steps on the images of a list succeed with the images of the list under another function. -/
theorem mapM_map_eq_ok {γ : Type} {f : γ → α} {g : α → Except ε β} {h : γ → β} {cs : List γ} :
    (cs.map f).mapM g = .ok (cs.map h) ↔ ∀ c ∈ cs, g (f c) = .ok (h c) := by
  rw [mapM_eq_ok, List.forall₂_map_left_iff, List.forall₂_map_right_iff, List.forall₂_same]

theorem mapM_congr {f g : α → Except ε β} {as : List α} (h : ∀ a ∈ as, f a = g a) :
    as.mapM f = as.mapM g := by
  induction as with
  | nil => rfl
  | cons a as ih =>
    obtain ⟨ha, has⟩ := List.forall_mem_cons.1 h
    rw [List.mapM_cons, List.mapM_cons, ha, ih has]

/-- A list of steps fails as the first step that fails. -/
theorem mapM_eq_error {f : α → Except ε β} {as : List α} {e : ε} :
    as.mapM f = .error e ↔ ∃ before a after, as = before ++ a :: after
      ∧ (∀ b ∈ before, ∃ r, f b = .ok r) ∧ f a = .error e := by
  induction as with
  | nil => simp
  | cons a as ih =>
    rw [List.mapM_cons]
    cases hfirst : f a with
    | error e' =>
      rw [error_bind, Except.error.injEq]
      constructor
      · rintro rfl
        exact ⟨[], a, as, rfl, by simp, hfirst⟩
      · rintro ⟨_ | ⟨b, before⟩, a', after, heq, hbefore, herror⟩
        · obtain ⟨rfl, rfl⟩ := List.cons.inj heq
          simpa [hfirst] using herror
        · obtain ⟨rfl, rfl⟩ := List.cons.inj heq
          obtain ⟨r, hr⟩ := hbefore a (List.mem_cons_self ..)
          simp [hfirst] at hr
    | ok r =>
      have hrest : (Except.ok r >>= fun b => as.mapM f >>= fun bs => pure (b :: bs)) = .error e
          ↔ as.mapM f = .error e := by
        cases as.mapM f <;> simp
      rw [hrest, ih]
      constructor
      · rintro ⟨before, a', after, rfl, hbefore, herror⟩
        exact ⟨a :: before, a', after, rfl, List.forall_mem_cons.2 ⟨⟨r, hfirst⟩, hbefore⟩, herror⟩
      · rintro ⟨_ | ⟨b, before⟩, a', after, heq, hbefore, herror⟩
        · obtain ⟨rfl, rfl⟩ := List.cons.inj heq
          simp [hfirst] at herror
        · obtain ⟨rfl, rfl⟩ := List.cons.inj heq
          exact ⟨before, a', after, rfl, (List.forall_mem_cons.1 hbefore).2, herror⟩

/-- The results of a list of steps can be changed one by one. -/
theorem map_mapM {γ : Type} (f : α → Except ε β) (g : β → γ) (as : List α) :
    (as.mapM f).map (List.map g) = as.mapM fun a => (f a).map g := by
  induction as with
  | nil => rfl
  | cons a as ih =>
    simp only [List.mapM_cons, ← ih]
    cases f a with
    | error e => rfl
    | ok b => cases as.mapM f <;> rfl

/-- Steps that give the changed results of others succeed with the changed results. -/
theorem mapM_eq_ok_map {γ : Type} {f : α → Except ε β} {g : β → γ} {h : α → Except ε γ}
    {as : List α} {bs : List β} (hstep : ∀ a ∈ as, (f a).map g = h a) (hbs : as.mapM f = .ok bs) :
    as.mapM h = .ok (bs.map g) := by
  rw [mapM_eq_ok] at hbs ⊢
  induction hbs with
  | nil => exact .nil
  | @cons a b as bs hab _ ih =>
    have hfirst := hstep a (List.mem_cons_self ..)
    rw [hab] at hfirst
    exact .cons hfirst.symm (ih fun a ha => hstep a (List.mem_cons_of_mem _ ha))

theorem eq_map_of_mapM {f : α → Except ε β} {g : α → β} {as : List α} {bs : List β}
    (hf : ∀ a b, f a = .ok b → b = g a) (h : as.mapM f = .ok bs) : bs = as.map g := by
  rw [mapM_eq_ok] at h
  induction h with
  | nil => rfl
  | cons hab _ ih => rw [hf _ _ hab, ih, List.map_cons]

theorem forall_mem_of_mapM {P : β → Prop} {f : α → Except ε β} {as : List α} {bs : List β}
    (hf : ∀ a ∈ as, ∀ b, f a = .ok b → P b) (h : as.mapM f = .ok bs) : ∀ b ∈ bs, P b := by
  rw [mapM_eq_ok] at h
  induction h with
  | nil => simp
  | cons hab _ ih =>
    obtain ⟨ha, has⟩ := List.forall_mem_cons.1 hf
    exact List.forall_mem_cons.2 ⟨ha _ hab, ih has⟩

/-- Steps without results all succeed. -/
theorem forall_mem_of_forM {f : α → Except ε Unit} {as : List α} {u : Unit}
    (h : as.forM f = .ok u) : ∀ a ∈ as, f a = .ok () := by
  induction as with
  | nil => simp
  | cons a as ih =>
    obtain ⟨_, ha, has⟩ := bind_eq_ok.1 h
    exact List.forall_mem_cons.2 ⟨ha, ih has⟩

/-! ### Success -/

/-- The computation does not fail. -/
def Succeeds (x : Except ε α) : Prop := ∃ a, x = .ok a

section Success

@[simp] theorem succeeds_ok (a : α) : Succeeds (.ok a : Except ε α) := ⟨a, rfl⟩

@[simp] theorem not_succeeds_error (e : ε) : ¬ Succeeds (.error e : Except ε α) :=
  fun h => nomatch h

theorem not_succeeds_iff {x : Except ε α} : ¬ Succeeds x ↔ ∃ e, x = .error e := by
  cases x <;> simp

theorem succeeds_unit {x : Except ε Unit} : Succeeds x ↔ x = .ok () :=
  ⟨fun ⟨_, h⟩ => h, fun h => ⟨(), h⟩⟩

theorem succeeds_map {x : Except ε α} {f : α → β} : Succeeds (x.map f) ↔ Succeeds x := by
  cases x <;> simp

theorem succeeds_bind {x : Except ε α} {f : α → Except ε β} :
    Succeeds (x >>= f) ↔ ∃ a, x = .ok a ∧ Succeeds (f a) := by
  cases x <;> simp

/-- Whether two steps succeed, if it does not matter for the second what the first gives. -/
theorem succeeds_bind_iff {x : Except ε α} {f : α → Except ε β} {P : Prop}
    (h : ∀ a, x = .ok a → (Succeeds (f a) ↔ P)) : Succeeds (x >>= f) ↔ Succeeds x ∧ P := by
  cases x with
  | error e => simp
  | ok a => simpa using h a rfl

theorem succeeds_bind_of_forall {x : Except ε α} {f : α → Except ε β}
    (h : ∀ a, Succeeds (f a)) : Succeeds (x >>= f) ↔ Succeeds x := by
  cases x with
  | error e => simp
  | ok a => simpa using h a

/-- A list of steps succeeds exactly if each of them does. -/
theorem succeeds_mapM {f : α → Except ε β} {as : List α} :
    Succeeds (as.mapM f) ↔ ∀ a ∈ as, Succeeds (f a) := by
  induction as with
  | nil => simp
  | cons a as ih =>
    rw [List.mapM_cons, List.forall_mem_cons, ← ih]
    refine succeeds_bind_iff fun b _ => ?_
    exact succeeds_bind_of_forall fun bs => succeeds_ok _

end Success

/-! ### Steps on a state -/

/-- Two steps on a state succeed exactly if each of them does. -/
theorem run_bind_eq_ok {σ : Type} {x : StateT σ (Except ε) α} {f : α → StateT σ (Except ε) β}
    {s : σ} {r : β × σ} :
    (x >>= f).run s = .ok r ↔ ∃ a mid, x.run s = .ok (a, mid) ∧ (f a).run mid = .ok r := by
  rw [StateT.run_bind, bind_eq_ok]
  exact Prod.exists

theorem run_liftM_eq_ok {σ : Type} {x : Except ε α} {s : σ} {r : α × σ} :
    (liftM x : StateT σ (Except ε) α).run s = .ok r ↔ x = .ok r.1 ∧ r.2 = s := by
  obtain ⟨a, s'⟩ := r
  cases x with
  | error e => simp
  | ok b => simp [eq_comm]

/-- Each of a list of steps on a state succeeds, in the state that the steps before it leave. -/
theorem forall₂_of_run_mapM {σ : Type} {f : α → StateT σ (Except ε) β} {as : List α} {s : σ}
    {r : List β × σ} (h : (as.mapM f).run s = .ok r) :
    List.Forall₂ (fun a b => ∃ before after, (f a).run before = .ok (b, after)) as r.1 := by
  induction as generalizing s r with
  | nil =>
    cases h
    exact .nil
  | cons a as ih =>
    rw [List.mapM_cons] at h
    obtain ⟨b, mid, hb, h⟩ := run_bind_eq_ok.1 h
    obtain ⟨bs, last, hbs, h⟩ := run_bind_eq_ok.1 h
    cases h
    exact .cons ⟨s, mid, hb⟩ (ih hbs)

/-! ### Failures -/

/-- An error, if there is one, satisfies the condition. -/
def FailsWith (P : ε → Prop) (x : Except ε α) : Prop := ∀ e, x = .error e → P e

section Failures

variable {P : ε → Prop}

@[simp] theorem failsWith_ok (a : α) : FailsWith P (.ok a : Except ε α) := fun _ h => nomatch h

@[simp] theorem failsWith_error {e : ε} : FailsWith P (.error e : Except ε α) ↔ P e :=
  ⟨fun h => h e rfl, fun h _ he => Except.error.inj he ▸ h⟩

theorem FailsWith.bind {x : Except ε α} {f : α → Except ε β} (h : FailsWith P x)
    (hf : ∀ a, FailsWith P (f a)) : FailsWith P (x >>= f) := by
  cases x with
  | error e => exact failsWith_error.2 (failsWith_error.1 h)
  | ok a => exact hf a

theorem FailsWith.map {x : Except ε α} (h : FailsWith P x) (f : α → β) :
    FailsWith P (x.map f) := by
  cases x with
  | error e => exact failsWith_error.2 (failsWith_error.1 h)
  | ok a => exact failsWith_ok _

theorem FailsWith.map_bind {γ : Type} {x : Except ε α} {f : α → β} {g : β → Except ε γ}
    (h : FailsWith P x) (hg : ∀ a, FailsWith P (g (f a))) : FailsWith P (x.map f >>= g) := by
  cases x with
  | error e => exact failsWith_error.2 (failsWith_error.1 h)
  | ok a => exact hg a

theorem failsWith_mapM {f : α → Except ε β} {as : List α} (h : ∀ a ∈ as, FailsWith P (f a)) :
    FailsWith P (as.mapM f) := by
  induction as with
  | nil => exact failsWith_ok _
  | cons a as ih =>
    obtain ⟨ha, has⟩ := List.forall_mem_cons.1 h
    rw [List.mapM_cons]
    exact ha.bind fun b => (ih has).bind fun bs => failsWith_ok _

theorem failsWith_forM {f : α → Except ε Unit} (as : List α) (h : ∀ a, FailsWith P (f a)) :
    FailsWith P (as.forM f) := by
  induction as with
  | nil => exact failsWith_ok _
  | cons a as ih => exact (h a).bind fun _ => ih

/-- A function that satisfies the condition on a list agrees there with one that satisfies it
everywhere. -/
theorem exists_failsWith (b : β) {f : α → Except ε β} {as : List α}
    (h : ∀ a ∈ as, FailsWith P (f a)) :
    ∃ g : α → Except ε β, (∀ a, FailsWith P (g a)) ∧ ∀ a ∈ as, f a = g a := by
  classical
  refine ⟨fun a => if FailsWith P (f a) then f a else .ok b, fun a => ?_, fun a ha => ?_⟩
  · by_cases ha : FailsWith P (f a)
    · simpa only [ha]
    · simp only [ha, if_false, failsWith_ok]
  · simp only [h a ha, if_true]

end Failures

/-! ### Agreement -/

/-- Where the first succeeds, so does the second, with the same result. -/
def Le (x y : Except ε α) : Prop := ∀ a, x = .ok a → y = .ok a

theorem le_refl (x : Except ε α) : Le x x := fun _ h => h

theorem bind_mono {x y : Except ε α} {f g : α → Except ε β} (h : Le x y)
    (hf : ∀ a, Le (f a) (g a)) : Le (x >>= f) (y >>= g) := by
  intro b hb
  obtain ⟨a, ha, hb⟩ := bind_eq_ok.1 hb
  exact bind_eq_ok.2 ⟨a, h a ha, hf a b hb⟩

/-- Where the first succeeds, so does the second, with a related result. -/
def LeVia {γ : Type} (R : α → γ → Prop) (x : Except ε α) (y : Except ε γ) : Prop :=
  ∀ a, x = .ok a → ∃ c, y = .ok c ∧ R a c

section LeVia

variable {γ δ : Type} {R : α → γ → Prop} {S : β → δ → Prop}

theorem leVia_ok {a : α} {c : γ} (h : R a c) : LeVia R (.ok a : Except ε α) (.ok c) := by
  rintro _ ⟨⟩
  exact ⟨c, rfl, h⟩

theorem leVia_refl (x : Except ε α) : LeVia Eq x x := fun a h => ⟨a, h, rfl⟩

theorem leVia_error (e : ε) (y : Except ε γ) : LeVia R (.error e) y := fun _ h => nomatch h

theorem LeVia.bind {x : Except ε α} {y : Except ε γ} {f : α → Except ε β} {g : γ → Except ε δ}
    (h : LeVia R x y) (hf : ∀ a c, R a c → LeVia S (f a) (g c)) : LeVia S (x >>= f) (y >>= g) := by
  intro b hb
  obtain ⟨a, ha, hb⟩ := bind_eq_ok.1 hb
  obtain ⟨c, rfl, hac⟩ := h a ha
  exact hf a c hac b hb

/-- Steps on related elements, one by one. -/
theorem leVia_mapM {f : α → Except ε β} {g : γ → Except ε δ} {as : List α} {cs : List γ}
    (h : List.Forall₂ R as cs) (hstep : ∀ a c, R a c → LeVia S (f a) (g c)) :
    LeVia (List.Forall₂ S) (as.mapM f) (cs.mapM g) := by
  induction h with
  | nil => exact leVia_ok .nil
  | @cons a c as cs hac _ ih =>
    rw [List.mapM_cons, List.mapM_cons]
    exact (hstep a c hac).bind fun b d hbd => ih.bind fun bs ds hbds => leVia_ok (.cons hbd hbds)

/-- Steps on elements and on the changed elements. -/
theorem leVia_mapM_map {f : α → Except ε β} {g : γ → Except ε δ} (change : α → γ) {as : List α}
    (h : ∀ a ∈ as, LeVia S (f a) (g (change a))) :
    LeVia (List.Forall₂ S) (as.mapM f) ((as.map change).mapM g) := by
  refine leVia_mapM (R := fun a c => a ∈ as ∧ c = change a) ?_ ?_
  · exact List.forall₂_map_right_iff.2 (List.forall₂_same.2 fun a ha => ⟨ha, rfl⟩)
  · rintro a _ ⟨ha, rfl⟩
    exact h a ha

end LeVia

theorem mapM_mono {f g : α → Except ε β} (h : ∀ a, Le (f a) (g a)) (as : List α) :
    Le (as.mapM f) (as.mapM g) := by
  intro bs hbs
  rw [mapM_eq_ok] at hbs ⊢
  exact hbs.imp fun a b => h a b

end SqlAssembly.Except
