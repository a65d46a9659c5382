import SqlAssembly.Proofs.Bindings

/-!
# The search for a fresh alias

A source whose name is taken gets a number behind it. The number is searched for from two on, and
nothing bounds the search (`NumberSearch`). It ends all the same, whatever names are taken, numbered
ones included, and the name that it finds is `freshAlias` (`freshAlias_isFirstFree`): distinct
numbers give distinct names, and no more of these can be taken than there are names.
-/

namespace SqlAssembly

variable {base : String} {taken : List String}

/-! ### Searching -/

/-- The search for a number that makes a name free. From a number whose name is taken it goes on to
the next one, and it ends at a number whose name is free. The numbers have no width here. For a name
that is taken a search from two on ends at `taken.length + 1` at the latest, so a counter of
thirty-two bits with a sign stays in range as long as fewer than `2 ^ 31 - 1` names are taken. -/
inductive NumberSearch (base : String) (taken : List String) : Nat → Nat → Prop
  | free {n : Nat} (h : numbered base n ∉ taken) : NumberSearch base taken n n
  | next {n last : Nat} (h : numbered base n ∈ taken)
      (rest : NumberSearch base taken (n + 1) last) : NumberSearch base taken n last

/-- How an alias is chosen: it is the name itself if that is free, or else the name with the number
at which the search from two on ends. -/
inductive AliasChoice (base : String) (taken : List String) : String → Prop
  | own (h : base ∉ taken) : AliasChoice base taken base
  | searched {n : Nat} (h : base ∈ taken) (search : NumberSearch base taken 2 n) :
      AliasChoice base taken (numbered base n)

/-- The search ends at the first number, from where it starts, that makes the name free. -/
theorem numberSearch_iff {n last : Nat} :
    NumberSearch base taken n last ↔
      n ≤ last ∧ numbered base last ∉ taken ∧ ∀ m, n ≤ m → m < last → numbered base m ∈ taken := by
  constructor
  · intro h
    induction h with
    | free hfree => exact ⟨Nat.le_refl _, hfree, fun m hm hmn => absurd hm (Nat.not_le.2 hmn)⟩
    | @next n last htaken rest ih =>
      obtain ⟨hle, hfree, hbefore⟩ := ih
      refine ⟨Nat.le_of_succ_le hle, hfree, fun m hm hml => ?_⟩
      rcases Nat.eq_or_lt_of_le hm with rfl | hnm
      · exact htaken
      · exact hbefore m hnm hml
  · rintro ⟨hle, hfree, hbefore⟩
    obtain ⟨k, rfl⟩ := Nat.exists_eq_add_of_le hle
    -- on how far the number is that is free
    induction k generalizing n with
    | zero => exact .free hfree
    | succ k ih =>
      have hlast : n + (k + 1) = n + 1 + k := by omega
      rw [hlast] at hfree hbefore ⊢
      have hrest : NumberSearch base taken (n + 1) (n + 1 + k) :=
        ih (Nat.le_add_right ..) hfree fun m hm hml => hbefore m (Nat.le_of_succ_le hm) hml
      exact .next (hbefore n (Nat.le_refl n) (by omega)) hrest

/-- The search for an alias ends with the fresh one, and with no other. -/
theorem aliasChoice_iff {name : String} :
    AliasChoice base taken name ↔ name = freshAlias base taken := by
  by_cases h : base ∈ taken
  · obtain ⟨n, hn, -, halias, hfree, hbefore⟩ := freshAlias_of_mem h
    rw [halias]
    constructor
    · intro hchoice
      cases hchoice with
      | own hown => exact absurd h hown
      | @searched n' _ search =>
        obtain ⟨hn', hfree', hbefore'⟩ := numberSearch_iff.1 search
        have hle : n' ≤ n := Nat.le_of_not_lt fun hlt => hfree (hbefore' n hn hlt)
        have hge : n ≤ n' := Nat.le_of_not_lt fun hlt => hfree' (hbefore n' hn' hlt)
        rw [Nat.le_antisymm hle hge]
    · rintro rfl
      exact .searched h (numberSearch_iff.2 ⟨hn, hfree, hbefore⟩)
  · rw [freshAlias_of_notMem h]
    constructor
    · intro hchoice
      cases hchoice with
      | own => rfl
      | searched htaken search => exact absurd htaken h
    · rintro rfl
      exact .own h

/-! ### The first free name -/

/-- Whatever names are taken, the search for an alias ends, with one name alone, and this name is
free. It is the name that was given if that one is free, and otherwise the name with the least
number from two on, in decimal, that makes it free. That number is at most one more than there are
names taken. -/
theorem freshAlias_isFirstFree (base : String) (taken : List String) :
    (∀ name, AliasChoice base taken name ↔ name = freshAlias base taken)
    ∧ freshAlias base taken ∉ taken
    ∧ (base ∉ taken → freshAlias base taken = base)
    ∧ (base ∈ taken → ∃ n, 2 ≤ n ∧ n ≤ taken.length + 1
        ∧ freshAlias base taken = base ++ "_" ++ toString n
        ∧ ∀ m, 2 ≤ m → m < n → base ++ "_" ++ toString m ∈ taken) := by
  refine ⟨fun name => aliasChoice_iff, freshAlias_notMem base taken, freshAlias_of_notMem, ?_⟩
  intro h
  obtain ⟨n, hn, hlength, halias, -, hbefore⟩ := freshAlias_of_mem h
  exact ⟨n, hn, hlength, halias, hbefore⟩

/-- Numbered names that are taken are passed over, and a numbered name gets a number of its own. -/
example : freshAlias "t" ["t_3", "t", "t_2_2", "t_2"] = "t_4"
    ∧ freshAlias "t_2" ["t_3", "t", "t_2_2", "t_2"] = "t_2_3" := by
  decide

end SqlAssembly
