import Mathlib.Data.List.Basic

structure Memo (ε α : Type) where
  cached : Option α
  loads : List (Except ε α)

inductive Memo.Use (ε α : Type) where
  | idle
  | shared
  | apart (produce : Nat → Except ε α)

namespace Memo

variable {ε α : Type}

def empty : Memo ε α where
  cached := none
  loads := []

def record (memo : Memo ε α) (cached : Option α) (outcome : Except ε α) : Memo ε α where
  cached
  loads := memo.loads ++ [outcome]

def load (memo : Memo ε α) (produce : Nat → Except ε α) (keep : Bool) : Except ε α × Memo ε α :=
  let outcome := produce memo.loads.length
  (outcome, memo.record (if keep then outcome.toOption.or memo.cached else memo.cached) outcome)

def fetch (memo : Memo ε α) (produce : Nat → Except ε α) : Except ε α × Memo ε α :=
  match memo.cached with
  | some value => (.ok value, memo)
  | none => memo.load produce true

namespace Use

def active : Use ε α → Bool
  | idle => false
  | shared => true
  | apart _ => true

def isApart : Use ε α → Bool
  | idle => false
  | shared => false
  | apart _ => true

def serve (produce : Nat → Except ε α) (memo : Memo ε α) :
    Use ε α → Option (Except ε α) × Memo ε α
  | idle => (none, memo)
  | shared => ((memo.fetch produce).map some id)
  | apart own => ((memo.load own false).map some id)

end Use

def run (produce : Nat → Except ε α) :
    Memo ε α → List (Use ε α) → List (Option (Except ε α)) × Memo ε α
  | memo, [] => ([], memo)
  | memo, use :: uses =>
      let served := use.serve produce memo
      let later := run produce served.2 uses
      (served.1 :: later.1, later.2)

variable {produce : Nat → Except ε α} {memo : Memo ε α} {uses : List (Use ε α)}

theorem length_record (memo : Memo ε α) (cached : Option α) (outcome : Except ε α) :
    (memo.record cached outcome).loads.length = memo.loads.length + 1 :=
  List.length_append

theorem run_cons (use : Use ε α) : (run produce memo (use :: uses)).2 =
    (run produce (use.serve produce memo).2 uses).2 := rfl

inductive Served (produce : Nat → Except ε α) (memo : Memo ε α) :
    Use ε α → Option (Except ε α) × Memo ε α → Prop
  | idle : Served produce memo .idle (none, memo)
  | hit (value : α) (h : memo.cached = some value) :
      Served produce memo .shared (some (.ok value), memo)
  | filled (h : memo.cached = none) :
      Served produce memo .shared (some (produce memo.loads.length),
        memo.record (produce memo.loads.length).toOption (produce memo.loads.length))
  | apart (own : Nat → Except ε α) :
      Served produce memo (.apart own) (some (own memo.loads.length),
        memo.record memo.cached (own memo.loads.length))

theorem served (produce : Nat → Except ε α) (memo : Memo ε α) (use : Use ε α) :
    Served produce memo use (use.serve produce memo) := by
  cases use with
  | idle => exact .idle
  | apart own => exact .apart own
  | shared =>
    rw [Use.serve, fetch]
    cases hcached : memo.cached with
    | some value => exact .hit value hcached
    | none =>
      rw [load, hcached]
      simp only [if_true, Option.or_none]
      exact .filled hcached

theorem Served.loads_eq {use : Use ε α} {result : Option (Except ε α) × Memo ε α}
    (h : Served produce memo use result) : result.2 = memo ∨
      use.active = true ∧ result.2.loads.length = memo.loads.length + 1 := by
  cases h with
  | idle => exact Or.inl rfl
  | hit => exact Or.inl rfl
  | filled => exact Or.inr ⟨rfl, length_record _ _ _⟩
  | apart => exact Or.inr ⟨rfl, length_record _ _ _⟩

theorem loads_le_run (produce : Nat → Except ε α) (memo : Memo ε α) (uses : List (Use ε α)) :
    memo.loads.length ≤ (run produce memo uses).2.loads.length := by
  induction uses generalizing memo with
  | nil => exact Nat.le_refl _
  | cons use uses ih =>
    have hlater := ih (use.serve produce memo).2
    rcases (served produce memo use).loads_eq with hsame | ⟨-, hgrown⟩
    · rw [hsame] at hlater
      rwa [run_cons, hsame]
    · rw [run_cons]
      omega

theorem run_loads_le (memo : Memo ε α) (uses : List (Use ε α)) :
    (run produce memo uses).2.loads.length ≤ memo.loads.length + uses.countP Use.active := by
  induction uses generalizing memo with
  | nil => exact Nat.le_refl _
  | cons use uses ih =>
    have hlater := ih (use.serve produce memo).2
    rw [run_cons, List.countP_cons]
    rcases (served produce memo use).loads_eq with hsame | ⟨hactive, hgrown⟩
    · rw [hsame] at hlater ⊢
      omega
    · rw [if_pos hactive]
      omega

theorem of_run_loads_eq (produce : Nat → Except ε α) (memo : Memo ε α) (uses : List (Use ε α))
    (h : (run produce memo uses).2.loads.length = memo.loads.length) :
    uses.countP Use.active = 0 ∨
      memo.cached ≠ none ∧ ∀ use ∈ uses, use.isApart = false := by
  induction uses with
  | nil => exact Or.inl rfl
  | cons use uses ih =>
    have hlater := loads_le_run produce (use.serve produce memo).2 uses
    have hserved := served produce memo use
    rw [run_cons] at h
    generalize use.serve produce memo = result at h hlater hserved
    cases hserved with
    | idle =>
      rcases ih h with hnone | ⟨hcached, hapart⟩
      · exact Or.inl hnone
      · exact Or.inr ⟨hcached, List.forall_mem_cons.mpr ⟨rfl, hapart⟩⟩
    | hit value hcached =>
      refine Or.inr ⟨by simp [hcached], List.forall_mem_cons.mpr ⟨rfl, ?_⟩⟩
      rcases ih h with hnone | ⟨-, hapart⟩
      · intro later hmem
        have hidle := List.countP_eq_zero.mp hnone later hmem
        cases later with
        | idle => rfl
        | shared => rfl
        | apart own => exact absurd rfl hidle
      · exact hapart
    | filled =>
      rw [h, length_record] at hlater
      exact absurd hlater (Nat.not_succ_le_self _)
    | apart =>
      rw [h, length_record] at hlater
      exact absurd hlater (Nat.not_succ_le_self _)

theorem run_of_cached {value : α} (hcached : memo.cached = some value)
    (hshared : ∀ use ∈ uses, use.isApart = false) : (run produce memo uses).2 = memo := by
  induction uses with
  | nil => rfl
  | cons use uses ih =>
    obtain ⟨huse, hrest⟩ := List.forall_mem_cons.mp hshared
    have hserved := served produce memo use
    rw [run_cons]
    generalize use.serve produce memo = result at hserved
    cases hserved with
    | idle => exact ih hrest
    | hit => exact ih hrest
    | filled hnone =>
      rw [hcached] at hnone
      cases hnone
    | apart => cases huse

theorem run_of_shared {value : α} (hvalue : produce memo.loads.length = .ok value)
    (hcached : memo.cached = none) (hshared : ∀ use ∈ uses, use.isApart = false) :
    (run produce memo uses).2.loads.length ≤ memo.loads.length + 1 := by
  induction uses with
  | nil => exact Nat.le_succ _
  | cons use uses ih =>
    obtain ⟨huse, hrest⟩ := List.forall_mem_cons.mp hshared
    have hserved := served produce memo use
    rw [run_cons]
    generalize use.serve produce memo = result at hserved
    cases hserved with
    | idle => exact ih hrest
    | hit value' hcached' =>
      rw [hcached] at hcached'
      cases hcached'
    | filled =>
      rw [hvalue]
      change (run produce (memo.record (some value) (.ok value)) uses).2.loads.length ≤ _
      rw [run_of_cached rfl hrest]
      exact Nat.le_of_eq (length_record _ _ _)
    | apart => cases huse

theorem run_loads_le_one_iff :
    (run produce empty uses).2.loads.length ≤ 1 ↔
      uses.countP Use.active ≤ 1 ∨
        (∃ value, produce 0 = .ok value) ∧ ∀ use ∈ uses, use.isApart = false := by
  constructor
  · intro h
    induction uses with
    | nil => exact Or.inl (Nat.zero_le 1)
    | cons use uses ih =>
      have hlater := loads_le_run produce (use.serve produce empty).2 uses
      have hquiet := of_run_loads_eq produce (use.serve produce empty).2 uses
      have hserved := served produce empty use
      rw [run_cons] at h
      rw [List.countP_cons]
      generalize use.serve produce empty = result at h hlater hquiet hserved
      cases hserved with
      | idle =>
        rcases ih h with hfew | ⟨hvalue, hapart⟩
        · exact Or.inl hfew
        · exact Or.inr ⟨hvalue, List.forall_mem_cons.mpr ⟨rfl, hapart⟩⟩
      | hit value hcached => cases hcached
      | filled =>
        rcases hquiet (Nat.le_antisymm h hlater) with hnone | ⟨hcached, hapart⟩
        · exact Or.inl (by rw [hnone]; exact Nat.le_refl 1)
        · refine Or.inr ⟨?_, List.forall_mem_cons.mpr ⟨rfl, hapart⟩⟩
          cases hproduce : produce (empty : Memo ε α).loads.length with
          | ok value => exact ⟨value, hproduce⟩
          | error e =>
            rw [hproduce] at hcached
            exact absurd rfl hcached
      | apart own =>
        rcases hquiet (Nat.le_antisymm h hlater) with hnone | ⟨hcached, -⟩
        · exact Or.inl (by rw [hnone]; exact Nat.le_refl 1)
        · exact absurd rfl hcached
  · rintro (hfew | ⟨⟨value, hvalue⟩, hshared⟩)
    · exact Nat.le_trans (run_loads_le empty uses) (Nat.add_le_add_left hfew 0)
    · exact run_of_shared hvalue rfl hshared

def Logged (memo : Memo ε α) : Prop := ∀ value, memo.cached = some value → .ok value ∈ memo.loads

theorem logged_empty : Logged (empty : Memo ε α) := fun _ h => nomatch h

theorem Served.logged {use : Use ε α} {result : Option (Except ε α) × Memo ε α}
    (h : Served produce memo use result) (hlogged : memo.Logged) :
    result.2.Logged ∧ memo.loads ⊆ result.2.loads ∧
      ∀ value, result.1 = some (.ok value) → .ok value ∈ result.2.loads := by
  cases h with
  | idle => exact ⟨hlogged, fun _ h => h, fun _ h => nomatch h⟩
  | hit value hcached =>
    refine ⟨hlogged, fun _ h => h, ?_⟩
    rintro _ ⟨⟩
    exact hlogged value hcached
  | filled =>
    have hlast : ∀ value, produce memo.loads.length = .ok value →
        .ok value ∈ memo.loads ++ [produce memo.loads.length] := by
      intro value hvalue
      rw [hvalue]
      exact List.mem_append_right _ (List.mem_singleton_self _)
    refine ⟨?_, List.subset_append_left _ _, fun value h => hlast value (Option.some.inj h)⟩
    intro value hkept
    apply hlast
    cases hproduce : produce memo.loads.length with
    | error e =>
      rw [record, hproduce] at hkept
      cases hkept
    | ok value' =>
      rw [record, hproduce] at hkept
      cases hkept
      rfl
  | apart own =>
    refine ⟨?_, List.subset_append_left _ _, ?_⟩
    · exact fun value hkept => List.mem_append_left _ (hlogged value hkept)
    · intro value h
      rw [← Option.some.inj h]
      exact List.mem_append_right _ (List.mem_singleton_self _)

theorem loads_subset_run (hlogged : memo.Logged) :
    memo.loads ⊆ (run produce memo uses).2.loads := by
  induction uses generalizing memo with
  | nil => exact fun _ h => h
  | cons use uses ih =>
    obtain ⟨hnext, hsubset, -⟩ := (served produce memo use).logged hlogged
    exact fun _ h => ih hnext (hsubset h)

theorem mem_loads_of_mem_run (hlogged : memo.Logged) {value : α}
    (h : some (.ok value) ∈ (run produce memo uses).1) :
    .ok value ∈ (run produce memo uses).2.loads := by
  induction uses generalizing memo with
  | nil => cases h
  | cons use uses ih =>
    obtain ⟨hnext, -, hmem⟩ := (served produce memo use).logged hlogged
    rw [run_cons]
    rcases List.mem_cons.mp h with hfirst | hlater
    · exact loads_subset_run hnext (hmem value hfirst.symm)
    · exact ih hnext hlater

theorem eq_of_loads_le_one (h : (run produce empty uses).2.loads.length ≤ 1) {value value' : α}
    (hvalue : some (.ok value) ∈ (run produce empty uses).1)
    (hvalue' : some (.ok value') ∈ (run produce empty uses).1) : value = value' := by
  have hmem := mem_loads_of_mem_run logged_empty hvalue
  have hmem' := mem_loads_of_mem_run logged_empty hvalue'
  generalize (run produce empty uses).2.loads = loads at h hmem hmem'
  match loads, h with
  | [], _ => cases hmem
  | [outcome], _ =>
    rw [List.mem_singleton] at hmem hmem'
    exact Except.ok.inj (hmem.trans hmem'.symm)

end Memo
