import YCStudio.Library.Table

abbrev Registry (κ ο : Type) := Table (Prod.fst : κ × ο → κ)

namespace Registry

variable {κ ο : Type} [DecidableEq κ] [DecidableEq ο]

def holder? (registry : Registry κ ο) (key : κ) : Option ο := (registry.get? key).map Prod.snd

def rival? (owner : ο) (registry : Registry κ ο) (key : κ) : Option ο :=
  (registry.holder? key).filter (· ≠ owner)

def enroll (owner : ο) : Registry κ ο → List κ → Except (κ × ο) Unit × Registry κ ο
  | registry, [] => (.ok (), registry)
  | registry, key :: keys =>
      match rival? owner registry key with
      | some other => (.error (key, other), registry)
      | none => enroll owner (registry.store (key, owner)) keys

def enrolled (owner : ο) (registry : Registry κ ο) (keys : List κ) : Registry κ ο :=
  keys.foldl (fun registry key => registry.store (key, owner)) registry

variable {owner : ο} {registry : Registry κ ο} {keys : List κ} {key : κ}

omit [DecidableEq ο] in
theorem holder?_store (k : κ) :
    holder? (registry.store (key, owner)) k =
      if key = k then some owner else registry.holder? k := by
  rw [holder?, Table.get?_store]
  split <;> rfl

theorem rival?_store (k : κ) :
    rival? owner (registry.store (key, owner)) k =
      if key = k then none else rival? owner registry k := by
  rw [rival?, holder?_store]
  split
  · simp
  · rfl

theorem rival?_store_of_none {k : κ} (h : rival? owner registry k = none) :
    rival? owner (registry.store (key, owner)) k = none := by
  rw [rival?_store]
  split
  · rfl
  · exact h

theorem rival?_of_forall_ne (h : ∀ k, registry.holder? k ≠ some owner) :
    rival? owner registry key = registry.holder? key := by
  rw [rival?]
  cases hholder : registry.holder? key with
  | none => rfl
  | some other =>
    have hne : other ≠ owner := by
      rintro rfl
      exact h key hholder
    rw [Option.filter_some, if_pos (decide_eq_true hne)]

omit [DecidableEq ο] in
theorem holder?_enrolled (k : κ) :
    holder? (enrolled owner registry keys) k =
      if k ∈ keys then some owner else registry.holder? k := by
  induction keys generalizing registry with
  | nil => simp [enrolled]
  | cons key keys ih =>
    change holder? (enrolled owner (registry.store (key, owner)) keys) k = _
    rw [ih, holder?_store]
    by_cases hmem : k ∈ keys
    · simp [hmem]
    · by_cases hkey : key = k
      · simp [hkey]
      · simp [hmem, hkey, Ne.symm hkey]

theorem enroll_free (h : ∀ key ∈ keys, rival? owner registry key = none) :
    enroll owner registry keys = (.ok (), enrolled owner registry keys) := by
  induction keys generalizing registry with
  | nil => rfl
  | cons key keys ih =>
    obtain ⟨hkey, hkeys⟩ := List.forall_mem_cons.mp h
    rw [enroll, hkey]
    exact ih fun k hk => rival?_store_of_none (hkeys k hk)

theorem enroll_rival {free rest : List κ} {other : ο}
    (hfree : ∀ key ∈ free, rival? owner registry key = none)
    (hkey : rival? owner registry key = some other) :
    enroll owner registry (free ++ key :: rest) =
      (.error (key, other), enrolled owner registry free) := by
  induction free generalizing registry with
  | nil =>
    rw [List.nil_append, enroll, hkey]
    rfl
  | cons first free ih =>
    obtain ⟨hfirst, hrest⟩ := List.forall_mem_cons.mp hfree
    have hne : first ≠ key := by
      rintro rfl
      rw [hfirst] at hkey
      cases hkey
    rw [List.cons_append, enroll, hfirst]
    apply ih fun k hk => rival?_store_of_none (hrest k hk)
    rw [rival?_store, if_neg hne, hkey]

theorem free_or_rival (owner : ο) (registry : Registry κ ο) (keys : List κ) :
    (∀ key ∈ keys, rival? owner registry key = none) ∨
      ∃ free key rest other, keys = free ++ key :: rest ∧
        (∀ key ∈ free, rival? owner registry key = none) ∧
          rival? owner registry key = some other := by
  induction keys with
  | nil => exact Or.inl fun _ h => absurd h List.not_mem_nil
  | cons first keys ih =>
    cases hfirst : rival? owner registry first with
    | some other =>
      exact Or.inr ⟨[], first, keys, other, rfl, fun _ h => absurd h List.not_mem_nil, hfirst⟩
    | none =>
      rcases ih with hfree | ⟨free, key, rest, other, rfl, hfree, hkey⟩
      · exact Or.inl (List.forall_mem_cons.mpr ⟨hfirst, hfree⟩)
      · refine Or.inr ⟨first :: free, key, rest, other, rfl, ?_, hkey⟩
        exact List.forall_mem_cons.mpr ⟨hfirst, hfree⟩

end Registry
