import YCStudio.Library.Table

abbrev Bookshelf (κ ν : Type) := Table (Prod.fst : κ × ν → κ)

namespace Bookshelf

variable {κ ν : Type}

def Taken (shelf : Bookshelf κ ν) (entry : κ × ν) : Prop :=
  ∃ other ∈ shelf.rows, other.1 ≠ entry.1 ∧ other.2 = entry.2

variable [DecidableEq κ] [DecidableEq ν]

instance (shelf : Bookshelf κ ν) (entry : κ × ν) : Decidable (shelf.Taken entry) :=
  inferInstanceAs (Decidable (∃ other ∈ shelf.rows, _))

def publish (shelf : Bookshelf κ ν) (entry : κ × ν) : Option (Bookshelf κ ν) :=
  if shelf.Taken entry then none else some (shelf.store entry)

def publishAll (shelf : Bookshelf κ ν) (entries : List (κ × ν)) : Option (Bookshelf κ ν) :=
  entries.foldlM publish shelf

theorem publish_eq_none {shelf : Bookshelf κ ν} {entry : κ × ν} (h : shelf.Taken entry) :
    shelf.publish entry = none := if_pos h

theorem publish_eq_some {shelf : Bookshelf κ ν} {entry : κ × ν} (h : ¬ shelf.Taken entry) :
    shelf.publish entry = some (shelf.store entry) := if_neg h

theorem publishAll_cons {shelf : Bookshelf κ ν} {entry : κ × ν} {entries : List (κ × ν)}
    (h : ¬ shelf.Taken entry) :
    shelf.publishAll (entry :: entries) = publishAll (shelf.store entry) entries := by
  rw [publishAll, List.foldlM_cons, publish_eq_some h]
  rfl

theorem publishAll_cons_taken {shelf : Bookshelf κ ν} {entry : κ × ν} {entries : List (κ × ν)}
    (h : shelf.Taken entry) : shelf.publishAll (entry :: entries) = none := by
  rw [publishAll, List.foldlM_cons, publish_eq_none h]
  rfl

theorem of_publishAll_cons {shelf shelf' : Bookshelf κ ν} {entry : κ × ν} {entries : List (κ × ν)}
    (h : shelf.publishAll (entry :: entries) = some shelf') :
    ¬ shelf.Taken entry ∧ publishAll (shelf.store entry) entries = some shelf' := by
  by_cases htaken : shelf.Taken entry
  · rw [publishAll_cons_taken htaken] at h
    cases h
  · exact ⟨htaken, publishAll_cons htaken ▸ h⟩

theorem get?_publishAll_of_not_mem {shelf shelf' : Bookshelf κ ν} {entries : List (κ × ν)}
    (h : shelf.publishAll entries = some shelf') {k : κ} (hk : k ∉ entries.map Prod.fst) :
    shelf'.get? k = shelf.get? k := by
  induction entries generalizing shelf with
  | nil =>
    cases h
    rfl
  | cons entry entries ih =>
    obtain ⟨hne, hk⟩ := List.ne_and_not_mem_of_not_mem_cons hk
    rw [ih (of_publishAll_cons h).2 hk, Table.get?_store, if_neg (Ne.symm hne)]

theorem get?_publishAll_of_mem {shelf shelf' : Bookshelf κ ν} {entries : List (κ × ν)}
    (h : shelf.publishAll entries = some shelf') (hkeys : (entries.map Prod.fst).Nodup)
    {entry : κ × ν} (hentry : entry ∈ entries) : shelf'.get? entry.1 = some entry := by
  induction entries generalizing shelf with
  | nil => exact absurd hentry List.not_mem_nil
  | cons head entries ih =>
    obtain ⟨hnew, hkeys⟩ := List.nodup_cons.mp hkeys
    have hrest := (of_publishAll_cons h).2
    rcases List.mem_cons.mp hentry with rfl | hentry
    · rw [get?_publishAll_of_not_mem hrest hnew, Table.get?_store, if_pos rfl]
    · exact ih hrest hkeys hentry

theorem mem_publishAll {shelf shelf' : Bookshelf κ ν} {entries : List (κ × ν)}
    (h : shelf.publishAll entries = some shelf') {entry : κ × ν} (hentry : entry ∈ shelf') :
    entry ∈ shelf ∨ entry ∈ entries := by
  induction entries generalizing shelf with
  | nil =>
    cases h
    exact Or.inl hentry
  | cons head entries ih =>
    rcases ih (of_publishAll_cons h).2 with hmem | hmem
    · rcases Table.mem_store.mp hmem with rfl | ⟨hmem, _⟩
      · exact Or.inr List.mem_cons_self
      · exact Or.inl hmem
    · exact Or.inr (List.mem_cons_of_mem _ hmem)

theorem publishAll_isSome {shelf : Bookshelf κ ν} {entries : List (κ × ν)}
    (hcontents : (entries.map Prod.snd).Nodup)
    (hnew : ∀ entry ∈ entries, ∀ held ∈ shelf.rows, held.2 ≠ entry.2) :
    (shelf.publishAll entries).isSome := by
  induction entries generalizing shelf with
  | nil => rfl
  | cons entry entries ih =>
    obtain ⟨hdistinct, hcontents⟩ := List.nodup_cons.mp hcontents
    obtain ⟨hhead, hrest⟩ := List.forall_mem_cons.mp hnew
    have hfree : ¬ shelf.Taken entry := fun ⟨held, hheld, _, hsame⟩ => hhead held hheld hsame
    rw [publishAll_cons hfree]
    apply ih hcontents
    intro later hlater held hheld hsame
    rcases Table.mem_store.mp hheld with rfl | ⟨hheld, _⟩
    · exact hdistinct (hsame ▸ List.mem_map_of_mem hlater)
    · exact hrest later hlater held hheld hsame

end Bookshelf
