import YCStudio.Store.Session

namespace YCStudio

theorem lookup_filter {α β : Type} [BEq α] [LawfulBEq α] {entries : List (α × β)} {key : α}
    {p : α × β → Bool} (h : ∀ value, p (key, value) = true) :
    (entries.filter p).lookup key = entries.lookup key := by
  induction entries with
  | nil => rfl
  | cons entry entries ih =>
    obtain ⟨other, value⟩ := entry
    rw [List.filter_cons, List.lookup_cons]
    by_cases hkey : key = other
    · subst hkey
      rw [if_pos (h value), List.lookup_cons, beq_self_eq_true]
    · rw [beq_false_of_ne hkey]
      split
      · rw [List.lookup_cons, beq_false_of_ne hkey, ih]
      · exact ih

theorem mem_of_lookup {α β : Type} [BEq α] [LawfulBEq α] {entries : List (α × β)} {key : α}
    {value : β} (h : entries.lookup key = some value) : (key, value) ∈ entries := by
  obtain ⟨before, after, rfl, _⟩ := List.lookup_eq_some_iff.mp h
  exact List.mem_append_right _ List.mem_cons_self

abbrev Original := (Uuid × Str) × Bytes

namespace Files

variable {files : Files} {path : Uuid × Str} {content : Bytes}

@[simp] theorem lookup_store_self (files : Files) (path : Uuid × Str) (content : Bytes) :
    (files.store path content).lookup path = some content := by
  rw [store, List.lookup_cons_self]

theorem lookup_store_of_ne (files : Files) (content : Bytes) {other : Uuid × Str}
    (hne : other ≠ path) : (files.store path content).lookup other = files.lookup other := by
  rw [store, List.lookup_cons, beq_false_of_ne hne]
  exact lookup_filter fun _ => decide_eq_true hne

theorem mem_store {entry : Original} :
    entry ∈ files.store path content ↔ entry = (path, content) ∨ entry ∈ files ∧ entry.1 ≠ path := by
  rw [store, List.mem_cons, List.mem_filter, decide_eq_true_iff]

theorem isSome_lookup_store {other : Uuid × Str} (content : Bytes)
    (h : (files.lookup other).isSome) : ((files.store path content).lookup other).isSome := by
  by_cases hother : other = path
  · rw [hother, lookup_store_self]
    rfl
  · rw [lookup_store_of_ne files content hother]
    exact h

def receive (files : Files) (fault : Option SaveFault) (path : Uuid × Str) (content : Bytes) :
    Files :=
  match fault with
  | none => files.store path content
  | some fault =>
      match fault.leaves content with
      | none => files
      | some rest => files.store path rest

theorem mem_receive {fault : Option SaveFault} {entry : Original}
    (h : entry ∈ files.receive fault path content) :
    entry ∈ files ∨ entry.1 = path ∧
      (entry.2 = content ∨ ∃ broken ∈ fault, broken.leaves content = some entry.2) := by
  cases fault with
  | none =>
    rcases mem_store.mp h with rfl | ⟨hold, _⟩
    · exact Or.inr ⟨rfl, Or.inl rfl⟩
    · exact Or.inl hold
  | some broken =>
    cases hleaves : broken.leaves content with
    | none =>
      simp only [receive, hleaves] at h
      exact Or.inl h
    | some rest =>
      simp only [receive, hleaves] at h
      rcases mem_store.mp h with rfl | ⟨hold, _⟩
      · exact Or.inr ⟨rfl, Or.inr ⟨broken, rfl, hleaves⟩⟩
      · exact Or.inl hold

theorem isSome_lookup_receive (fault : Option SaveFault) {other : Uuid × Str}
    (h : (files.lookup other).isSome) : ((files.receive fault path content).lookup other).isSome := by
  cases fault with
  | none => exact isSome_lookup_store content h
  | some broken =>
    simp only [receive]
    split
    · exact h
    · exact isSome_lookup_store _ h

def receiveAll (fault : Nat → Option SaveFault) : Nat → List Original → Files → Files
  | _, [], files => files
  | index, original :: rest, files =>
      let received := files.receive (fault index) original.1 original.2
      if fault index = none then receiveAll fault (index + 1) rest received else received

end Files

def written {α : Type} (fault : Nat → Option SaveFault) : Nat → List α → List α
  | _, [] => []
  | index, item :: rest =>
      match fault index with
      | none => item :: written fault (index + 1) rest
      | some broken => if broken.written.isSome then [item] else []

theorem written_map {α β : Type} (fault : Nat → Option SaveFault) (f : α → β) (index : Nat)
    (items : List α) : written fault index (items.map f) = (written fault index items).map f := by
  induction items generalizing index with
  | nil => rfl
  | cons item items ih =>
    rw [List.map_cons, written, written]
    split
    · rw [ih, List.map_cons]
    · split <;> rfl

theorem mem_of_written {α : Type} {fault : Nat → Option SaveFault} {index : Nat} {items : List α}
    {item : α} (h : item ∈ written fault index items) : item ∈ items := by
  induction items generalizing index with
  | nil => exact h
  | cons first rest ih =>
    rw [written] at h
    split at h
    · rcases List.mem_cons.mp h with rfl | hrest
      · exact List.mem_cons_self
      · exact List.mem_cons_of_mem _ (ih hrest)
    · split at h
      · rw [List.mem_singleton.mp h]
        exact List.mem_cons_self
      · exact absurd h List.not_mem_nil

def SavesWhole (fault : Nat → Option SaveFault) : Nat → List Original → Prop
  | _, [] => True
  | index, original :: rest =>
      match fault index with
      | none => SavesWhole fault (index + 1) rest
      | some broken => ∀ left ∈ broken.leaves original.2, left = original.2

instance SavesWhole.decide (fault : Nat → Option SaveFault) :
    (index : Nat) → (originals : List Original) → Decidable (SavesWhole fault index originals)
  | _, [] => isTrue trivial
  | index, original :: rest =>
      match h : fault index with
      | none =>
          have := SavesWhole.decide fault (index + 1) rest
          decidable_of_iff (SavesWhole fault (index + 1) rest) (by rw [SavesWhole, h])
      | some broken =>
          decidable_of_iff (∀ left ∈ broken.leaves original.2, left = original.2)
            (by rw [SavesWhole, h])

namespace Files

variable {fault : Nat → Option SaveFault} {index : Nat} {originals : List Original}

theorem mem_receiveAll {files : Files} {entry : Original}
    (h : entry ∈ files.receiveAll fault index originals) :
    entry ∈ files ∨ ∃ original ∈ written fault index originals, original.1 = entry.1 := by
  induction originals generalizing index files with
  | nil => exact Or.inl h
  | cons original rest ih =>
    rw [receiveAll] at h
    cases hfault : fault index with
    | none =>
      have hlist : written fault index (original :: rest) =
          original :: written fault (index + 1) rest := by simp only [written, hfault]
      rw [hfault] at h
      rw [hlist]
      rcases ih h with hmem | ⟨later, hlater, hpath⟩
      · rcases mem_receive hmem with hold | ⟨hpath, _⟩
        · exact Or.inl hold
        · exact Or.inr ⟨original, List.mem_cons_self, hpath.symm⟩
      · exact Or.inr ⟨later, List.mem_cons_of_mem _ hlater, hpath⟩
    | some broken =>
      rw [hfault, if_neg (Option.some_ne_none broken)] at h
      cases hwritten : broken.written with
      | none =>
        have hleaves : broken.leaves original.2 = none := by
          rw [SaveFault.leaves, hwritten, Option.map_none]
        simp only [receive, hleaves] at h
        exact Or.inl h
      | some count =>
        have hlist : written fault index (original :: rest) = [original] := by
          simp only [written, hfault, hwritten, Option.isSome_some, if_true]
        rw [hlist]
        rcases mem_receive h with hold | ⟨hpath, _⟩
        · exact Or.inl hold
        · exact Or.inr ⟨original, List.mem_singleton_self original, hpath.symm⟩

theorem mem_receiveAll_whole {files : Files} (hwhole : SavesWhole fault index originals)
    {entry : Original} (h : entry ∈ files.receiveAll fault index originals) :
    entry ∈ files ∨ entry ∈ originals := by
  induction originals generalizing index files with
  | nil => exact Or.inl h
  | cons original rest ih =>
    rw [receiveAll] at h
    rw [SavesWhole] at hwhole
    have hreceived : entry ∈ files.receive (fault index) original.1 original.2 →
        (∀ broken ∈ fault index, ∀ left ∈ broken.leaves original.2, left = original.2) →
          entry ∈ files ∨ entry ∈ original :: rest := by
      intro hmem hleft
      rcases mem_receive hmem with hold | ⟨hpath, hcontent | ⟨broken, hbroken, hleaves⟩⟩
      · exact Or.inl hold
      · exact Or.inr (List.mem_cons.mpr (Or.inl (Prod.ext hpath hcontent)))
      · exact Or.inr (List.mem_cons.mpr (Or.inl (Prod.ext hpath (hleft broken hbroken _ hleaves))))
    cases hfault : fault index with
    | none =>
      rw [hfault] at h hwhole hreceived
      rcases ih hwhole h with hmem | hlater
      · exact hreceived hmem nofun
      · exact Or.inr (List.mem_cons_of_mem _ hlater)
    | some broken =>
      rw [hfault] at h hwhole hreceived
      exact hreceived h fun other hother => Option.some.inj hother ▸ hwhole

theorem isSome_lookup_receiveAll {files : Files} {path : Uuid × Str}
    (h : (files.lookup path).isSome) :
    ((files.receiveAll fault index originals).lookup path).isSome := by
  induction originals generalizing index files with
  | nil => exact h
  | cons original rest ih =>
    rw [receiveAll]
    split
    · exact ih (isSome_lookup_receive _ h)
    · exact isSome_lookup_receive _ h

theorem lookup_receive_of_ne (files : Files) (fault : Option SaveFault) (content : Bytes)
    {path other : Uuid × Str} (hne : other ≠ path) :
    (files.receive fault path content).lookup other = files.lookup other := by
  cases fault with
  | none => exact lookup_store_of_ne files content hne
  | some broken =>
    simp only [receive]
    split
    · rfl
    · exact lookup_store_of_ne files _ hne

theorem lookup_receiveAll_of_not_mem {files : Files} {path : Uuid × Str}
    (hpath : path ∉ originals.map Prod.fst) :
    (files.receiveAll fault index originals).lookup path = files.lookup path := by
  induction originals generalizing index files with
  | nil => rfl
  | cons original rest ih =>
    rw [List.map_cons, List.mem_cons, not_or] at hpath
    rw [receiveAll]
    split
    · rw [ih hpath.2, lookup_receive_of_ne files _ _ hpath.1]
    · exact lookup_receive_of_ne files _ _ hpath.1

theorem lookup_received {files : Files} {original : Original} (horiginal : original ∈ originals)
    (hsaved : ∀ i < originals.length, fault (index + i) = none)
    (hnodup : (originals.map Prod.fst).Nodup) :
    (files.receiveAll fault index originals).lookup original.1 = some original.2 := by
  induction originals generalizing index files with
  | nil => exact absurd horiginal List.not_mem_nil
  | cons first rest ih =>
    rw [List.map_cons, List.nodup_cons] at hnodup
    have hfirst : fault index = none := hsaved 0 (Nat.zero_lt_succ _)
    rw [receiveAll, if_pos hfirst, hfirst]
    rcases List.mem_cons.mp horiginal with rfl | horiginal
    · rw [lookup_receiveAll_of_not_mem hnodup.1, receive, lookup_store_self]
    · apply ih horiginal _ hnodup.2
      intro i hi
      have hnext := hsaved (i + 1) (Nat.succ_lt_succ hi)
      rwa [Nat.add_comm i 1, ← Nat.add_assoc] at hnext

theorem isSome_lookup_received {files : Files} {original : Original} (horiginal : original ∈ originals)
    (hsaved : ∀ i < originals.length, fault (index + i) = none) :
    ((files.receiveAll fault index originals).lookup original.1).isSome := by
  induction originals generalizing index files with
  | nil => exact absurd horiginal List.not_mem_nil
  | cons first rest ih =>
    have hfirst : fault index = none := hsaved 0 (Nat.zero_lt_succ _)
    rw [receiveAll, if_pos hfirst, hfirst]
    rcases List.mem_cons.mp horiginal with rfl | horiginal
    · apply isSome_lookup_receiveAll
      rw [receive, lookup_store_self]
      rfl
    · apply ih horiginal
      intro i hi
      have hnext := hsaved (i + 1) (Nat.succ_lt_succ hi)
      rwa [Nat.add_comm i 1, ← Nat.add_assoc] at hnext

end Files

end YCStudio
