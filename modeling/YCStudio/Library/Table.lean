import Mathlib.Data.List.Nodup
import Mathlib.Data.List.Basic

@[ext] structure Table {κ ρ : Type} (key : ρ → κ) where
  rows : List ρ
  nodup : (rows.map key).Nodup

namespace Table

variable {κ ρ : Type} {key : ρ → κ}

instance : Membership ρ (Table key) := ⟨fun table row => row ∈ table.rows⟩

theorem mem_def {table : Table key} {row : ρ} : row ∈ table ↔ row ∈ table.rows := Iff.rfl

instance [DecidableEq ρ] : DecidableEq (Table key) := fun a b =>
  decidable_of_iff (a.rows = b.rows) Table.ext_iff.symm

instance : Inhabited (Table key) := ⟨⟨[], List.nodup_nil⟩⟩

def empty : Table key := ⟨[], List.nodup_nil⟩

@[simp] theorem rows_empty : (empty : Table key).rows = [] := rfl

@[simp] theorem not_mem_empty (row : ρ) : row ∉ (empty : Table key) := List.not_mem_nil

theorem eq_of_key_eq {table : Table key} {row row' : ρ} (h : row ∈ table) (h' : row' ∈ table)
    (hkey : key row = key row') : row = row' :=
  List.inj_on_of_nodup_map table.nodup h h' hkey

theorem filter_eq_singleton {table : Table key} {row : ρ} {p : ρ → Bool} (h : row ∈ table)
    (hp : ∀ other ∈ table, p other = true ↔ other = row) : table.rows.filter p = [row] := by
  have hnodup : (table.rows.filter p).Nodup := (table.nodup.of_map key).filter p
  apply List.perm_singleton.mp
  rw [List.perm_ext_iff_of_nodup hnodup (List.nodup_singleton row)]
  intro other
  rw [List.mem_filter, List.mem_singleton]
  constructor
  · rintro ⟨hmem, hpass⟩
    exact (hp other hmem).mp hpass
  · rintro rfl
    exact ⟨h, (hp other h).mpr rfl⟩

def modify (table : Table key) (f : ρ → ρ) (hf : ∀ row, key (f row) = key row) : Table key where
  rows := table.rows.map f
  nodup := by
    have hkeys : (table.rows.map f).map key = table.rows.map key := by
      rw [List.map_map]
      exact List.map_congr_left fun row _ => hf row
    rw [hkeys]
    exact table.nodup

@[simp] theorem rows_modify (table : Table key) (f : ρ → ρ) (hf : ∀ row, key (f row) = key row) :
    (table.modify f hf).rows = table.rows.map f := rfl

theorem mem_modify {table : Table key} {f : ρ → ρ} {hf : ∀ row, key (f row) = key row} {row : ρ} :
    row ∈ table.modify f hf ↔ ∃ old ∈ table, f old = row := List.mem_map

theorem filter_map_rows {rows : List ρ} {f : ρ → ρ} {p : ρ → Bool}
    (hkept : ∀ row ∈ rows, p (f row) = p row) (hsame : ∀ row ∈ rows, p row = true → f row = row) :
    (rows.map f).filter p = rows.filter p := by
  have hcomp : rows.filter (p ∘ f) = rows.filter p := List.filter_congr hkept
  rw [List.filter_map, hcomp]
  calc (rows.filter p).map f
      = (rows.filter p).map id := by
        apply List.map_congr_left
        intro row hrow
        obtain ⟨hrow, hp⟩ := List.mem_filter.mp hrow
        exact hsame row hrow hp
    _ = rows.filter p := List.map_id _

def erase (table : Table key) (p : ρ → Prop) [DecidablePred p] : Table key where
  rows := table.rows.filter (fun row => ¬ p row)
  nodup := table.nodup.sublist (List.filter_sublist.map key)

theorem rows_erase (table : Table key) (p : ρ → Prop) [DecidablePred p] :
    (table.erase p).rows = table.rows.filter (fun row => ¬ p row) := rfl

@[simp] theorem mem_erase {table : Table key} {p : ρ → Prop} [DecidablePred p] {row : ρ} :
    row ∈ table.erase p ↔ row ∈ table ∧ ¬ p row := by
  rw [mem_def, mem_def, rows_erase, List.mem_filter, decide_eq_true_iff]

theorem filter_erase {table : Table key} {q : ρ → Prop} [DecidablePred q] {p : ρ → Bool}
    (h : ∀ row ∈ table, p row = true → ¬ q row) :
    (table.erase q).rows.filter p = table.rows.filter p := by
  rw [rows_erase, List.filter_filter]
  apply List.filter_congr
  intro row hrow
  by_cases hp : p row = true
  · simp [hp, h row hrow hp]
  · simp [hp]

theorem filterMap_erase {β : Type} {table : Table key} {q : ρ → Prop} [DecidablePred q]
    {f g : ρ → Option β} (hkept : ∀ row ∈ table, ¬ q row → f row = g row)
    (hdropped : ∀ row ∈ table, q row → f row = none) :
    (table.erase q).rows.filterMap g = table.rows.filterMap f := by
  rw [rows_erase, List.filterMap_filter]
  apply List.filterMap_congr
  intro row hrow
  by_cases hq : q row
  · rw [hdropped row hrow hq]
    simp [hq]
  · rw [hkept row hrow hq]
    simp [hq]

theorem erase_eq_self {table : Table key} {p : ρ → Prop} [DecidablePred p]
    (h : ∀ row ∈ table, ¬ p row) : table.erase p = table := by
  apply Table.ext
  rw [rows_erase]
  exact List.filter_eq_self.mpr fun row hrow => decide_eq_true (h row hrow)

def Fresh (table : Table key) (k : κ) : Prop := ∀ row ∈ table, key row ≠ k

theorem Fresh.not_mem_keys {table : Table key} {k : κ} (h : table.Fresh k) :
    k ∉ table.rows.map key := by
  rintro hmem
  obtain ⟨row, hrow, hkey⟩ := List.mem_map.mp hmem
  exact h row hrow hkey

theorem Fresh.erase {table : Table key} {p : ρ → Prop} [DecidablePred p] {k : κ}
    (h : table.Fresh k) : (table.erase p).Fresh k := fun row hrow => h row (mem_erase.mp hrow).1

variable [DecidableEq κ]

def get? (table : Table key) (k : κ) : Option ρ := table.rows.find? (fun row => key row = k)

theorem get?_eq_some_iff {table : Table key} {k : κ} {row : ρ} :
    table.get? k = some row ↔ row ∈ table ∧ key row = k := by
  constructor
  · intro h
    exact ⟨List.mem_of_find?_eq_some h, by simpa using List.find?_some h⟩
  · rintro ⟨hmem, rfl⟩
    cases hfind : table.get? (key row) with
    | none =>
      have hnone := List.find?_eq_none.mp hfind row hmem
      simp at hnone
    | some found =>
      have hkey : key found = key row := by simpa using List.find?_some hfind
      rw [eq_of_key_eq (List.mem_of_find?_eq_some hfind) hmem hkey]

theorem get?_eq_none_iff {table : Table key} {k : κ} :
    table.get? k = none ↔ ∀ row ∈ table, key row ≠ k := by
  simp [get?, mem_def]

theorem get?_erase (table : Table key) (p : ρ → Prop) [DecidablePred p] (k : κ) :
    (table.erase p).get? k = (table.get? k).filter (fun row => ¬ p row) := by
  apply Option.ext
  intro row
  rw [get?_eq_some_iff, Option.filter_eq_some_iff, get?_eq_some_iff, mem_erase, decide_eq_true_iff]
  exact and_right_comm

theorem get?_key {table : Table key} {row : ρ} (h : row ∈ table) :
    table.get? (key row) = some row := get?_eq_some_iff.mpr ⟨h, rfl⟩

theorem Fresh.get? {table : Table key} {k : κ} (h : table.Fresh k) : table.get? k = none :=
  get?_eq_none_iff.mpr h

def insert (table : Table key) (row : ρ) : Table key :=
  if h : key row ∈ table.rows.map key then table
  else
    { rows := table.rows ++ [row]
      nodup := by
        rw [List.map_append]
        exact List.nodup_append'.mpr
          ⟨table.nodup, List.nodup_singleton _, by simpa using h⟩ }

theorem rows_insert {table : Table key} {row : ρ} (h : table.Fresh (key row)) :
    (table.insert row).rows = table.rows ++ [row] := by
  rw [insert, dif_neg h.not_mem_keys]

theorem mem_insert {table : Table key} {row x : ρ} (h : table.Fresh (key row)) :
    x ∈ table.insert row ↔ x ∈ table ∨ x = row := by
  rw [mem_def, mem_def, rows_insert h, List.mem_append, List.mem_singleton]

theorem subset_insert (table : Table key) (row : ρ) {x : ρ} (hx : x ∈ table) :
    x ∈ table.insert row := by
  rw [insert]
  split
  · exact hx
  · exact List.mem_append_left _ hx

theorem mem_of_mem_insert {table : Table key} {row x : ρ} (h : x ∈ table.insert row) :
    x ∈ table ∨ x = row := by
  rw [mem_def, insert] at h
  split at h
  · exact Or.inl h
  · rcases List.mem_append.mp h with hold | hnew
    · exact Or.inl hold
    · exact Or.inr (List.mem_singleton.mp hnew)

theorem Fresh.insert {table : Table key} {row : ρ} {k : κ} (h : table.Fresh k)
    (hne : key row ≠ k) : (table.insert row).Fresh k := by
  intro x hx
  rcases mem_of_mem_insert hx with hold | rfl
  · exact h x hold
  · exact hne

def insertAll (table : Table key) (rows : List ρ) : Table key := rows.foldl insert table

@[simp] theorem insertAll_nil (table : Table key) : table.insertAll [] = table := rfl

@[simp] theorem insertAll_cons (table : Table key) (row : ρ) (rows : List ρ) :
    table.insertAll (row :: rows) = (table.insert row).insertAll rows := rfl

theorem insertAll_append (table : Table key) (rows rows' : List ρ) :
    table.insertAll (rows ++ rows') = (table.insertAll rows).insertAll rows' :=
  List.foldl_append

theorem rows_insertAll {table : Table key} {rows : List ρ}
    (hfresh : ∀ row ∈ rows, table.Fresh (key row)) (hnodup : (rows.map key).Nodup) :
    (table.insertAll rows).rows = table.rows ++ rows := by
  induction rows generalizing table with
  | nil => rw [insertAll_nil, List.append_nil]
  | cons row rows ih =>
    obtain ⟨hrow, hrows⟩ := List.forall_mem_cons.mp hfresh
    obtain ⟨hnew, hnodup⟩ := List.nodup_cons.mp hnodup
    rw [insertAll_cons, ih ?_ hnodup, rows_insert hrow, List.append_assoc, List.singleton_append]
    intro other hother
    apply (hrows other hother).insert
    intro hkey
    exact hnew (hkey ▸ List.mem_map_of_mem hother)

theorem isSome_get?_iff {table : Table key} {k : κ} :
    (table.get? k).isSome ↔ ∃ row ∈ table, key row = k := by
  rw [Option.isSome_iff_exists]
  exact exists_congr fun row => get?_eq_some_iff

def put (table : Table key) (row : ρ) : Table key :=
  table.modify (fun old => if key old = key row then row else old) (by
    intro old
    split
    · exact Eq.symm ‹_›
    · rfl)

theorem rows_put (table : Table key) (row : ρ) :
    (table.put row).rows = table.rows.map (fun old => if key old = key row then row else old) :=
  rfl

theorem mem_put {table : Table key} {row x : ρ} :
    x ∈ table.put row ↔
      (x = row ∧ ∃ old ∈ table, key old = key row) ∨ (x ∈ table ∧ key x ≠ key row) := by
  rw [put, mem_modify]
  constructor
  · rintro ⟨old, hold, rfl⟩
    by_cases hkey : key old = key row
    · rw [if_pos hkey]
      exact Or.inl ⟨rfl, old, hold, hkey⟩
    · rw [if_neg hkey]
      exact Or.inr ⟨hold, hkey⟩
  · rintro (⟨rfl, old, hold, hkey⟩ | ⟨hx, hkey⟩)
    · exact ⟨old, hold, if_pos hkey⟩
    · exact ⟨x, hx, if_neg hkey⟩

theorem mem_put_of_mem {table : Table key} {row old x : ρ} (hold : old ∈ table)
    (hkey : key old = key row) : x ∈ table.put row ↔ x = row ∨ (x ∈ table ∧ x ≠ old) := by
  rw [mem_put]
  constructor
  · rintro (⟨rfl, _⟩ | ⟨hx, hne⟩)
    · exact Or.inl rfl
    · exact Or.inr ⟨hx, fun h => hne (h ▸ hkey)⟩
  · rintro (rfl | ⟨hx, hne⟩)
    · exact Or.inl ⟨rfl, old, hold, hkey⟩
    · exact Or.inr ⟨hx, fun h => hne (eq_of_key_eq hx hold (h.trans hkey.symm))⟩

theorem put_self {table : Table key} {row : ρ} (h : row ∈ table) : table.put row = table := by
  apply Table.ext
  rw [rows_put]
  have hmap : table.rows.map (fun old => if key old = key row then row else old) =
      table.rows.map id := by
    apply List.map_congr_left
    intro old hold
    split
    · exact (eq_of_key_eq hold h ‹_›).symm
    · rfl
  rw [hmap, List.map_id]

theorem put_put (table : Table key) {row row' : ρ} (hkey : key row = key row') :
    (table.put row).put row' = table.put row' := by
  apply Table.ext
  rw [rows_put, rows_put, rows_put, List.map_map]
  apply List.map_congr_left
  intro old _
  simp only [Function.comp_apply]
  by_cases h : key old = key row'
  · rw [if_pos (h.trans hkey.symm), if_pos hkey, if_pos h]
  · have hne : key old ≠ key row := fun h' => h (h'.trans hkey)
    rw [if_neg hne, if_neg h]

def store (table : Table key) (row : ρ) : Table key := (table.put row).insert row

theorem mem_store {table : Table key} {row x : ρ} :
    x ∈ table.store row ↔ x = row ∨ (x ∈ table ∧ key x ≠ key row) := by
  have hput : x ∈ table.put row → x = row ∨ (x ∈ table ∧ key x ≠ key row) := by
    intro hx
    rcases mem_put.mp hx with ⟨rfl, _⟩ | hx
    · exact Or.inl rfl
    · exact Or.inr hx
  constructor
  · intro hx
    rw [store, insert] at hx
    split at hx
    · exact hput hx
    · rcases List.mem_append.mp hx with hx | hx
      · exact hput hx
      · exact Or.inl (List.mem_singleton.mp hx)
  · rintro (rfl | ⟨hx, hne⟩)
    · rw [store, insert]
      split
      case isTrue hkey =>
        obtain ⟨stored, hstored, heq⟩ := List.mem_map.mp hkey
        rcases mem_put.mp hstored with ⟨rfl, _⟩ | ⟨_, hne⟩
        · exact hstored
        · exact absurd heq hne
      case isFalse hkey => exact List.mem_append_right _ List.mem_cons_self
    · exact subset_insert _ _ (mem_put.mpr (Or.inr ⟨hx, hne⟩))

theorem get?_store (table : Table key) (row : ρ) (k : κ) :
    (table.store row).get? k = if key row = k then some row else table.get? k := by
  split
  case isTrue hkey => exact get?_eq_some_iff.mpr ⟨mem_store.mpr (Or.inl rfl), hkey⟩
  case isFalse hkey =>
    apply Option.ext
    intro x
    rw [get?_eq_some_iff, get?_eq_some_iff, mem_store]
    constructor
    · rintro ⟨rfl | ⟨hx, _⟩, rfl⟩
      · exact absurd rfl hkey
      · exact ⟨hx, rfl⟩
    · rintro ⟨hx, rfl⟩
      exact ⟨Or.inr ⟨hx, fun h => hkey h.symm⟩, rfl⟩

theorem filter_put_of_not {table : Table key} {row : ρ} {p : ρ → Bool}
    (hold : ∀ old ∈ table, key old = key row → p old = false) (hrow : p row = false) :
    (table.put row).rows.filter p = table.rows.filter p := by
  apply filter_map_rows
  · intro old hmem
    split
    · rw [hrow, hold old hmem ‹_›]
    · rfl
  · intro old hmem hp
    apply if_neg
    intro hkey
    rw [hold old hmem hkey] at hp
    cases hp

theorem get?_modify (table : Table key) (f : ρ → ρ) (hf : ∀ row, key (f row) = key row) (k : κ) :
    (table.modify f hf).get? k = (table.get? k).map f := by
  apply Option.ext
  intro row
  rw [get?_eq_some_iff, mem_modify, Option.map_eq_some_iff]
  constructor
  · rintro ⟨⟨old, hold, rfl⟩, hkey⟩
    exact ⟨old, get?_eq_some_iff.mpr ⟨hold, (hf old).symm.trans hkey⟩, rfl⟩
  · rintro ⟨old, hold, rfl⟩
    obtain ⟨hmem, hkey⟩ := get?_eq_some_iff.mp hold
    exact ⟨⟨old, hmem, rfl⟩, (hf old).trans hkey⟩

theorem get?_insert_eq_none_iff {table : Table key} {row : ρ} (h : table.get? (key row) = none)
    {k : κ} : (table.insert row).get? k = none ↔ table.get? k = none ∧ key row ≠ k := by
  rw [get?_eq_none_iff, get?_eq_none_iff]
  constructor
  · intro hnone
    exact ⟨fun x hx => hnone x (subset_insert table row hx),
      hnone row ((mem_insert (get?_eq_none_iff.mp h)).mpr (Or.inr rfl))⟩
  · rintro ⟨hnone, hne⟩ x hx
    rcases (mem_insert (get?_eq_none_iff.mp h)).mp hx with hx | rfl
    · exact hnone x hx
    · exact hne

theorem filter_insert_of_not (table : Table key) {row : ρ} {p : ρ → Bool} (hrow : p row = false) :
    (table.insert row).rows.filter p = table.rows.filter p := by
  rw [insert]
  split
  · rfl
  · rw [List.filter_append, List.filter_cons_of_neg (by simp [hrow]), List.filter_nil,
      List.append_nil]

theorem filter_insertAll_of_not (table : Table key) {rows : List ρ} {p : ρ → Bool}
    (hrows : ∀ row ∈ rows, p row = false) :
    (table.insertAll rows).rows.filter p = table.rows.filter p := by
  induction rows generalizing table with
  | nil => rfl
  | cons row rows ih =>
    obtain ⟨hrow, hrest⟩ := List.forall_mem_cons.mp hrows
    rw [insertAll_cons, ih _ hrest, filter_insert_of_not table hrow]

theorem get?_eq_head? (table : Table key) (k : κ) :
    table.get? k = (table.rows.filter fun row => key row = k).head? := by
  rw [get?, List.head?_filter]

end Table
