import YCStudio.Library.Table

namespace Table

variable {κ ρ : Type} {key : ρ → κ} {table : Table key} {p q : ρ → Prop} [DecidablePred p]
  [DecidablePred q]

theorem erase_congr (h : ∀ row ∈ table, p row ↔ q row) : table.erase p = table.erase q := by
  apply Table.ext
  rw [rows_erase, rows_erase]
  exact List.filter_congr fun row hrow => decide_eq_decide.mpr (not_congr (h row hrow))

theorem erase_modify {f : ρ → ρ} (hf : ∀ row, key (f row) = key row)
    (h : ∀ row ∈ table, p (f row) ↔ p row) :
    (table.modify f hf).erase p = (table.erase p).modify f hf := by
  apply Table.ext
  rw [rows_erase, rows_modify, rows_modify, rows_erase, List.filter_map]
  refine congrArg (List.map f) (List.filter_congr fun row hrow => ?_)
  exact decide_eq_decide.mpr (not_congr (h row hrow))

theorem erase_modify_of {f : ρ → ρ} (hf : ∀ row, key (f row) = key row)
    (h : ∀ row ∈ table, p (f row) ↔ p row) (hsame : ∀ row ∈ table, ¬ p row → f row = row) :
    (table.modify f hf).erase p = table.erase p := by
  rw [erase_modify hf h]
  apply Table.ext
  rw [rows_modify]
  calc (table.erase p).rows.map f
      = (table.erase p).rows.map id := by
        refine List.map_congr_left fun row hrow => ?_
        obtain ⟨hmem, hkept⟩ := mem_erase.mp hrow
        exact hsame row hmem hkept
    _ = (table.erase p).rows := List.map_id _

variable [DecidableEq κ] {row : ρ} {rows : List ρ}

theorem insert_of_mem {old : ρ} (hold : old ∈ table) (hkey : key old = key row) :
    table.insert row = table := by
  rw [insert, dif_pos (List.mem_map.mpr ⟨old, hold, hkey⟩)]

theorem erase_insert (hrow : ¬ p row) (hkept : ∀ old ∈ table, key old = key row → ¬ p old) :
    (table.insert row).erase p = (table.erase p).insert row := by
  by_cases hkey : ∃ old ∈ table, key old = key row
  · obtain ⟨old, hold, hsame⟩ := hkey
    rw [insert_of_mem hold hsame,
      insert_of_mem (mem_erase.mpr ⟨hold, hkept old hold hsame⟩) hsame]
  · have hfresh : table.Fresh (key row) := fun old hold hsame => hkey ⟨old, hold, hsame⟩
    have hlast : [row].filter (fun row => ¬ p row) = [row] := by simp [hrow]
    apply Table.ext
    rw [rows_erase, rows_insert hfresh, rows_insert hfresh.erase, rows_erase, List.filter_append,
      hlast]

theorem erase_insert_of (hrow : p row) : (table.insert row).erase p = table.erase p := by
  apply Table.ext
  rw [rows_erase, rows_erase]
  exact filter_insert_of_not table (decide_eq_false (not_not.mpr hrow))

theorem erase_put (hrow : ¬ p row) (hold : ∀ old ∈ table, key old = key row → ¬ p old) :
    (table.put row).erase p = (table.erase p).put row := by
  refine erase_modify _ fun old hmem => ?_
  split
  next hkey => exact iff_of_false hrow (hold old hmem hkey)
  next => exact Iff.rfl

theorem erase_put_of (hrow : p row) (hold : ∀ old ∈ table, key old = key row → p old) :
    (table.put row).erase p = table.erase p := by
  refine erase_modify_of _ (fun old hmem => ?_) fun old hmem hkept => ?_
  · split
    next hkey => exact iff_of_true hrow (hold old hmem hkey)
    next => exact Iff.rfl
  · exact if_neg fun hkey => hkept (hold old hmem hkey)

theorem erase_insertAll (hrows : ∀ row ∈ rows, ¬ p row)
    (hfresh : ∀ row ∈ rows, table.Fresh (key row)) (hnodup : (rows.map key).Nodup) :
    (table.insertAll rows).erase p = (table.erase p).insertAll rows := by
  have hkept : rows.filter (fun row => ¬ p row) = rows :=
    List.filter_eq_self.mpr fun row hrow => decide_eq_true (hrows row hrow)
  apply Table.ext
  rw [rows_erase, rows_insertAll hfresh hnodup,
    rows_insertAll (fun row hrow => (hfresh row hrow).erase) hnodup, List.filter_append, hkept,
    rows_erase]

theorem erase_insertAll_of (hrows : ∀ row ∈ rows, p row) :
    (table.insertAll rows).erase p = table.erase p := by
  apply Table.ext
  rw [rows_erase, rows_erase]
  exact filter_insertAll_of_not table fun row hrow => decide_eq_false (not_not.mpr (hrows row hrow))

end Table
