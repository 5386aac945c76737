import YCStudio.Library.Cuts
import YCStudio.Library.Escaping
import YCStudio.Rag.Parsers

namespace YCStudio

def cellText (value : Str) : Str := (value.replace ['\n'] "<br>".toList).strip

def tableWidth (rows : List (List Str)) : Nat := (rows.map List.length).max?.getD 0

def RowLine (width : Nat) (text : Nat → Str) (line : Str) : Prop :=
  ∃ cells, Escaping.cut '\\' '|' line = [] :: (cells ++ [[]]) ∧ cells.length = width ∧
    ∀ j cell, cells[j]? = some cell → (Str.strip (Escaping.unescape '\\' '|' cell)) = text j

def paddedCell (cell : Str) : Str := ' ' :: (cell ++ [' '])

def paddedRow (width : Nat) (row : List Str) : List Str :=
  row ++ List.replicate (width - row.length) []

section Cells

theorem replace_singleton (c : Char) (new s : Str) :
    s.replace [c] new = s.flatMap fun d => if d = c then new else [d] :=
  Trim.intercalate_cut_singleton c new s

theorem strip_escape (s : Str) :
    Str.strip (Escaping.escape '\\' '|' s) = Escaping.escape '\\' '|' s.strip := by
  refine Escaping.strip_flatMap (fun c hc => ?_) (fun c hc => ?_) s
  · have hplain : ¬ (c = '\\' ∨ c = '|') := by
      rintro (rfl | rfl) <;> exact absurd hc (by decide)
    rw [Escaping.escapeSymbol, if_neg hplain]
  · rw [Escaping.escapeSymbol]
    split
    · exact ⟨by simp, by simpa using And.intro (by decide) (by simpa using hc)⟩
    · exact ⟨by simp, by simpa using hc⟩

theorem escapeCell_eq (value : Str) : escapeCell value = Escaping.escape '\\' '|' (cellText value) := by
  rw [cellText, ← strip_escape, escapeCell, replace_singleton, replace_singleton, replace_singleton,
    replace_singleton, Escaping.escape, List.flatMap_assoc, List.flatMap_assoc, List.flatMap_assoc]
  congr 2
  funext c
  by_cases hbackslash : c = '\\'
  · subst hbackslash
    decide
  by_cases hpipe : c = '|'
  · subst hpipe
    decide
  by_cases hbreak : c = '\n'
  · subst hbreak
    decide
  simp [hbackslash, hpipe, hbreak, Escaping.escapeSymbol]

theorem break_not_mem_cellText (value : Str) : '\n' ∉ cellText value := by
  intro h
  have hmem := Str.strip_subset _ h
  rw [replace_singleton, List.mem_flatMap] at hmem
  obtain ⟨c, _, hc⟩ := hmem
  split at hc
  · exact absurd hc (by decide)
  · next hne => exact hne (List.mem_singleton.mp hc).symm

theorem break_not_mem_escape {s : Str} (h : '\n' ∉ s) : '\n' ∉ Escaping.escape '\\' '|' s := by
  intro hmem
  rw [Escaping.escape, List.mem_flatMap] at hmem
  obtain ⟨c, hc, hmem⟩ := hmem
  rw [Escaping.escapeSymbol] at hmem
  split at hmem
  · rcases List.mem_cons.mp hmem with hbackslash | hmem
    · exact absurd hbackslash (by decide)
    · exact h (List.mem_singleton.mp hmem ▸ hc)
  · exact h (List.mem_singleton.mp hmem ▸ hc)

theorem escape_paddedCell (s : Str) :
    Escaping.escape '\\' '|' (paddedCell s) = paddedCell (Escaping.escape '\\' '|' s) := by
  have hblank : Escaping.escape '\\' '|' [' '] = [' '] := by decide
  have h := Escaping.escape_append '\\' '|' [' '] (s ++ [' '])
  rw [Escaping.escape_append '\\' '|' s, hblank] at h
  exact h

theorem strip_paddedCell (s : Str) : Str.strip (paddedCell s) = s.strip := by
  have hblank : isSpace ' ' = true := by decide
  rw [paddedCell, Str.strip, Trim.strip_cons_blank isSpace hblank, Trim.strip_concat_blank isSpace hblank,
    Str.strip]

theorem unescape_paddedCell (s : Str) :
    Str.strip (Escaping.unescape '\\' '|' (paddedCell (Escaping.escape '\\' '|' s))) = s.strip := by
  rw [← escape_paddedCell, Escaping.unescape_escape, strip_paddedCell]

end Cells

section Lines

theorem intercalate_paddedCell {cells : List Str} (h : cells ≠ []) :
    ['|'].intercalate (cells.map paddedCell) = paddedCell (Str.join " | ".toList cells) := by
  induction cells with
  | nil => exact absurd rfl h
  | cons cell cells ih =>
    cases cells with
    | nil => simp [Str.join]
    | cons next cells =>
      rw [List.map_cons, List.intercalate_cons_of_ne_nil (by simp), ih (by simp), Str.join, Str.join,
        List.intercalate_cons_cons]
      simp [paddedCell]

theorem tableLine_eq {cells : List Str} (h : cells ≠ []) :
    tableLine cells = ['|'].intercalate ([] :: (cells.map paddedCell ++ [[]])) := by
  rw [List.intercalate_cons_of_ne_nil (by simp), Lines.intercalate_append (by simpa using h) (by simp),
    intercalate_paddedCell h]
  simp [tableLine, paddedCell]

theorem cut_tableLine {texts : List Str} (h : texts ≠ []) :
    Escaping.cut '\\' '|' (tableLine (texts.map (Escaping.escape '\\' '|'))) =
      [] :: (texts.map (paddedCell ∘ Escaping.escape '\\' '|') ++ [[]]) := by
  have hcells : texts.map (paddedCell ∘ Escaping.escape '\\' '|') =
      (texts.map paddedCell).map (Escaping.escape '\\' '|') := by
    rw [List.map_map]
    exact List.map_congr_left fun s _ => (escape_paddedCell s).symm
  have hne : [] :: (texts.map paddedCell ++ [[]]) ≠ [] := by simp
  have hspecial : '\\' ≠ '|' := by decide
  have hcut := Escaping.cut_intercalate hspecial hne
  rw [tableLine_eq (by simpa using h), List.map_map, hcells]
  simpa using hcut

theorem rowLine_tableLine {texts : List Str} (h : texts ≠ []) {text : Nat → Str}
    (htext : ∀ j s, texts[j]? = some s → s.strip = text j) :
    RowLine texts.length text (tableLine (texts.map (Escaping.escape '\\' '|'))) := by
  refine ⟨_, cut_tableLine h, List.length_map _, fun j cell hcell => ?_⟩
  rw [List.getElem?_map] at hcell
  obtain ⟨s, hs, rfl⟩ := Option.map_eq_some_iff.mp hcell
  rw [Function.comp_apply, unescape_paddedCell, htext j s hs]

theorem break_not_mem_tableLine {cells : List Str} (h : ∀ cell ∈ cells, '\n' ∉ cell) :
    '\n' ∉ tableLine cells := by
  intro hmem
  simp only [tableLine, List.mem_append] at hmem
  rcases hmem with (hmem | hmem) | hmem
  · exact absurd hmem (by decide)
  · rcases Lines.mem_intercalate hmem with hmem | ⟨cell, hcell, hmem⟩
    · exact absurd hmem (by decide)
    · exact h cell hcell hmem
  · exact absurd hmem (by decide)

end Lines

section Rows

variable {rows : List (List Str)}

theorem length_le_tableWidth {row : List Str} (h : row ∈ rows) : row.length ≤ tableWidth rows := by
  have hmem : row.length ∈ rows.map List.length := List.mem_map_of_mem h
  obtain ⟨width, hwidth⟩ := Option.isSome_iff_exists.mp (List.isSome_max?_of_mem hmem)
  rw [tableWidth, hwidth]
  exact (List.max?_eq_some_iff.mp hwidth).2 _ hmem

theorem tableWidth_pos {row : List Str} (h : row ∈ rows) (hrow : row ≠ []) : 0 < tableWidth rows :=
  (List.length_pos_iff.mpr hrow).trans_le (length_le_tableWidth h)

theorem length_paddedRow {width : Nat} {row : List Str} (h : row.length ≤ width) :
    (paddedRow width row).length = width := by
  rw [paddedRow, List.length_append, List.length_replicate]
  omega

theorem map_paddedRow (width : Nat) (row : List Str) :
    (paddedRow width row).map escapeCell =
      row.map escapeCell ++ List.replicate (width - (row.map escapeCell).length) [] := by
  have hempty : escapeCell [] = [] := by decide
  rw [paddedRow, List.map_append, List.map_replicate, hempty, List.length_map]

theorem rowsToMarkdown_eq {first : List Str} {rest : List (List Str)}
    (h : 0 < tableWidth (first :: rest)) :
    rowsToMarkdown (first :: rest) = Str.join ['\n']
      (tableLine ((paddedRow (tableWidth (first :: rest)) first).map escapeCell) ::
        tableLine (List.replicate (tableWidth (first :: rest)) "---".toList) ::
        rest.map fun row =>
          tableLine ((paddedRow (tableWidth (first :: rest)) row).map escapeCell)) := by
  have hlengths : ((first :: rest).map fun row => row.map escapeCell).map List.length =
      (first :: rest).map List.length := by
    rw [List.map_map]
    exact List.map_congr_left fun row _ => List.length_map _
  have hwidth : (((first :: rest).map fun row => row.map escapeCell).map List.length).max?.getD 0 =
      tableWidth (first :: rest) := by
    rw [hlengths, tableWidth]
  unfold rowsToMarkdown
  simp only [hwidth]
  rw [if_neg h.ne']
  simp only [map_paddedRow, List.map_cons, List.head?_cons, Option.toList_some, List.map_nil,
    List.singleton_append, List.tail_cons, List.map_map]
  rfl

theorem rowLine_paddedRow {width : Nat} {row : List Str} (hwidth : 0 < width)
    (hrow : row.length ≤ width) :
    RowLine width (fun j => (row[j]?.map cellText).getD [])
      (tableLine ((paddedRow width row).map escapeCell)) := by
  have hcells : (paddedRow width row).map escapeCell =
      ((paddedRow width row).map cellText).map (Escaping.escape '\\' '|') := by
    rw [List.map_map]
    exact List.map_congr_left fun value _ => escapeCell_eq value
  have hlength : ((paddedRow width row).map cellText).length = width := by
    rw [List.length_map, length_paddedRow hrow]
  have hne : (paddedRow width row).map cellText ≠ [] := by
    rw [← List.length_pos_iff, hlength]
    exact hwidth
  have htext : ∀ (j : Nat) (s : Str), ((paddedRow width row).map cellText)[j]? = some s →
      Str.strip s = (row[j]?.map cellText).getD [] := by
    intro j s hs
    rw [List.getElem?_map] at hs
    obtain ⟨value, hvalue, rfl⟩ := Option.map_eq_some_iff.mp hs
    rw [cellText, Str.strip_strip, ← cellText]
    by_cases hj : j < row.length
    · rw [paddedRow, List.getElem?_append_left hj] at hvalue
      rw [hvalue]
      rfl
    · rw [paddedRow, List.getElem?_append_right (by omega)] at hvalue
      rw [List.getElem?_eq_none (by omega), List.eq_of_mem_replicate (List.mem_of_getElem? hvalue)]
      decide
  have h := rowLine_tableLine hne htext
  rwa [hlength, ← hcells] at h

theorem rowLine_separator {width : Nat} (hwidth : 0 < width) :
    RowLine width (fun _ => "---".toList) (tableLine (List.replicate width "---".toList)) := by
  have hplain : (List.replicate width "---".toList).map (Escaping.escape '\\' '|') =
      List.replicate width "---".toList := by
    rw [List.map_replicate]
    congr 1
  have hne : List.replicate width "---".toList ≠ [] := by simpa using hwidth.ne'
  have htext : ∀ (j : Nat) (s : Str), (List.replicate width "---".toList)[j]? = some s →
      Str.strip s = "---".toList := by
    intro j s hs
    rw [List.eq_of_mem_replicate (List.mem_of_getElem? hs)]
    decide
  have h := rowLine_tableLine hne htext
  rwa [List.length_replicate, hplain] at h

theorem break_not_mem_paddedRow (width : Nat) (row : List Str) :
    '\n' ∉ tableLine ((paddedRow width row).map escapeCell) := by
  refine break_not_mem_tableLine fun cell hcell => ?_
  obtain ⟨value, _, rfl⟩ := List.mem_map.mp hcell
  rw [escapeCell_eq]
  exact break_not_mem_escape (break_not_mem_cellText value)

theorem break_not_mem_separator (width : Nat) :
    '\n' ∉ tableLine (List.replicate width "---".toList) := by
  refine break_not_mem_tableLine fun cell hcell => ?_
  rw [List.eq_of_mem_replicate hcell]
  decide

theorem rowsToMarkdown_readBack (h : ∃ row ∈ rows, row ≠ []) :
    ∃ header separator body,
      (rowsToMarkdown rows).splitOn '\n' = header :: separator :: body ∧
      (header :: separator :: body).length = rows.length + 1 ∧
      RowLine (tableWidth rows) (fun _ => "---".toList) separator ∧
      List.Forall₂ (fun row line =>
        RowLine (tableWidth rows) (fun j => (row[j]?.map cellText).getD []) line)
        rows (header :: body) := by
  obtain ⟨row, hrow, hne⟩ := h
  have hwidth := tableWidth_pos hrow hne
  cases rows with
  | nil => cases hrow
  | cons first rest =>
    generalize hw : tableWidth (first :: rest) = width at hwidth
    have hlength : ∀ row ∈ first :: rest, row.length ≤ width := fun row hmem =>
      hw ▸ length_le_tableWidth hmem
    have hline : ∀ row ∈ first :: rest,
        RowLine width (fun j => (row[j]?.map cellText).getD [])
          (tableLine ((paddedRow width row).map escapeCell)) := fun row hmem =>
      rowLine_paddedRow hwidth (hlength row hmem)
    refine ⟨_, _, rest.map fun row => tableLine ((paddedRow width row).map escapeCell), ?_, ?_,
      rowLine_separator hwidth, List.Forall₂.cons (hline first List.mem_cons_self) ?_⟩
    · rw [rowsToMarkdown_eq (hw ▸ hwidth), hw]
      refine List.splitOn_intercalate _ (fun line hmem => ?_) (by simp)
      simp only [List.mem_cons, List.mem_map] at hmem
      rcases hmem with rfl | rfl | ⟨row, _, rfl⟩
      · exact break_not_mem_paddedRow width first
      · exact break_not_mem_separator width
      · exact break_not_mem_paddedRow width row
    · simp
    · rw [List.forall₂_map_right_iff, List.forall₂_same]
      exact fun row hmem => hline row (List.mem_cons_of_mem _ hmem)

theorem rowsToMarkdown_readBack_ragged :
    ∃ header separator body,
      (rowsToMarkdown [["a|b".toList, "x\\\ny".toList], [" c ".toList]]).splitOn '\n' =
        header :: separator :: body ∧
      (header :: separator :: body).length = 3 ∧
      RowLine 2 (fun _ => "---".toList) separator ∧
      List.Forall₂ (fun row line => RowLine 2 (fun j => (row[j]?.map cellText).getD []) line)
        [["a|b".toList, "x\\\ny".toList], [" c ".toList]] (header :: body) :=
  rowsToMarkdown_readBack ⟨["a|b".toList, "x\\\ny".toList], by decide, by decide⟩

example : rowsToMarkdown [["a|b".toList, "x\\\ny".toList], [" c ".toList]] =
    "| a\\|b | x\\\\<br>y |\n| --- | --- |\n| c |  |".toList := by decide +kernel

end Rows

end YCStudio
