import YCStudio.Library.Trim

namespace Lines

variable {α : Type} (blank boundary : α → Bool)

def contents (s : List α) : List (List α) :=
  ((s.splitOnP boundary).map (Trim.strip blank)).filter (· ≠ [])

theorem line_cases (s : List α) :
    (∀ c ∈ s, boundary c = false) ∨
      ∃ line b rest, s = line ++ b :: rest ∧ boundary b = true ∧ ∀ c ∈ line, boundary c = false := by
  induction s with
  | nil => exact Or.inl (by simp)
  | cons c s ih =>
    cases hc : boundary c with
    | true => exact Or.inr ⟨[], c, s, rfl, hc, by simp⟩
    | false =>
      rcases ih with hline | ⟨line, b, rest, rfl, hb, hline⟩
      · exact Or.inl (List.forall_mem_cons.mpr ⟨hc, hline⟩)
      · exact Or.inr ⟨c :: line, b, rest, rfl, hb, List.forall_mem_cons.mpr ⟨hc, hline⟩⟩

theorem last_line_cases (s : List α) :
    (∀ c ∈ s, boundary c = false) ∨
      ∃ rest b line, s = rest ++ b :: line ∧ boundary b = true ∧ ∀ c ∈ line, boundary c = false := by
  rcases line_cases boundary s.reverse with hline | ⟨line, b, rest, hs, hb, hline⟩
  · exact Or.inl fun c hc => hline c (List.mem_reverse.mpr hc)
  · refine Or.inr ⟨rest.reverse, b, line.reverse, ?_, hb, fun c hc => hline c (List.mem_reverse.mp hc)⟩
    rw [← List.reverse_inj, hs]
    simp

@[simp] theorem contents_nil : contents blank boundary ([] : List α) = [] := by
  simp [contents, Trim.strip]

variable {blank boundary} {b c : α} {s t line : List α}

theorem contents_line (h : ∀ c ∈ line, boundary c = false) :
    contents blank boundary line = [Trim.strip blank line].filter (· ≠ []) := by
  rw [contents, List.splitOnP_eq_singleton h]
  rfl

theorem contents_append_cons (hb : boundary b = true) (s t : List α) :
    contents blank boundary (s ++ b :: t) =
      contents blank boundary s ++ contents blank boundary t := by
  simp only [contents]
  rw [List.splitOnP_append_cons s t hb, List.map_append, List.filter_append]

theorem contents_cons_boundary (hb : boundary b = true) (s : List α) :
    contents blank boundary (b :: s) = contents blank boundary s := by
  have h : contents blank boundary ([] ++ b :: s) = _ := contents_append_cons hb [] s
  rwa [contents_nil] at h

theorem contents_append {sep : List α} (hne : sep ≠ []) (hsep : ∀ c ∈ sep, boundary c = true)
    (s t : List α) :
    contents blank boundary (s ++ sep ++ t) =
      contents blank boundary s ++ contents blank boundary t := by
  cases sep with
  | nil => exact absurd rfl hne
  | cons b sep =>
    obtain ⟨hb, hrest⟩ := List.forall_mem_cons.mp hsep
    have hskip : contents blank boundary (sep ++ t) = contents blank boundary t := by
      clear hne hsep
      induction sep with
      | nil => rfl
      | cons b' sep ih =>
        obtain ⟨hb', hrest⟩ := List.forall_mem_cons.mp hrest
        rw [List.cons_append, contents_cons_boundary hb', ih hrest]
    rw [List.append_assoc, List.cons_append, contents_append_cons hb, hskip]

theorem contents_intercalate {sep : List α} (hne : sep ≠ []) (hsep : ∀ c ∈ sep, boundary c = true)
    (parts : List (List α)) :
    contents blank boundary (sep.intercalate parts) =
      (parts.map (contents blank boundary)).flatten := by
  induction parts with
  | nil => simp
  | cons part parts ih =>
    cases parts with
    | nil => simp
    | cons next rest =>
      rw [List.intercalate_cons_cons, contents_append hne hsep, ih]
      rfl

theorem contents_cons_blank (hc : blank c = true) (s : List α) :
    contents blank boundary (c :: s) = contents blank boundary s := by
  cases hb : boundary c with
  | true => exact contents_cons_boundary hb s
  | false =>
    have hstrip := Trim.strip_cons_blank blank hc
    rcases line_cases boundary s with hline | ⟨line, b, rest, rfl, hboundary, hline⟩
    · rw [contents_line hline, contents_line (List.forall_mem_cons.mpr ⟨hb, hline⟩), hstrip]
    · rw [← List.cons_append, contents_append_cons hboundary, contents_append_cons hboundary,
        contents_line hline, contents_line (List.forall_mem_cons.mpr ⟨hb, hline⟩), hstrip]

theorem contents_concat_blank (hc : blank c = true) (s : List α) :
    contents blank boundary (s ++ [c]) = contents blank boundary s := by
  cases hb : boundary c with
  | true => rw [contents_append_cons hb, contents_nil, List.append_nil]
  | false =>
    have hconcat {line : List α} (hline : ∀ d ∈ line, boundary d = false) :
        contents blank boundary (line ++ [c]) = contents blank boundary line := by
      have hline' : ∀ d ∈ line ++ [c], boundary d = false := by
        intro d hd
        rcases List.mem_append.mp hd with hd | hd
        · exact hline d hd
        · rwa [List.mem_singleton.mp hd]
      rw [contents_line hline, contents_line hline', Trim.strip_concat_blank blank hc]
    rcases last_line_cases boundary s with hline | ⟨rest, b, line, rfl, hboundary, hline⟩
    · exact hconcat hline
    · rw [List.append_assoc, List.cons_append, contents_append_cons hboundary,
        contents_append_cons hboundary, hconcat hline]

theorem contents_append_blank (hs : ∀ c ∈ s, blank c = true) (t : List α) :
    contents blank boundary (s ++ t) = contents blank boundary t := by
  induction s with
  | nil => rfl
  | cons c s ih =>
    obtain ⟨hc, hs⟩ := List.forall_mem_cons.mp hs
    rw [List.cons_append, contents_cons_blank hc, ih hs]

theorem contents_concat_blanks (ht : ∀ c ∈ t, blank c = true) (s : List α) :
    contents blank boundary (s ++ t) = contents blank boundary s := by
  induction t generalizing s with
  | nil => rw [List.append_nil]
  | cons c t ih =>
    obtain ⟨hc, ht⟩ := List.forall_mem_cons.mp ht
    rw [← List.singleton_append, ← List.append_assoc, ih ht, contents_concat_blank hc]

@[simp] theorem contents_strip (s : List α) :
    contents blank boundary (Trim.strip blank s) = contents blank boundary s := by
  obtain ⟨before, after, hs, hbefore, hafter⟩ := Trim.exists_blanks blank s
  conv_rhs => rw [hs]
  rw [contents_concat_blanks hafter, contents_append_blank hbefore]

end Lines
