import YCStudio.Library.Lines

namespace Lines

section Parts

variable {α : Type} {s t w : List α} {c : α}

theorem prefix_append_cons_iff (hc : c ∉ w) : w <+: s ++ c :: t ↔ w <+: s := by
  constructor
  · intro h
    induction s generalizing w with
    | nil =>
      cases w with
      | nil => exact List.nil_prefix
      | cons d w =>
        obtain ⟨rfl, _⟩ := List.cons_prefix_cons.mp h
        exact absurd List.mem_cons_self hc
    | cons d s ih =>
      cases w with
      | nil => exact List.nil_prefix
      | cons d' w =>
        obtain ⟨rfl, hrest⟩ := List.cons_prefix_cons.mp h
        exact List.cons_prefix_cons.mpr ⟨rfl, ih (fun hmem => hc (List.mem_cons_of_mem _ hmem)) hrest⟩
  · exact fun h => h.trans (List.prefix_append s _)

theorem infix_append_cons_iff (hc : c ∉ w) : w <:+: s ++ c :: t ↔ w <:+: s ∨ w <:+: t := by
  induction s with
  | nil =>
    rw [List.nil_append, List.infix_cons_iff, List.infix_nil]
    have h := prefix_append_cons_iff (s := []) (t := t) hc
    rw [List.nil_append, List.prefix_nil] at h
    rw [h]
  | cons d s ih =>
    have h := prefix_append_cons_iff (s := d :: s) (t := t) hc
    rw [List.cons_append] at h ⊢
    rw [List.infix_cons_iff, h, ih, List.infix_cons_iff, or_assoc]

theorem infix_of_append {sep : List α} (hsep : sep ≠ []) (hw : ∀ c ∈ sep, c ∉ w)
    (h : w <:+: s ++ sep ++ t) : w <:+: s ∨ w <:+: t := by
  induction sep generalizing s with
  | nil => exact absurd rfl hsep
  | cons c sep ih =>
    obtain ⟨hc, hrest⟩ := List.forall_mem_cons.mp hw
    rw [List.append_assoc, List.cons_append, infix_append_cons_iff hc] at h
    rcases h with h | h
    · exact Or.inl h
    · by_cases hnil : sep = []
      · rw [hnil, List.nil_append] at h
        exact Or.inr h
      · rcases ih hnil hrest (s := []) (by simpa using h) with hempty | h
        · rw [List.infix_nil.mp hempty]
          exact Or.inl (List.nil_infix)
        · exact Or.inr h

theorem infix_intercalate {sep part : List α} {parts : List (List α)} (h : part ∈ parts) :
    part <:+: sep.intercalate parts := by
  induction parts with
  | nil => cases h
  | cons first rest ih =>
    by_cases hnil : rest = []
    · rw [hnil] at h
      rw [hnil, List.intercalate_singleton, List.mem_singleton.mp h]
    · rw [List.intercalate_cons_of_ne_nil hnil]
      rcases List.mem_cons.mp h with rfl | h
      · rw [List.append_assoc]
        exact (List.prefix_append _ _).isInfix
      · exact (ih h).trans (List.suffix_append _ _).isInfix

def Within (nl : α) (s t : List α) : Prop := ∀ part, nl ∉ part → part <:+: s → part <:+: t

theorem Within.of_part (nl : α) (h : s <:+: t) : Within nl s t := fun _ _ hpart => hpart.trans h

theorem Within.trans {nl : α} {r : List α} (h : Within nl s t) (h' : Within nl t r) : Within nl s r :=
  fun part hpart hs => h' part hpart (h part hpart hs)

theorem Within.mem {nl c : α} (h : Within nl s t) (hc : c ≠ nl) (hmem : c ∈ s) : c ∈ t := by
  obtain ⟨before, after, rfl⟩ := List.append_of_mem hmem
  have hpart : [c] <:+: before ++ c :: after := ⟨before, after, by simp⟩
  exact (h [c] (by simpa using hc.symm) hpart).subset List.mem_cons_self

theorem Within.intercalate {nl : α} {sep : List α} {parts : List (List α)} (hsep : sep ≠ [])
    (hbreaks : ∀ c ∈ sep, c = nl) (h : ∀ part ∈ parts, Within nl part t) :
    Within nl (sep.intercalate parts) t := by
  intro w hw hwithin
  induction parts with
  | nil =>
    rw [List.infix_nil.mp hwithin]
    exact List.nil_infix
  | cons first rest ih =>
    obtain ⟨hfirst, hrest⟩ := List.forall_mem_cons.mp h
    by_cases hnil : rest = []
    · rw [hnil, List.intercalate_singleton] at hwithin
      exact hfirst w hw hwithin
    · rw [List.intercalate_cons_of_ne_nil hnil] at hwithin
      rcases infix_of_append hsep (fun c hc => hbreaks c hc ▸ hw) hwithin with hleft | hright
      · exact hfirst w hw hleft
      · exact ih hrest hright

end Parts

variable {α : Type} [DecidableEq α] {blank : α → Bool} {nl : α} {s : List α}

theorem splitOn_cons_self (s : List α) : (nl :: s).splitOn nl = [] :: s.splitOn nl := by
  rw [List.splitOn_cons_eq_if_modifyHead, if_pos (by simp)]

theorem splitOn_cons_of_ne {c : α} (hc : c ≠ nl) (s : List α) :
    ∃ line lines, s.splitOn nl = line :: lines ∧ (c :: s).splitOn nl = (c :: line) :: lines := by
  obtain ⟨line, lines, hlines⟩ := List.exists_cons_of_ne_nil (List.splitOn_ne_nil nl s)
  refine ⟨line, lines, hlines, ?_⟩
  rw [List.splitOn_cons_eq_if_modifyHead, if_neg (by simpa using hc), hlines, List.modifyHead_cons]

theorem splitOn_concat_self (s : List α) : (s ++ [nl]).splitOn nl = s.splitOn nl ++ [[]] := by
  rw [List.splitOn_append_cons_self, List.splitOn_nil]

theorem splitOn_concat_of_ne {c : α} (hc : c ≠ nl) (s : List α) :
    ∃ lines line, s.splitOn nl = lines ++ [line] ∧ (s ++ [c]).splitOn nl = lines ++ [line ++ [c]] := by
  have hsingle {line : List α} (hline : nl ∉ line) :
      line.splitOn nl = [line] ∧ (line ++ [c]).splitOn nl = [line ++ [c]] :=
    ⟨List.splitOn_eq_singleton hline, List.splitOn_eq_singleton (by simp [hline, Ne.symm hc])⟩
  rcases last_line_cases (· == nl) s with hline | ⟨rest, b, line, rfl, hb, hline⟩
  · obtain ⟨hs, hconcat⟩ := hsingle fun hmem => by simpa using hline nl hmem
    exact ⟨[], s, hs, hconcat⟩
  · obtain rfl : b = nl := by simpa using hb
    obtain ⟨hs, hconcat⟩ := hsingle fun hmem => by simpa using hline b hmem
    refine ⟨rest.splitOn b, line, ?_, ?_⟩
    · rw [List.splitOn_append_cons_self, hs]
    · rw [List.append_assoc, List.cons_append, List.splitOn_append_cons_self, hconcat]

omit [DecidableEq α] in
theorem intercalate_append {sep : List α} {lines lines' : List (List α)} (h : lines ≠ [])
    (h' : lines' ≠ []) :
    sep.intercalate (lines ++ lines') = sep.intercalate lines ++ sep ++ sep.intercalate lines' := by
  induction lines with
  | nil => exact absurd rfl h
  | cons line lines ih =>
    cases lines with
    | nil => rw [List.singleton_append, List.intercalate_cons_of_ne_nil h', List.intercalate_singleton]
    | cons next lines =>
      rw [List.cons_append, List.cons_append, List.intercalate_cons_cons, ← List.cons_append,
        ih (by simp), List.intercalate_cons_cons]
      simp only [List.append_assoc]

omit [DecidableEq α] in
theorem mem_intercalate {sep : List α} {lines : List (List α)} {c : α}
    (h : c ∈ sep.intercalate lines) : c ∈ sep ∨ ∃ line ∈ lines, c ∈ line := by
  induction lines with
  | nil => exact absurd h (by simp)
  | cons line lines ih =>
    by_cases hnil : lines = []
    · rw [hnil, List.intercalate_singleton] at h
      exact Or.inr ⟨line, List.mem_cons_self, h⟩
    · rw [List.intercalate_cons_of_ne_nil hnil] at h
      simp only [List.mem_append] at h
      rcases h with (h | h) | h
      · exact Or.inr ⟨line, List.mem_cons_self, h⟩
      · exact Or.inl h
      · rcases ih h with hsep | ⟨later, hlater, hc⟩
        · exact Or.inl hsep
        · exact Or.inr ⟨later, List.mem_cons_of_mem _ hlater, hc⟩

theorem not_mem_of_mem_splitOn {line : List α} (h : line ∈ s.splitOn nl) : nl ∉ line := by
  induction s generalizing line with
  | nil => simp [List.mem_singleton.mp h]
  | cons c s ih =>
    by_cases hc : c = nl
    · rw [hc, splitOn_cons_self] at h
      rcases List.mem_cons.mp h with rfl | h
      · exact List.not_mem_nil
      · exact ih h
    · obtain ⟨first, lines, hs, hcons⟩ := splitOn_cons_of_ne hc s
      rw [hcons] at h
      rw [hs] at ih
      rcases List.mem_cons.mp h with rfl | h
      · simpa [Ne.symm hc] using ih List.mem_cons_self
      · exact ih (List.mem_cons_of_mem _ h)

theorem infix_of_mem_splitOn {line : List α} (h : line ∈ s.splitOn nl) : line <:+: s := by
  have hs : [nl].intercalate (s.splitOn nl) = s := List.intercalate_splitOn nl
  rw [← hs]
  exact infix_intercalate h

theorem mem_of_mem_splitOn {line : List α} {c : α} (h : line ∈ s.splitOn nl) (hc : c ∈ line) :
    c ∈ s := (infix_of_mem_splitOn h).subset hc

theorem eq_of_filter_splitOn {line : List α} (hstrip : Trim.strip (· == nl) s = s)
    (h : (s.splitOn nl).filter (· ≠ []) = [line]) : s = line := by
  obtain ⟨first, rest, hs⟩ := List.exists_cons_of_ne_nil (List.splitOn_ne_nil nl s)
  have htext : s = [nl].intercalate (first :: rest) := by
    rw [← hs, List.intercalate_splitOn]
  have hfirst : first ≠ [] := by
    rintro rfl
    by_cases hrest : rest = []
    · rw [hs, hrest] at h
      simp at h
    · rw [List.intercalate_cons_of_ne_nil hrest] at htext
      rw [htext] at hstrip
      exact Trim.head_not_blank _ hstrip (by simp)
  rw [hs, List.filter_cons_of_pos (by simpa using hfirst)] at h
  obtain ⟨rfl, hempty⟩ := List.cons.inj h
  by_cases hrest : rest = []
  · rw [htext, hrest, List.intercalate_singleton]
  · have hlast : rest.getLast hrest = [] := by
      by_contra hne
      have hmem : rest.getLast hrest ∈ rest.filter (· ≠ []) :=
        List.mem_filter.mpr ⟨List.getLast_mem hrest, by simpa using hne⟩
      rw [hempty] at hmem
      cases hmem
    rw [← List.dropLast_concat_getLast hrest, hlast, ← List.cons_append,
      intercalate_append (by simp) (by simp), List.intercalate_singleton, List.append_nil] at htext
    rw [htext] at hstrip
    exact absurd (by simp) (Trim.last_not_blank hstrip)

theorem eq_nil_of_filter_splitOn (hstrip : Trim.strip (· == nl) s = s)
    (h : (s.splitOn nl).filter (· ≠ []) = []) : s = [] := by
  cases s with
  | nil => rfl
  | cons c s =>
    have hc : c ≠ nl := by simpa using Trim.head_not_blank _ hstrip
    obtain ⟨line, lines, _, hcons⟩ := splitOn_cons_of_ne hc s
    rw [hcons, List.filter_cons_of_pos (by simp)] at h
    cases h

theorem splitOn_map_splitOnP {p : α → Bool} (s : List α) :
    (s.map fun c => if p c then nl else c).splitOn nl =
      s.splitOnP fun c => p c || c == nl := by
  induction s with
  | nil => rfl
  | cons c s ih =>
    rw [List.map_cons, List.splitOn_cons_eq_if_modifyHead, List.splitOnP_cons_eq_if_modifyHead, ih]
    by_cases hp : p c
    · simp [hp]
    · by_cases hc : c = nl
      · simp [hc]
      · simp [hp, hc]

section Strip

variable (hlines : ∀ line ∈ s.splitOn nl, Trim.strip blank line = line)
include hlines

theorem splitOn_dropWhile :
    ∃ k, s.splitOn nl = List.replicate k [] ++ (s.dropWhile blank).splitOn nl := by
  induction s with
  | nil => exact ⟨0, rfl⟩
  | cons c s ih =>
    by_cases hblank : blank c
    · rw [List.dropWhile_cons_of_pos hblank]
      by_cases hc : c = nl
      · rw [hc, splitOn_cons_self] at hlines ⊢
        obtain ⟨k, hk⟩ := ih fun line hline => hlines line (List.mem_cons_of_mem _ hline)
        exact ⟨k + 1, by rw [hk, List.replicate_succ]; rfl⟩
      · obtain ⟨line, lines, _, hcons⟩ := splitOn_cons_of_ne hc s
        have hfirst := hlines (c :: line) (by rw [hcons]; exact List.mem_cons_self)
        exact absurd hblank (Trim.head_not_blank blank hfirst)
    · exact ⟨0, by rw [List.dropWhile_cons_of_neg hblank]; rfl⟩

theorem splitOn_rdropWhile :
    ∃ k, s.splitOn nl = (s.rdropWhile blank).splitOn nl ++ List.replicate k [] := by
  induction s using List.reverseRecOn with
  | nil => exact ⟨0, rfl⟩
  | append_singleton s c ih =>
    by_cases hblank : blank c
    · rw [List.rdropWhile_concat_pos _ _ _ hblank]
      by_cases hc : c = nl
      · rw [hc, splitOn_concat_self] at hlines ⊢
        obtain ⟨k, hk⟩ := ih fun line hline => hlines line (List.mem_append_left _ hline)
        exact ⟨k + 1, by rw [hk, List.replicate_succ', List.append_assoc]⟩
      · obtain ⟨lines, line, _, hconcat⟩ := splitOn_concat_of_ne hc s
        have hlast := hlines (line ++ [c]) (by rw [hconcat]; simp)
        exact absurd hblank (Trim.last_not_blank hlast)
    · exact ⟨0, by rw [List.rdropWhile_concat_neg _ _ _ hblank]; simp⟩

theorem splitOn_strip :
    ∃ k m, s.splitOn nl =
      List.replicate k [] ++ (Trim.strip blank s).splitOn nl ++ List.replicate m [] := by
  obtain ⟨k, hk⟩ := splitOn_dropWhile hlines
  rw [hk] at hlines
  obtain ⟨m, hm⟩ := splitOn_rdropWhile fun line hline => hlines line (List.mem_append_right _ hline)
  exact ⟨k, m, by rw [hk, hm, List.append_assoc]; rfl⟩

end Strip

structure Linewise (nl : α) (f : List α → List α) : Prop where
  empty : f [] = []
  break_not_mem : ∀ line, nl ∉ line → nl ∉ f line
  append_cons : ∀ s t, f (s ++ nl :: t) = f s ++ nl :: f t

theorem Linewise.splitOn {f : List α → List α} (h : Linewise nl f) (s : List α) :
    (f s).splitOn nl = (s.splitOn nl).map f := by
  generalize hn : s.length = n
  induction n using Nat.strong_induction_on generalizing s with
  | _ n ih =>
    rcases line_cases (· == nl) s with hline | ⟨line, b, rest, rfl, hb, hline⟩
    · have habsent : nl ∉ s := fun hmem => by simpa using hline nl hmem
      rw [List.splitOn_eq_singleton habsent, List.splitOn_eq_singleton (h.break_not_mem s habsent)]
      rfl
    · obtain rfl : b = nl := by simpa using hb
      have habsent : b ∉ line := fun hmem => by simpa using hline b hmem
      have hlength : rest.length < n := by
        rw [← hn, List.length_append, List.length_cons]
        omega
      rw [h.append_cons, List.splitOn_append_cons_self_of_not_mem (h.break_not_mem line habsent),
        List.splitOn_append_cons_self_of_not_mem habsent, ih _ hlength rest rfl]
      rfl

omit [DecidableEq α] in
theorem linewise_filter {p : α → Bool} (hp : p nl = true) : Linewise nl (List.filter p) where
  empty := rfl
  break_not_mem _ hline hmem := hline (List.mem_of_mem_filter hmem)
  append_cons s t := by rw [List.filter_append, List.filter_cons_of_pos hp]

theorem Linewise.eq_self_iff {f : List α → List α} (h : Linewise nl f) (s : List α) :
    f s = s ↔ ∀ line ∈ s.splitOn nl, f line = line := by
  constructor
  · intro hs line hline
    have hmap := h.splitOn s
    rw [hs] at hmap
    obtain ⟨i, hi, rfl⟩ := List.mem_iff_getElem.mp hline
    have hget := congrArg (·[i]?) hmap
    simpa [List.getElem?_eq_getElem hi] using hget.symm
  · intro hlines
    have hmap : (s.splitOn nl).map f = s.splitOn nl := by
      conv_rhs => rw [← List.map_id (s.splitOn nl)]
      exact List.map_congr_left hlines
    calc f s
        = [nl].intercalate ((f s).splitOn nl) := (List.intercalate_splitOn nl).symm
      _ = [nl].intercalate (s.splitOn nl) := by rw [h.splitOn, hmap]
      _ = s := List.intercalate_splitOn nl

structure NormalForm (nl : α) (f : List α → List α) : Prop extends Linewise nl f where
  idempotent : ∀ s, f (f s) = f s
  eq_self_of_part : ∀ {s t : List α}, s <:+: t → f t = t → f s = s

omit [DecidableEq α] in
theorem NormalForm.eq_self_of_within {f : List α → List α} (h : NormalForm nl f) {t line : List α}
    (hwithin : Within nl t (f s)) (hline : nl ∉ line) (hpart : line <:+: t) : f line = line :=
  h.eq_self_of_part (hwithin line hline hpart) (h.idempotent s)

end Lines
