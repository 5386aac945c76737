import YCStudio.Rag.CleanText

namespace YCStudio.TextCleaner

section Unchanged

structure AlreadyClean (nfkc : Str → Str) (text : Str) : Prop where
  normal : nfkc text = text
  visible : ∀ c ∈ text, Visible c
  noPageNumber : ∀ line ∈ text.split ['\n'], isPageNumberLine line = false
  noTrailing : ∀ line ∈ text.split ['\n'], line.rdropWhile isSpace = line
  noGap : (text.split ['\n']).IsChain fun line next => line ≠ [] ∨ next ≠ []
  stripped : Str.strip text = text

def Unindented (text : Str) : Prop := ∀ line ∈ text.split ['\n'], line.dropWhile isSpace = line

instance (text : Str) : Decidable (Unindented text) :=
  inferInstanceAs (Decidable (∀ line ∈ text.split ['\n'], _))

variable {nfkc : Str → Str} {text : Str}

theorem AlreadyClean.cleanLine (h : AlreadyClean nfkc text) (hindent : Unindented text) :
    ∀ line ∈ text.splitOn '\n', CleanLine line := by
  intro line hline
  rw [← Str.split_singleton] at hline
  refine ⟨?_, h.noPageNumber line hline⟩
  rw [Str.strip, Trim.strip, hindent line hline, h.noTrailing line hline]

theorem clean_eq_self_iff (h : AlreadyClean nfkc text) :
    clean nfkc text = text ↔ Unindented text := by
  constructor
  · intro hclean line hline
    have hlines := cleanLine_of_mem_clean nfkc text
    rw [hclean, ← Str.split_singleton] at hlines
    exact Trim.dropWhile_eq_self (hlines line hline).stripped
  · intro hindent
    have hlines := h.cleanLine hindent
    refine clean_eq_self h.normal h.visible hlines ?_ h.stripped
    have hgap := h.noGap
    rw [Str.split_singleton] at hgap
    refine List.isChain_iff_forall_rel_of_append_cons_cons.mpr fun {line next before after} hs => ?_
    have hline := (hlines line (by rw [hs]; simp)).stripped
    have hnext := (hlines next (by rw [hs]; simp)).stripped
    rw [hline, hnext]
    exact List.isChain_iff_forall_rel_of_append_cons_cons.mp hgap hs

def flatList : Str := "# Brief\n\n- one\n- two".toList

theorem clean_eq_self_flatList : clean id flatList = flatList :=
  (clean_eq_self_iff ⟨rfl, List.forall_iff_forall_mem.mp (by decide), by decide, by decide, by decide,
    by decide⟩).mpr (by decide)

def nestedList : Str := "- one\n  - two".toList

theorem not_clean_eq_self_nestedList :
    AlreadyClean id nestedList ∧ clean id nestedList = "- one\n- two".toList ∧
      clean id nestedList ≠ nestedList :=
  ⟨⟨rfl, List.forall_iff_forall_mem.mp (by decide), by decide, by decide, by decide, by decide⟩,
    by decide +kernel, by decide +kernel⟩

end Unchanged

section Idempotence

structure Canonical (nfkc : Str → Str) (text : Str) : Prop where
  normal : nfkc text = text
  visible : ∀ c ∈ text, Visible c
  noPageNumber : ∀ line ∈ text.split ['\n'], isPageNumberLine line = false
  noGap : Gapless (text.split ['\n'])

def Rejoins (nfkc : Str → Str) (line : Str) : Prop :=
  ¬ visibleLine line <:+: line ∧ nfkc (visibleLine line) ≠ visibleLine line

instance (nfkc : Str → Str) (line : Str) : Decidable (Rejoins nfkc line) :=
  inferInstanceAs (Decidable (_ ∧ _))

def StaysNormal (nfkc : Str → Str) (text : Str) : Prop :=
  ∀ line ∈ (withoutMargins nfkc text).split ['\n'],
    isPageNumberLine (visibleLine line) = false → ¬ Rejoins nfkc line

instance (nfkc : Str → Str) (text : Str) : Decidable (StaysNormal nfkc text) :=
  inferInstanceAs (Decidable (∀ line ∈ (withoutMargins nfkc text).split ['\n'], _ → _))

variable {nfkc : Str → Str}

theorem not_rejoins_iff (hnfkc : Lines.NormalForm '\n' nfkc) {text line : Str}
    (hline : line ∈ (withoutMargins nfkc text).splitOn '\n') :
    ¬ Rejoins nfkc line ↔ nfkc (visibleLine line) = visibleLine line := by
  refine ⟨fun h => ?_, fun h hrejoins => hrejoins.2 h⟩
  rw [Rejoins, not_and_not_right] at h
  by_cases hwithin : visibleLine line <:+: line
  · have habsent : '\n' ∉ visibleLine line := fun hc =>
      Lines.not_mem_of_mem_splitOn hline (hwithin.subset hc)
    exact hnfkc.eq_self_of_within (within_withoutMargins nfkc text) habsent
      (hwithin.trans (Lines.infix_of_mem_splitOn hline))
  · exact h hwithin

theorem forall_cleanLines_iff (hnfkc : Lines.NormalForm '\n' nfkc) (text : Str) :
    (∀ line ∈ cleanLines (visibleText nfkc text), nfkc line = line) ↔ StaysNormal nfkc text := by
  rw [StaysNormal, cleanLines_visibleText, Str.split_singleton]
  constructor
  · intro h line hline hkept
    refine (not_rejoins_iff hnfkc hline).mpr (h _ (List.mem_filter.mpr ⟨List.mem_map_of_mem hline, ?_⟩))
    simp [hkept]
  · intro h line hmem
    obtain ⟨hmap, hkept⟩ := List.mem_filter.mp hmem
    obtain ⟨source, hsource, rfl⟩ := List.mem_map.mp hmap
    refine (not_rejoins_iff hnfkc hsource).mp (h source hsource ?_)
    rcases of_decide_eq_true hkept with hnot | hempty
    · simpa using hnot
    · rw [hempty]
      exact isPageNumberLine_nil

theorem nfkc_clean_iff (hnfkc : Lines.NormalForm '\n' nfkc) (text : Str) :
    nfkc (clean nfkc text) = clean nfkc text ↔ StaysNormal nfkc text := by
  have hfilter := filter_lines_clean nfkc text
  have hempty : nfkc [] = [] := hnfkc.empty
  rw [hnfkc.eq_self_iff, ← forall_cleanLines_iff hnfkc]
  constructor
  · exact forall_lines_of_filter (P := fun line => nfkc line = line) hempty hfilter.symm
  · exact forall_lines_of_filter (P := fun line => nfkc line = line) hempty hfilter

theorem staysNormal_of_visible {text : Str}
    (h : ∀ c ∈ nfkc text, Visible c ∨ c = '\r' ∨ c = '\x0c') : StaysNormal nfkc text := by
  rintro line hline _ ⟨hwithin, _⟩
  rw [Str.split_singleton] at hline
  have hvisible : line.filter (Visible ·) = line := List.filter_eq_self.mpr fun c hc =>
    decide_eq_true (visible_of_mem_withoutMargins h c (Lines.mem_of_mem_splitOn hline hc))
  rw [visibleLine, hvisible] at hwithin
  exact hwithin (Trim.isInfix_strip isSpace line)

theorem clean_canonical_iff (hnfkc : Lines.NormalForm '\n' nfkc) (text : Str) :
    clean nfkc (clean nfkc text) = clean nfkc text ∧ Canonical nfkc (clean nfkc text) ↔
      StaysNormal nfkc text := by
  rw [← nfkc_clean_iff hnfkc]
  have hlines := cleanLine_of_mem_clean nfkc text
  have hvisible := visible_of_mem_clean nfkc text
  have hgap := gapless_clean nfkc text
  constructor
  · exact fun h => h.2.normal
  · intro hnormal
    refine ⟨clean_eq_self hnormal hvisible hlines hgap (strip_clean nfkc text), hnormal, hvisible, ?_, ?_⟩
    · rw [Str.split_singleton]
      exact fun line hline => (hlines line hline).text
    · rw [Str.split_singleton]
      exact hgap

-- What NFKC does to the one pair of characters of the samples that it composes.
def composeAcute : Str → Str
  | 'e' :: '\u0301' :: rest => 'é' :: composeAcute rest
  | c :: rest => c :: composeAcute rest
  | [] => []

theorem linewise_composeAcute : Lines.Linewise '\n' composeAcute where
  empty := rfl
  break_not_mem line := by
    fun_induction composeAcute line with
    | case1 rest ih => simpa using ih
    | case2 c rest hother ih =>
      intro h
      obtain ⟨hc, hrest⟩ := not_or.mp (List.mem_cons.not.mp h)
      exact List.mem_cons.not.mpr (not_or.mpr ⟨hc, ih hrest⟩)
    | case3 => simp
  append_cons s t := by
    fun_induction composeAcute s with
    | case1 rest ih => simpa [composeAcute] using ih
    | case2 c rest hother ih =>
      have hnot : ∀ rest', c = 'e' → rest ++ '\n' :: t = '\u0301' :: rest' → False := by
        intro rest' hc hrest
        cases rest with
        | nil => exact absurd (List.cons.inj hrest).1 (by decide)
        | cons d rest =>
          obtain rfl : d = '\u0301' := (List.cons.inj hrest).1
          exact hother rest hc rfl
      rw [List.cons_append, composeAcute, ih]
      · rfl
      · exact hnot
    | case3 => rfl

theorem composeAcute_eq_cons {s t : Str} (h : composeAcute s = '\u0301' :: t) :
    ∃ rest, s = '\u0301' :: rest := by
  revert h
  fun_cases composeAcute s with
  | case1 rest => exact fun h => absurd (List.cons.inj h).1 (by decide)
  | case2 c rest hother => exact fun h => ⟨rest, by rw [(List.cons.inj h).1]⟩
  | case3 => exact fun h => absurd h (by simp)

theorem not_infix_composeAcute (s : Str) : ¬ ['e', '\u0301'] <:+: composeAcute s := by
  fun_induction composeAcute s with
  | case1 rest ih =>
    intro h
    rcases List.infix_cons_iff.mp h with hstart | hrest
    · exact absurd (List.cons_prefix_cons.mp hstart).1 (by decide)
    · exact ih hrest
  | case2 c rest hother ih =>
    intro h
    rcases List.infix_cons_iff.mp h with hstart | hrest
    · obtain ⟨rfl, t, ht⟩ := List.cons_prefix_cons.mp hstart
      obtain ⟨rest', rfl⟩ := composeAcute_eq_cons ht.symm
      exact hother rest' rfl rfl
    · exact ih hrest
  | case3 => simp

theorem composeAcute_eq_self_iff (s : Str) :
    composeAcute s = s ↔ ¬ ['e', '\u0301'] <:+: s := by
  refine ⟨fun h => h ▸ not_infix_composeAcute s, ?_⟩
  fun_induction composeAcute s with
  | case1 rest ih => exact fun h => absurd ⟨[], rest, rfl⟩ h
  | case2 c rest hother ih =>
    exact fun h => by rw [ih fun hrest => h (List.infix_cons_iff.mpr (Or.inr hrest))]
  | case3 => exact fun _ => rfl

theorem normalForm_composeAcute : Lines.NormalForm '\n' composeAcute where
  toLinewise := linewise_composeAcute
  idempotent s := (composeAcute_eq_self_iff _).mpr (not_infix_composeAcute s)
  eq_self_of_part hpart ht :=
    (composeAcute_eq_self_iff _).mpr fun h => (composeAcute_eq_self_iff _).mp ht (h.trans hpart)

def composedText : Str := "cafe\u0301\u200b\n\n\n1/2\n- one".toList

theorem clean_canonical_composedText :
    clean composeAcute (clean composeAcute composedText) = clean composeAcute composedText ∧
      Canonical composeAcute (clean composeAcute composedText) :=
  (clean_canonical_iff normalForm_composeAcute composedText).mpr (by decide +kernel)

def splitAccent : Str := "e\u200b\u0301".toList

theorem not_clean_canonical_splitAccent :
    clean composeAcute splitAccent = "e\u0301".toList ∧
      clean composeAcute (clean composeAcute splitAccent) = "é".toList ∧
      composeAcute (clean composeAcute splitAccent) ≠ clean composeAcute splitAccent :=
  ⟨by decide +kernel, by decide +kernel, by decide +kernel⟩

end Idempotence

end YCStudio.TextCleaner
