import YCStudio.Rag.BlankLines

namespace YCStudio.TextCleaner

theorem isPageNumberLine_nil : isPageNumberLine [] = false := by decide

section Normalised

theorem removeRepeatedPageMargins_eq_self {text : Str} (h : '\x0c' ∉ text) :
    removeRepeatedPageMargins text = text := by
  have hpages : text.split ['\x0c'] = [text] :=
    Trim.cut_eq_self (by simp) fun hwithin => h (hwithin.subset List.mem_cons_self)
  simp [removeRepeatedPageMargins, hpages]

theorem infix_of_mem_splitLinesFrom (line s : Str) :
    ∀ l ∈ Str.splitLinesFrom line s, l <:+: line ++ s := by
  fun_induction Str.splitLinesFrom line s with
  | case1 => simp
  | case2 line hne => simp
  | case3 line rest ih =>
    refine List.forall_mem_cons.mpr ⟨(List.prefix_append _ _).isInfix, fun l hl => ?_⟩
    exact (ih l hl).trans ⟨line ++ ['\r', '\n'], [], by simp⟩
  | case4 line d rest _ hd ih =>
    refine List.forall_mem_cons.mpr ⟨(List.prefix_append _ _).isInfix, fun l hl => ?_⟩
    exact (ih l hl).trans ⟨line ++ [d], [], by simp⟩
  | case5 line d rest _ hd ih =>
    intro l hl
    have h := ih l hl
    rwa [List.append_assoc, List.singleton_append] at h

theorem cleanedPage_line {text : Str} {page : Str}
    (h : page ∈ (cleanPages (pageLines text)).map pageText) :
    ∃ part ∈ text.splitOn '\x0c', ∃ lines : List Str, page = pageText lines ∧
      ∀ line ∈ lines, line <:+: part := by
  obtain ⟨lines, hlines, rfl⟩ := List.mem_map.mp h
  obtain ⟨source, hsource, rfl⟩ := List.mem_map.mp hlines
  obtain ⟨part, hpart, rfl⟩ := List.mem_map.mp hsource
  rw [Str.split_singleton] at hpart
  refine ⟨part, hpart, _, rfl, fun line hline => ?_⟩
  have hread := (cleanPage_margins (pageLines text) (Str.splitLines part)).subset hline
  exact infix_of_mem_splitLinesFrom [] part line hread

theorem not_mem_removeRepeatedPageMargins (text : Str) : '\x0c' ∉ removeRepeatedPageMargins text := by
  by_cases hbreak : '\x0c' ∈ text
  · have hpages : 2 ≤ (pageLines text).length := by
      rw [pageLines, List.length_map]
      have hne : (text.split ['\x0c']).length ≠ 1 := fun hone =>
        Trim.length_cut_singleton_eq_one_iff.mp hone hbreak
      have hpos := List.length_pos_iff.mpr (Trim.cut_ne_nil ['\x0c'] text)
      change 0 < (text.split ['\x0c']).length at hpos
      omega
    rw [removeRepeatedPageMargins_eq hpages]
    intro hmem
    rcases Lines.mem_intercalate hmem with hsep | ⟨page, hpage, hc⟩
    · simp at hsep
    · obtain ⟨part, hpart, lines, rfl, hlines⟩ := cleanedPage_line (List.mem_of_mem_filter hpage)
      rcases Lines.mem_intercalate (Str.strip_subset _ hc) with hsep | ⟨line, hline, hchar⟩
      · simp at hsep
      · exact Lines.not_mem_of_mem_splitOn hpart ((hlines line hline).subset hchar)
  · rw [removeRepeatedPageMargins_eq_self hbreak]
    exact hbreak

theorem within_replace {old : Str} (hold : old ≠ []) (text : Str) :
    Lines.Within '\n' (text.replace old ['\n']) text := by
  refine .intercalate (by simp) (by simp) fun part hpart => ?_
  have htext : old.intercalate (text.split old) = text := Trim.intercalate_cut hold text
  have hwithin : part <:+: text := htext ▸ Lines.infix_intercalate hpart
  exact .of_part _ hwithin

theorem within_removeRepeatedPageMargins (text : Str) :
    Lines.Within '\n' (removeRepeatedPageMargins text) text := by
  by_cases hpages : 2 ≤ (pageLines text).length
  · rw [removeRepeatedPageMargins_eq hpages]
    refine .intercalate (by simp) (by simp) fun page hpage => ?_
    obtain ⟨part, hpart, lines, rfl, hlines⟩ := cleanedPage_line (List.mem_of_mem_filter hpage)
    refine (Lines.Within.of_part _ (Trim.isInfix_strip isSpace _)).trans ?_
    exact .intercalate (by simp) (by simp) fun line hline =>
      .of_part _ ((hlines line hline).trans (Lines.infix_of_mem_splitOn hpart))
  · rw [removeRepeatedPageMargins, if_pos (by simpa [pageLines] using hpages)]
    exact .of_part _ (List.infix_refl text)

def withoutMargins (nfkc : Str → Str) (text : Str) : Str :=
  removeRepeatedPageMargins (((nfkc text).replace ['\r', '\n'] ['\n']).replace ['\r'] ['\n'])

theorem within_withoutMargins (nfkc : Str → Str) (text : Str) :
    Lines.Within '\n' (withoutMargins nfkc text) (nfkc text) :=
  ((within_removeRepeatedPageMargins _).trans (within_replace (by simp) _)).trans
    (within_replace (by simp) _)

def visibleText (nfkc : Str → Str) (text : Str) : Str :=
  ((withoutMargins nfkc text).filter (¬ isZeroWidth ·)).filter fun c =>
    c ∈ ['\n', '\t', '\x0c'] ∨ ¬ isControl c

def Visible (c : Char) : Prop :=
  isZeroWidth c = false ∧ (isControl c = true → c = '\n' ∨ c = '\t')

instance (c : Char) : Decidable (Visible c) := inferInstanceAs (Decidable (_ ∧ _))

theorem not_mem_replace (text : Str) : '\r' ∉ text.replace ['\r'] ['\n'] := by
  intro hmem
  rcases Lines.mem_intercalate hmem with hsep | ⟨line, hline, hc⟩
  · simp at hsep
  · rw [Str.split_singleton] at hline
    exact Lines.not_mem_of_mem_splitOn hline hc

theorem visible_of_mem_withoutMargins {nfkc : Str → Str} {text : Str}
    (h : ∀ c ∈ nfkc text, Visible c ∨ c = '\r' ∨ c = '\x0c') :
    ∀ c ∈ withoutMargins nfkc text, Visible c := by
  intro c hc
  by_cases hbreak : c = '\n'
  · rw [hbreak]
    decide
  · rcases h c ((within_withoutMargins nfkc text).mem hbreak hc) with hvisible | rfl | rfl
    · exact hvisible
    · have hreplaced := (within_removeRepeatedPageMargins _).mem (by decide) hc
      exact absurd hreplaced (not_mem_replace _)
    · exact absurd hc (not_mem_removeRepeatedPageMargins _)

theorem visibleText_eq (nfkc : Str → Str) (text : Str) :
    visibleText nfkc text = (withoutMargins nfkc text).filter (Visible ·) := by
  rw [visibleText, List.filter_filter]
  refine List.filter_congr fun c hc => ?_
  have hbreak : c ≠ '\x0c' := by
    rintro rfl
    exact not_mem_removeRepeatedPageMargins _ hc
  cases hwidth : isZeroWidth c <;> cases hcontrol : isControl c <;>
    simp [Visible, hwidth, hcontrol, hbreak]

theorem visible_of_mem {nfkc : Str → Str} {text : Str} {c : Char} (h : c ∈ visibleText nfkc text) :
    Visible c := by
  rw [visibleText_eq] at h
  exact of_decide_eq_true (List.mem_filter.mp h).2

theorem visibleText_eq_self {nfkc : Str → Str} {text : Str} (hnormal : nfkc text = text)
    (hvisible : ∀ c ∈ text, Visible c) : visibleText nfkc text = text := by
  have habsent {c : Char} (hcontrol : isControl c = true) (hc : c ≠ '\n' ∧ c ≠ '\t') : c ∉ text := by
    intro hmem
    rcases (hvisible c hmem).2 hcontrol with rfl | rfl
    · exact hc.1 rfl
    · exact hc.2 rfl
  have hreturn : '\r' ∉ text := habsent (by decide) (by decide)
  have hcrlf : text.replace ['\r', '\n'] ['\n'] = text := by
    rw [Str.replace, Str.split, Trim.cut_eq_self (by simp)
      fun hwithin => hreturn (hwithin.subset List.mem_cons_self)]
    exact List.intercalate_singleton
  have hcr : text.replace ['\r'] ['\n'] = text := Trim.intercalate_cut_eq_self hreturn ['\n']
  rw [visibleText_eq, withoutMargins, hnormal, hcrlf, hcr,
    removeRepeatedPageMargins_eq_self (habsent (by decide) (by decide))]
  exact List.filter_eq_self.mpr fun c hc => decide_eq_true (hvisible c hc)

end Normalised

section CleanedLines

structure CleanLine (line : Str) : Prop where
  stripped : Str.strip line = line
  text : isPageNumberLine line = false

theorem cleanLine_nil : CleanLine [] := ⟨rfl, isPageNumberLine_nil⟩

theorem mem_cleanLines {s line : Str} (h : line ∈ cleanLines s) :
    CleanLine line ∧ '\n' ∉ line ∧ ∀ c ∈ line, c ∈ s := by
  obtain ⟨hmem, hkept⟩ := List.mem_filter.mp h
  obtain ⟨source, hsource, rfl⟩ := List.mem_map.mp hmem
  have hsub : ∀ c ∈ Str.strip (source.rdropWhile isLineBlank), c ∈ source :=
    fun c hc => (List.rdropWhile_prefix _ _).subset (Str.strip_subset _ hc)
  rw [Str.split_singleton] at hsource
  refine ⟨⟨Str.strip_strip _, ?_⟩, fun hc => Lines.not_mem_of_mem_splitOn hsource (hsub _ hc),
    fun c hc => Lines.mem_of_mem_splitOn hsource (hsub c hc)⟩
  rcases of_decide_eq_true hkept with htext | hnil
  · simpa using htext
  · rw [hnil]
    exact isPageNumberLine_nil

theorem cleanLines_eq_self {s : Str} (h : ∀ line ∈ s.splitOn '\n', CleanLine line) :
    cleanLines s = s.splitOn '\n' := by
  have hstrip : ∀ line ∈ s.splitOn '\n', Str.strip (line.rdropWhile isLineBlank) = line := by
    intro line hline
    have hstripped := (h line hline).stripped
    have hdrop : line.rdropWhile isLineBlank = line := by
      refine List.rdropWhile_eq_self_iff.mpr fun hne hblank => ?_
      rw [← List.dropLast_concat_getLast hne] at hstripped
      exact Trim.last_not_blank hstripped (isSpace_of_isLineBlank hblank)
    rw [hdrop, hstripped]
  rw [cleanLines, Str.split_singleton, List.map_congr_left hstrip, List.map_id']
  exact List.filter_eq_self.mpr fun line hline => by simp [(h line hline).text]

def visibleLine (line : Str) : Str := Str.strip (line.filter (Visible ·))

theorem cleanLines_visibleText (nfkc : Str → Str) (text : Str) :
    cleanLines (visibleText nfkc text) =
      (((withoutMargins nfkc text).splitOn '\n').map visibleLine).filter fun line =>
        ¬ isPageNumberLine line ∨ line = [] := by
  have hfilter : Lines.Linewise '\n' (List.filter (Visible ·)) := Lines.linewise_filter (by decide)
  have hline : (fun line => Str.strip (List.rdropWhile isLineBlank (line.filter (Visible ·)))) =
      visibleLine := funext fun line => Trim.strip_rdropWhile _ (fun _ => isSpace_of_isLineBlank) _
  rw [cleanLines, Str.split_singleton, visibleText_eq, hfilter.splitOn, List.map_map]
  exact congrArg (fun f => (((withoutMargins nfkc text).splitOn '\n').map f).filter _) hline

def joinedLines (s : Str) : Str := Str.join ['\n'] (cleanLines s)

theorem clean_eq (nfkc : Str → Str) (text : Str) :
    clean nfkc text = Str.strip (collapseBlankLines (joinedLines (visibleText nfkc text)).length
      (joinedLines (visibleText nfkc text))) := rfl

theorem filter_splitOn_joinedLines (s : Str) :
    ((joinedLines s).splitOn '\n').filter (· ≠ []) = (cleanLines s).filter (· ≠ []) := by
  by_cases hnil : cleanLines s = []
  · simp [joinedLines, Str.join, hnil]
  · rw [joinedLines, Str.join,
      List.splitOn_intercalate '\n' (fun line hline => (mem_cleanLines hline).2.1) hnil]

theorem Squeezed.filter_eq {s t : Str} (h : Squeezed s t) :
    (t.splitOn '\n').filter (· ≠ []) = (s.splitOn '\n').filter (· ≠ []) := by
  obtain ⟨hhead, htail⟩ := h
  obtain ⟨first, rest, hs⟩ := List.exists_cons_of_ne_nil (List.splitOn_ne_nil '\n' s)
  obtain ⟨first', rest', ht⟩ := List.exists_cons_of_ne_nil (List.splitOn_ne_nil '\n' t)
  rw [hs, ht] at hhead htail ⊢
  obtain rfl : first' = first := by simpa using hhead
  rw [List.tail_cons, List.tail_cons] at htail
  rw [List.filter_cons, List.filter_cons, htail]

theorem forall_lines_of_filter {P : Str → Prop} (hnil : P []) {lines lines' : List Str}
    (h : lines.filter (· ≠ []) = lines'.filter (· ≠ [])) (hlines : ∀ line ∈ lines', P line) :
    ∀ line ∈ lines, P line := by
  intro line hline
  by_cases hempty : line = []
  · rw [hempty]
    exact hnil
  · have hmem : line ∈ lines.filter (· ≠ []) := List.mem_filter.mpr ⟨hline, by simpa using hempty⟩
    rw [h] at hmem
    exact hlines line (List.mem_of_mem_filter hmem)

variable (nfkc : Str → Str) (text : Str)

theorem filter_lines_collapsed :
    ((collapseBlankLines (joinedLines (visibleText nfkc text)).length
      (joinedLines (visibleText nfkc text))).splitOn '\n').filter (· ≠ []) =
      (cleanLines (visibleText nfkc text)).filter (· ≠ []) := by
  have hjoined := filter_splitOn_joinedLines (visibleText nfkc text)
  have hstripped : ∀ line ∈ (joinedLines (visibleText nfkc text)).splitOn '\n', Str.strip line = line :=
    forall_lines_of_filter (P := fun line => Str.strip line = line) rfl hjoined
      fun line hline => (mem_cleanLines hline).1.stripped
  rw [← hjoined]
  exact (squeezed_collapseBlankLines fun line hline =>
    hstripped line (List.mem_of_mem_tail hline)).filter_eq

theorem filter_lines_clean :
    ((clean nfkc text).splitOn '\n').filter (· ≠ []) =
      (cleanLines (visibleText nfkc text)).filter (· ≠ []) := by
  have hcollapsed := filter_lines_collapsed nfkc text
  have hstripped := forall_lines_of_filter (P := fun line => Str.strip line = line) rfl hcollapsed
    fun line hline => (mem_cleanLines hline).1.stripped
  obtain ⟨k, m, hlines⟩ := Lines.splitOn_strip hstripped
  rw [← hcollapsed, hlines, clean_eq]
  simp [Str.strip]

theorem cleanLine_of_mem_clean : ∀ line ∈ (clean nfkc text).splitOn '\n', CleanLine line :=
  forall_lines_of_filter cleanLine_nil (filter_lines_clean nfkc text)
    fun _ hline => (mem_cleanLines hline).1

theorem strip_clean : Str.strip (clean nfkc text) = clean nfkc text := by
  rw [clean_eq]
  exact Str.strip_strip _

theorem visible_of_mem_clean : ∀ c ∈ clean nfkc text, Visible c := by
  intro c hc
  rw [clean_eq] at hc
  have hjoined := collapseBlankLines_subset _ _ (Str.strip_subset _ hc)
  rcases Lines.mem_intercalate hjoined with hsep | ⟨line, hline, hmem⟩
  · rw [List.mem_singleton.mp hsep]
    exact ⟨by decide, fun _ => Or.inl rfl⟩
  · exact visible_of_mem ((mem_cleanLines hline).2.2 c hmem)

theorem not_infix_clean : ¬ ['\n', '\n', '\n'] <:+: clean nfkc text := by
  intro hwithin
  rw [clean_eq] at hwithin
  exact not_infix_collapseBlankLines (Nat.le_refl _) (hwithin.trans (Trim.isInfix_strip isSpace _))

end CleanedLines

theorem gapless_of_not_infix {s : Str} (hstrip : Str.strip s = s)
    (hlines : ∀ line ∈ s.splitOn '\n', Str.strip line = line)
    (hbreaks : ¬ ['\n', '\n', '\n'] <:+: s) : Gapless (s.splitOn '\n') := by
  refine List.isChain_iff_forall_rel_of_append_cons_cons.mpr fun {line next before after} hs => ?_
  by_contra hblank
  obtain ⟨hline, hnext⟩ := not_or.mp hblank
  have hlineNil : line = [] := by
    rw [← hlines line (by rw [hs]; simp)]
    exact not_not.mp hline
  have hnextNil : next = [] := by
    rw [← hlines next (by rw [hs]; simp)]
    exact not_not.mp hnext
  have htext : s = ['\n'].intercalate (before ++ [] :: [] :: after) := by
    have hsplit : ['\n'].intercalate (s.splitOn '\n') = s := List.intercalate_splitOn '\n'
    rw [hs, hlineNil, hnextNil] at hsplit
    exact hsplit.symm
  by_cases hbefore : before = []
  · rw [hbefore, List.nil_append, List.intercalate_cons_cons] at htext
    rw [htext] at hstrip
    exact Trim.head_not_blank isSpace hstrip (by decide)
  · rw [Lines.intercalate_append hbefore (by simp), List.intercalate_cons_cons] at htext
    by_cases hafter : after = []
    · rw [hafter, List.intercalate_singleton] at htext
      have hend : s = ['\n'].intercalate before ++ ['\n'] ++ ['\n'] := by simpa using htext
      rw [hend] at hstrip
      exact Trim.last_not_blank hstrip (by decide)
    · rw [List.intercalate_cons_of_ne_nil hafter] at htext
      exact hbreaks ⟨['\n'].intercalate before, ['\n'].intercalate after, by rw [htext]; simp⟩

theorem gapless_clean (nfkc : Str → Str) (text : Str) : Gapless ((clean nfkc text).splitOn '\n') :=
  gapless_of_not_infix (strip_clean nfkc text)
    (fun line hline => (cleanLine_of_mem_clean nfkc text line hline).stripped)
    (not_infix_clean nfkc text)

theorem clean_eq_self {nfkc : Str → Str} {text : Str} (hnormal : nfkc text = text)
    (hvisible : ∀ c ∈ text, Visible c) (hlines : ∀ line ∈ text.splitOn '\n', CleanLine line)
    (hgap : Gapless (text.splitOn '\n')) (hstrip : Str.strip text = text) :
    clean nfkc text = text := by
  have hjoined : joinedLines text = text := by
    rw [joinedLines, cleanLines_eq_self hlines]
    exact List.intercalate_splitOn '\n'
  rw [clean_eq, visibleText_eq_self hnormal hvisible, hjoined,
    collapseBlankLines_eq_self (List.IsChain.tail hgap), hstrip]

end YCStudio.TextCleaner
