import Mathlib.Data.List.Chain
import YCStudio.Library.Cuts
import YCStudio.Library.LineBreaks
import YCStudio.Rag.Cleaner

namespace YCStudio.TextCleaner

theorem isSpace_of_isLineBlank {c : Char} (h : isLineBlank c = true) : isSpace c = true := by
  have hc : c = ' ' ∨ c = '\t' := by simpa [isLineBlank] using h
  rcases hc with rfl | rfl <;> decide

section SkipBlankLines

theorem skipBlankLines_cases (fuel : Nat) (s : Str) :
    skipBlankLines (fuel + 1) s = (0, s) ∨
      ∃ blanks rest, s = blanks ++ '\n' :: rest ∧ (∀ c ∈ blanks, isLineBlank c = true) ∧
        skipBlankLines (fuel + 1) s =
          ((skipBlankLines fuel rest).1 + 1, (skipBlankLines fuel rest).2) := by
  rw [skipBlankLines]
  split
  · next rest hrest =>
    refine Or.inr ⟨s.takeWhile isLineBlank, rest, ?_, fun c hc => List.mem_takeWhile_imp hc, rfl⟩
    rw [← hrest, List.takeWhile_append_dropWhile]
  · exact Or.inl rfl

theorem skipBlankLines_suffix (fuel : Nat) (s : Str) :
    skipBlankLines fuel s = (0, s) ∨
      ∃ skipped, s = skipped ++ '\n' :: (skipBlankLines fuel s).2 ∧
        ∀ line ∈ skipped.splitOn '\n', ∀ c ∈ line, isLineBlank c = true := by
  induction fuel generalizing s with
  | zero => exact Or.inl rfl
  | succ fuel ih =>
    rcases skipBlankLines_cases fuel s with hnone | ⟨blanks, rest, hs, hblanks, hskip⟩
    · exact Or.inl hnone
    · right
      have habsent : '\n' ∉ blanks := fun hmem => by simpa [isLineBlank] using hblanks _ hmem
      rcases ih rest with hstop | ⟨skipped, hrest, hlines⟩
      · refine ⟨blanks, ?_, ?_⟩
        · rw [hskip, hstop]
          exact hs
        · rw [List.splitOn_eq_singleton habsent]
          simpa using hblanks
      · refine ⟨blanks ++ '\n' :: skipped, ?_, ?_⟩
        · rw [hskip, List.append_assoc, List.cons_append, ← hrest]
          exact hs
        · rw [List.splitOn_append_cons_self_of_not_mem habsent]
          exact List.forall_mem_cons.mpr ⟨hblanks, hlines⟩

theorem exists_blankLines {fuel : Nat} {s : Str} (h : 2 ≤ (skipBlankLines fuel s).1) :
    ∃ line next rest, s = line ++ '\n' :: (next ++ '\n' :: rest) ∧
      (∀ c ∈ line, isLineBlank c = true) ∧ ∀ c ∈ next, isLineBlank c = true := by
  match fuel with
  | 0 => exact absurd h (by simp [skipBlankLines])
  | fuel + 1 =>
    rcases skipBlankLines_cases fuel s with hnone | ⟨line, rest, hs, hline, hskip⟩
    · rw [hnone] at h
      exact absurd h (by simp)
    · rw [hskip] at h
      match fuel with
      | 0 => exact absurd h (by simp [skipBlankLines])
      | fuel + 1 =>
        rcases skipBlankLines_cases fuel rest with hnone | ⟨next, rest', hrest, hnext, _⟩
        · rw [hnone] at h
          exact absurd h (by simp)
        · exact ⟨line, next, rest', by rw [hs, hrest], hline, hnext⟩

theorem head?_skipBlankLines {fuel : Nat} {s : Str} (h : s.length ≤ fuel) :
    (skipBlankLines fuel s).2.head? ≠ some '\n' := by
  induction fuel generalizing s with
  | zero =>
    rw [List.length_eq_zero_iff.mp (Nat.le_zero.mp h)]
    simp [skipBlankLines]
  | succ fuel ih =>
    rw [skipBlankLines]
    split
    · next rest hrest =>
      refine ih ?_
      have hlength := (List.dropWhile_suffix (l := s) isLineBlank).length_le
      rw [hrest, List.length_cons] at hlength
      omega
    · next hother =>
      cases s with
      | nil => simp
      | cons c s =>
        intro hhead
        obtain rfl : c = '\n' := by simpa using hhead
        exact hother s (by simp [isLineBlank])

theorem skipBlankLines_break (fuel : Nat) (s : Str) :
    skipBlankLines (fuel + 1) ('\n' :: s) =
      ((skipBlankLines fuel s).1 + 1, (skipBlankLines fuel s).2) := by
  simp [skipBlankLines, isLineBlank]

end SkipBlankLines

section CollapseBlankLines

theorem collapseBlankLines_cases (fuel : Nat) (c : Char) (rest : Str) :
    (¬ (c = '\n' ∧ 2 ≤ (skipBlankLines rest.length rest).1) ∧
      collapseBlankLines (fuel + 1) (c :: rest) = c :: collapseBlankLines fuel rest) ∨
    (c = '\n' ∧ 2 ≤ (skipBlankLines rest.length rest).1 ∧
      collapseBlankLines (fuel + 1) (c :: rest) =
        '\n' :: '\n' :: collapseBlankLines fuel (skipBlankLines rest.length rest).2) := by
  rw [collapseBlankLines]
  by_cases h : c = '\n' ∧ 2 ≤ (skipBlankLines rest.length rest).1
  · exact Or.inr ⟨h.1, h.2, by rw [if_pos h]⟩
  · exact Or.inl ⟨h, by rw [if_neg h]⟩

theorem length_skipBlankLines_le (fuel : Nat) (s : Str) :
    (skipBlankLines fuel s).2.length ≤ s.length := by
  rcases skipBlankLines_suffix fuel s with hnone | ⟨skipped, hs, _⟩
  · rw [hnone]
  · have hlength := congrArg List.length hs
    simp at hlength
    omega

theorem head?_collapseBlankLines (fuel : Nat) (s : Str) :
    (collapseBlankLines fuel s).head? = s.head? := by
  cases fuel with
  | zero => rfl
  | succ fuel =>
    cases s with
    | nil => rfl
    | cons c rest =>
      rcases collapseBlankLines_cases fuel c rest with ⟨_, heq⟩ | ⟨rfl, _, heq⟩ <;> rw [heq] <;> rfl

theorem two_le_of_breaks {fuel : Nat} {s : Str} (h : s.length ≤ fuel)
    (hbreaks : ['\n', '\n'] <+: collapseBlankLines fuel s) :
    2 ≤ (skipBlankLines s.length s).1 := by
  obtain ⟨more, hmore⟩ := hbreaks
  have hhead : s.head? = some '\n' := by
    rw [← head?_collapseBlankLines fuel s, ← hmore]
    rfl
  obtain ⟨rest, rfl⟩ := List.head?_eq_some_iff.mp hhead
  obtain ⟨fuel, rfl⟩ : ∃ n, fuel = n + 1 := ⟨fuel - 1, by simp at h; omega⟩
  rw [List.length_cons, skipBlankLines_break]
  rcases collapseBlankLines_cases fuel '\n' rest with ⟨_, heq⟩ | ⟨_, hmany, _⟩
  · rw [heq] at hmore
    have hmore' : '\n' :: more = collapseBlankLines fuel rest := (List.cons.inj hmore).2
    have hnext : rest.head? = some '\n' := by
      rw [← head?_collapseBlankLines fuel rest, ← hmore']
      rfl
    obtain ⟨rest', rfl⟩ := List.head?_eq_some_iff.mp hnext
    rw [List.length_cons, skipBlankLines_break]
    omega
  · omega

theorem not_infix_collapseBlankLines {fuel : Nat} {s : Str} (h : s.length ≤ fuel) :
    ¬ ['\n', '\n', '\n'] <:+: collapseBlankLines fuel s := by
  induction fuel generalizing s with
  | zero =>
    rw [List.length_eq_zero_iff.mp (Nat.le_zero.mp h)]
    simp [collapseBlankLines]
  | succ fuel ih =>
    cases s with
    | nil => simp [collapseBlankLines]
    | cons c rest =>
      have hrest : rest.length ≤ fuel := by simpa using h
      rcases collapseBlankLines_cases fuel c rest with ⟨hfew, heq⟩ | ⟨rfl, hmany, heq⟩
      · rw [heq, List.infix_cons_iff]
        rintro (hstarts | hwithin)
        · obtain ⟨hc, hstarts⟩ := List.cons_prefix_cons.mp hstarts
          exact hfew ⟨hc.symm, two_le_of_breaks hrest hstarts⟩
        · exact ih hrest hwithin
      · have hskip := (length_skipBlankLines_le rest.length rest).trans hrest
        have hhead := head?_skipBlankLines (Nat.le_refl rest.length)
        rw [← head?_collapseBlankLines fuel] at hhead
        have hstop : ¬ ['\n'] <+: collapseBlankLines fuel (skipBlankLines rest.length rest).2 := by
          rintro ⟨more, hmore⟩
          exact hhead (by rw [← hmore]; rfl)
        rw [heq, List.infix_cons_iff, List.infix_cons_iff]
        rintro (hstarts | hstarts | hwithin)
        · exact hstop (by simpa using hstarts)
        · exact hstop (List.IsPrefix.trans (by simp) (List.cons_prefix_cons.mp hstarts).2)
        · exact ih hskip hwithin

theorem collapseBlankLines_subset (fuel : Nat) (s : Str) : collapseBlankLines fuel s ⊆ s := by
  induction fuel generalizing s with
  | zero => exact List.Subset.refl s
  | succ fuel ih =>
    cases s with
    | nil => exact List.Subset.refl []
    | cons c rest =>
      rcases collapseBlankLines_cases fuel c rest with ⟨_, heq⟩ | ⟨rfl, _, heq⟩
      · rw [heq]
        exact List.cons_subset_cons c (ih rest)
      · have hskip : (skipBlankLines rest.length rest).2 ⊆ rest := by
          rcases skipBlankLines_suffix rest.length rest with hnone | ⟨skipped, hs, _⟩
          · rw [hnone]
            exact List.Subset.refl rest
          · exact List.IsSuffix.subset ⟨skipped ++ ['\n'], by rw [List.append_assoc]; exact hs.symm⟩
        rw [heq]
        have hkept := List.Subset.trans (ih (skipBlankLines rest.length rest).2) hskip
        exact List.cons_subset.mpr ⟨List.mem_cons_self, List.cons_subset_cons '\n' hkept⟩

def Gapless (lines : List Str) : Prop :=
  lines.IsChain fun line next => Str.strip line ≠ [] ∨ Str.strip next ≠ []

theorem collapseBlankLines_eq_self {fuel : Nat} {s : Str} (h : Gapless (s.splitOn '\n').tail) :
    collapseBlankLines fuel s = s := by
  induction fuel generalizing s with
  | zero => rfl
  | succ fuel ih =>
    cases s with
    | nil => rfl
    | cons c rest =>
      rcases collapseBlankLines_cases fuel c rest with ⟨_, heq⟩ | ⟨rfl, hmany, _⟩
      · rw [heq, ih]
        by_cases hc : c = '\n'
        · rw [hc, Lines.splitOn_cons_self, List.tail_cons] at h
          exact List.IsChain.tail h
        · obtain ⟨first, lines, hrest, hcons⟩ := Lines.splitOn_cons_of_ne hc rest
          rw [hcons] at h
          rw [hrest]
          exact h
      · obtain ⟨line, next, rest', rfl, hline, hnext⟩ := exists_blankLines hmany
        have hblank {blanks : Str} (hblanks : ∀ c ∈ blanks, isLineBlank c = true) :
            '\n' ∉ blanks ∧ Str.strip blanks = [] :=
          ⟨fun hmem => by simpa [isLineBlank] using hblanks _ hmem,
            Str.strip_eq_nil_iff.mpr fun c hc => isSpace_of_isLineBlank (hblanks c hc)⟩
        obtain ⟨hlineBreak, hlineNil⟩ := hblank hline
        obtain ⟨hnextBreak, hnextNil⟩ := hblank hnext
        rw [Lines.splitOn_cons_self, List.tail_cons,
          List.splitOn_append_cons_self_of_not_mem hlineBreak,
          List.splitOn_append_cons_self_of_not_mem hnextBreak] at h
        rcases (List.isChain_cons_cons.mp h).1 with hne | hne
        · exact absurd hlineNil hne
        · exact absurd hnextNil hne

def Squeezed (s t : Str) : Prop :=
  (t.splitOn '\n').head? = (s.splitOn '\n').head? ∧
    (t.splitOn '\n').tail.filter (· ≠ []) = (s.splitOn '\n').tail.filter (· ≠ [])

theorem Squeezed.cons_break {s t : Str} (h : Squeezed s t) : Squeezed ('\n' :: s) ('\n' :: t) := by
  obtain ⟨hhead, htail⟩ := h
  refine ⟨by rw [Lines.splitOn_cons_self, Lines.splitOn_cons_self]; rfl, ?_⟩
  rw [Lines.splitOn_cons_self, Lines.splitOn_cons_self, List.tail_cons, List.tail_cons]
  obtain ⟨first, rest, hs⟩ := List.exists_cons_of_ne_nil (List.splitOn_ne_nil '\n' s)
  obtain ⟨first', rest', ht⟩ := List.exists_cons_of_ne_nil (List.splitOn_ne_nil '\n' t)
  rw [hs, ht] at hhead htail
  rw [hs, ht]
  obtain rfl : first' = first := by simpa using hhead
  rw [List.tail_cons, List.tail_cons] at htail
  rw [List.filter_cons, List.filter_cons, htail]

theorem Squeezed.cons {s t : Str} (h : Squeezed s t) {c : Char} (hc : c ≠ '\n') :
    Squeezed (c :: s) (c :: t) := by
  obtain ⟨hhead, htail⟩ := h
  obtain ⟨first, rest, hs, hcs⟩ := Lines.splitOn_cons_of_ne hc s
  obtain ⟨first', rest', ht, hct⟩ := Lines.splitOn_cons_of_ne hc t
  rw [hs, ht] at hhead htail
  rw [Squeezed, hcs, hct]
  obtain rfl : first' = first := by simpa using hhead
  exact ⟨rfl, htail⟩

theorem Squeezed.cons_skipped {rest skipped kept t : Str} (h : Squeezed kept t)
    (hsplit : rest.splitOn '\n' = skipped.splitOn '\n' ++ kept.splitOn '\n')
    (hempty : (skipped.splitOn '\n').filter (· ≠ []) = []) :
    Squeezed ('\n' :: rest) ('\n' :: '\n' :: t) := by
  obtain ⟨_, htail⟩ := h.cons_break
  simp only [Lines.splitOn_cons_self, List.tail_cons] at htail
  refine ⟨by rw [Lines.splitOn_cons_self, Lines.splitOn_cons_self]; rfl, ?_⟩
  rw [Lines.splitOn_cons_self, Lines.splitOn_cons_self, Lines.splitOn_cons_self, List.tail_cons,
    List.tail_cons, hsplit, List.filter_append, hempty, List.nil_append,
    List.filter_cons_of_neg (by simp), htail]

theorem squeezed_collapseBlankLines {fuel : Nat} {s : Str}
    (hlines : ∀ line ∈ (s.splitOn '\n').tail, Str.strip line = line) :
    Squeezed s (collapseBlankLines fuel s) := by
  induction fuel generalizing s with
  | zero => exact ⟨rfl, rfl⟩
  | succ fuel ih =>
    cases s with
    | nil => exact ⟨rfl, rfl⟩
    | cons c rest =>
      rcases collapseBlankLines_cases fuel c rest with ⟨_, heq⟩ | ⟨rfl, hmany, heq⟩
      · rw [heq]
        by_cases hc : c = '\n'
        · subst hc
          rw [Lines.splitOn_cons_self, List.tail_cons] at hlines
          exact (ih fun line hline => hlines line (List.mem_of_mem_tail hline)).cons_break
        · obtain ⟨first, lines, hrest, hcons⟩ := Lines.splitOn_cons_of_ne hc rest
          rw [hcons, List.tail_cons] at hlines
          exact (ih (by rw [hrest]; exact hlines)).cons hc
      · rw [heq]
        rw [Lines.splitOn_cons_self, List.tail_cons] at hlines
        rcases skipBlankLines_suffix rest.length rest with hnone | ⟨skipped, hskipped, hblank⟩
        · rw [hnone] at hmany
          exact absurd hmany (by simp)
        generalize (skipBlankLines rest.length rest).2 = kept at hskipped ⊢
        have hsplit : rest.splitOn '\n' = skipped.splitOn '\n' ++ kept.splitOn '\n' := by
          rw [hskipped, List.splitOn_append_cons_self]
        -- A stripped line of blanks is empty.
        have hempty : (skipped.splitOn '\n').filter (· ≠ []) = [] := by
          refine List.filter_eq_nil_iff.mpr fun line hline => ?_
          have hstripped := hlines line (by rw [hsplit]; exact List.mem_append_left _ hline)
          have hnil := Str.strip_eq_nil_iff.mpr
            fun c hc => isSpace_of_isLineBlank (hblank line hline c hc)
          simpa using hstripped.symm.trans hnil
        have hkept : ∀ line ∈ kept.splitOn '\n', Str.strip line = line :=
          fun line hline => hlines line (by rw [hsplit]; exact List.mem_append_right _ hline)
        exact (ih fun line hline => hkept line (List.mem_of_mem_tail hline)).cons_skipped hsplit hempty

end CollapseBlankLines

end YCStudio.TextCleaner
