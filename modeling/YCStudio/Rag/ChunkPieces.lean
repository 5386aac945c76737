import YCStudio.Library.Traverse
import YCStudio.Rag.TokenSearch

namespace YCStudio.TextChunker

variable (chunker : TextChunker)

theorem tokenLimitedTail_suffix (text : Str) (limit : Nat) :
    ∃ t, t <:+ text ∧ (t = [] ∨ limit ≠ 0 ∧ chunker.countTokens t ≤ limit) ∧
      chunker.tokenLimitedTail text limit = Str.strip t := by
  by_cases hlimit : limit = 0
  · exact ⟨[], List.nil_suffix, Or.inl rfl, by rw [tokenLimitedTail, if_pos hlimit]; rfl⟩
  · have hfound := chunker.foundTail_firstAccepted text limit
    exact ⟨_, hfound.isSuffix, hfound.fits.imp_right fun hfits => ⟨hlimit, hfits⟩,
      by rw [tokenLimitedTail, if_neg hlimit]⟩

theorem flatten_splitPreservingSeparator {separator : Str} (hsep : separator ≠ []) (text : Str) :
    (splitPreservingSeparator text separator).flatten = text := by
  have hcut : separator.intercalate (text.split separator) = text :=
    Trim.intercalate_cut hsep text
  have hne : text.split separator ≠ [] := Trim.cut_ne_nil separator text
  unfold splitPreservingSeparator
  generalize text.split separator = parts at hcut hne
  dsimp only
  split
  · simp
  · split
    · rw [Trim.flatten_trailing, hcut]
    · obtain ⟨part, parts, rfl⟩ := List.exists_cons_of_ne_nil hne
      rw [← hcut, ← Trim.flatten_leading]
      rfl

structure Fits (piece : Str) : Prop where
  stripped : Str.strip piece = piece
  within : chunker.countTokens piece ≤ chunker.maxTokens

def Oversized (text : Str) : Prop :=
  ∃ c ∈ text, ¬ isSpace c ∧ chunker.maxTokens < chunker.countTokens [c]

theorem Oversized.mono {chunker : TextChunker} {s t : Str} (hst : s ⊆ t)
    (h : chunker.Oversized s) : chunker.Oversized t := by
  obtain ⟨c, hc, hrest⟩ := h
  exact ⟨c, hst hc, hrest⟩

section Pieces

variable {P : Str → Prop}
  (hsofar : ∀ remaining, chunker.largestPrefixWithinLimit remaining chunker.maxTokens ≠ 0 →
    P (Str.strip (remaining.take
      (chunker.largestPrefixWithinLimit remaining chunker.maxTokens))))
include hsofar

theorem hardSplitLoop_forall {remaining : Str} {pieces : List Str}
    (h : chunker.hardSplitLoop remaining = .ok pieces) : ∀ piece ∈ pieces, P piece := by
  induction remaining using hardSplitLoop.induct chunker generalizing pieces with
  | case1 =>
    rw [hardSplitLoop, dif_pos rfl] at h
    cases h
    simp
  | case2 remaining hne stop =>
    rename_i hstop
    rw [hardSplitLoop, dif_neg hne, dif_pos hstop] at h
    cases h
  | case3 remaining hne stop hstop =>
    rename_i ih
    rw [hardSplitLoop, dif_neg hne, dif_neg hstop] at h
    obtain ⟨rest, hrest, heq⟩ := Except.bind_eq_ok h
    cases heq
    intro piece hp
    rcases List.mem_cons.mp hp with rfl | hp
    · exact hsofar remaining hstop
    · exact ih hrest piece hp

theorem hardSplit_forall {text : Str} {pieces : List Str}
    (h : chunker.hardSplit text = .ok pieces) : ∀ piece ∈ pieces, P piece := by
  obtain ⟨all, hall, heq⟩ := Except.bind_eq_ok h
  cases heq
  intro piece hp
  exact chunker.hardSplitLoop_forall hsofar hall piece (List.mem_of_mem_filter hp)

theorem splitToLimit_forall
    (hwhole : ∀ text, Str.strip text = text → chunker.countTokens text ≤ chunker.maxTokens →
      P text)
    {separators : List Str} {text : Str} {pieces : List Str} (htext : Str.strip text = text)
    (h : chunker.splitToLimit separators text = .ok pieces) : ∀ piece ∈ pieces, P piece := by
  induction separators generalizing text pieces with
  | nil =>
    rw [splitToLimit] at h
    split at h
    · cases h
      intro piece hp
      rw [List.mem_singleton.mp hp]
      exact hwhole text htext (by assumption)
    · exact chunker.hardSplit_forall hsofar h
  | cons separator remaining ih =>
    rw [splitToLimit] at h
    split at h
    · cases h
      intro piece hp
      rw [List.mem_singleton.mp hp]
      exact hwhole text htext (by assumption)
    · dsimp only at h
      split at h
      · exact ih htext h
      · obtain ⟨parts, hparts, heq⟩ := Except.bind_eq_ok h
        cases heq
        intro piece hp
        obtain ⟨part, hpart, hmem⟩ := List.mem_flatten.mp (List.mem_of_mem_filter hp)
        obtain ⟨source, _, hsource⟩ := Except.exists_of_mem_mapM hparts hpart
        exact ih (Str.strip_strip source) hsource piece hmem

end Pieces

theorem splitToLimit_stripped {separators : List Str} {text : Str} {pieces : List Str}
    (htext : Str.strip text = text) (h : chunker.splitToLimit separators text = .ok pieces) :
    ∀ piece ∈ pieces, Str.strip piece = piece :=
  chunker.splitToLimit_forall (fun _ _ => Str.strip_strip _) (fun _ ht _ => ht) htext h

theorem splitToLimit_fits
    (hstrip : ∀ s, chunker.countTokens (Str.strip s) ≤ chunker.countTokens s)
    {separators : List Str} {text : Str} {pieces : List Str} (htext : Str.strip text = text)
    (h : chunker.splitToLimit separators text = .ok pieces) :
    ∀ piece ∈ pieces, chunker.Fits piece :=
  chunker.splitToLimit_forall
    (fun _ hstop =>
      ⟨Str.strip_strip _, (hstrip _).trans (chunker.largestPrefix_fits hstop)⟩)
    (fun _ ht hcount => ⟨ht, hcount⟩) htext h

theorem hardSplitLoop_error {remaining : Str} {e : ChunkerError}
    (hremaining : Str.strip remaining = remaining)
    (h : chunker.hardSplitLoop remaining = .error e) :
    (∃ message, e = .valueError message) ∧ chunker.Oversized remaining := by
  induction remaining using hardSplitLoop.induct chunker with
  | case1 =>
    rw [hardSplitLoop, dif_pos rfl] at h
    cases h
  | case2 remaining hne stop =>
    rename_i hstop
    rw [hardSplitLoop, dif_neg hne, dif_pos hstop] at h
    cases h
    refine ⟨⟨_, rfl⟩, ?_⟩
    obtain ⟨c, rest, rfl⟩ := List.exists_cons_of_ne_nil hne
    exact ⟨c, List.mem_cons_self, Trim.head_not_blank isSpace hremaining,
      chunker.largestPrefix_eq_zero hstop⟩
  | case3 remaining hne stop hstop =>
    rename_i ih
    rw [hardSplitLoop, dif_neg hne, dif_neg hstop] at h
    rcases Except.bind_eq_error h with h | ⟨rest, _, heq⟩
    · obtain ⟨hvalue, hover⟩ := ih (Str.strip_strip _) h
      exact ⟨hvalue, hover.mono (List.Subset.trans (Str.strip_subset _) (List.drop_subset _ _))⟩
    · cases heq

theorem hardSplit_error {text : Str} {e : ChunkerError} (htext : Str.strip text = text)
    (h : chunker.hardSplit text = .error e) :
    (∃ message, e = .valueError message) ∧ chunker.Oversized text := by
  rcases Except.bind_eq_error h with h | ⟨_, _, heq⟩
  · exact chunker.hardSplitLoop_error htext h
  · cases heq

theorem splitToLimit_error {separators : List Str} {text : Str} {e : ChunkerError}
    (hsep : ∀ separator ∈ separators, separator ≠ []) (htext : Str.strip text = text)
    (h : chunker.splitToLimit separators text = .error e) :
    (∃ message, e = .valueError message) ∧ chunker.Oversized text := by
  induction separators generalizing text with
  | nil =>
    rw [splitToLimit] at h
    split at h
    · cases h
    · exact chunker.hardSplit_error htext h
  | cons separator remaining ih =>
    have hrest := fun s hs => hsep s (List.mem_cons_of_mem _ hs)
    rw [splitToLimit] at h
    split at h
    · cases h
    · dsimp only at h
      split at h
      · exact ih hrest htext h
      · rcases Except.bind_eq_error h with h | ⟨_, _, heq⟩
        · obtain ⟨part, hpart, herr⟩ := Except.exists_error_of_mapM h
          obtain ⟨hvalue, hover⟩ := ih hrest (Str.strip_strip part) herr
          refine ⟨hvalue, hover.mono (List.Subset.trans (Str.strip_subset part) ?_)⟩
          rw [← flatten_splitPreservingSeparator (hsep separator List.mem_cons_self) text]
          exact fun c hc => List.mem_flatten.mpr ⟨part, hpart, hc⟩
        · cases heq

theorem splitToLimit_ne_nil {separators : List Str} {text : Str} {pieces : List Str}
    (htext : text ≠ []) (h : chunker.splitToLimit separators text = .ok pieces) :
    ∀ piece ∈ pieces, piece ≠ [] := by
  induction separators with
  | nil =>
    rw [splitToLimit] at h
    split at h
    · cases h
      simpa using htext
    · obtain ⟨all, _, heq⟩ := Except.bind_eq_ok h
      cases heq
      intro piece hp
      simpa using (List.mem_filter.mp hp).2
  | cons separator remaining ih =>
    rw [splitToLimit] at h
    split at h
    · cases h
      simpa using htext
    · dsimp only at h
      split at h
      · exact ih h
      · obtain ⟨parts, _, heq⟩ := Except.bind_eq_ok h
        cases heq
        intro piece hp
        simpa using (List.mem_filter.mp hp).2

theorem hardSplitLoop_essence {remaining : Str} {pieces : List Str}
    (h : chunker.hardSplitLoop remaining = .ok pieces) :
    Str.essence pieces.flatten = Str.essence remaining := by
  induction remaining using hardSplitLoop.induct chunker generalizing pieces with
  | case1 =>
    rw [hardSplitLoop, dif_pos rfl] at h
    cases h
    rfl
  | case2 remaining hne stop =>
    rename_i hstop
    rw [hardSplitLoop, dif_neg hne, dif_pos hstop] at h
    cases h
  | case3 remaining hne stop hstop =>
    rename_i ih
    rw [hardSplitLoop, dif_neg hne, dif_neg hstop] at h
    obtain ⟨rest, hrest, heq⟩ := Except.bind_eq_ok h
    cases heq
    rw [List.flatten_cons, Str.essence_append, ih hrest, Str.essence_strip, Str.essence_strip,
      ← Str.essence_append, List.take_append_drop]

theorem hardSplit_essence {text : Str} {pieces : List Str}
    (h : chunker.hardSplit text = .ok pieces) :
    Str.essence pieces.flatten = Str.essence text := by
  obtain ⟨all, hall, heq⟩ := Except.bind_eq_ok h
  cases heq
  rw [Str.essence_flatten_filter, chunker.hardSplitLoop_essence hall]

theorem splitToLimit_essence {separators : List Str} {text : Str} {pieces : List Str}
    (hsep : ∀ separator ∈ separators, separator ≠ [])
    (h : chunker.splitToLimit separators text = .ok pieces) :
    Str.essence pieces.flatten = Str.essence text := by
  induction separators generalizing text pieces with
  | nil =>
    rw [splitToLimit] at h
    split at h
    · cases h
      simp
    · exact chunker.hardSplit_essence h
  | cons separator remaining ih =>
    have hrest := fun s hs => hsep s (List.mem_cons_of_mem _ hs)
    rw [splitToLimit] at h
    split at h
    · cases h
      simp
    · dsimp only at h
      split at h
      · exact ih hrest h
      · obtain ⟨results, hresults, heq⟩ := Except.bind_eq_ok h
        cases heq
        have hparts := (Except.forall₂_of_mapM hresults).imp fun part result hr =>
          (ih hrest hr).trans (Str.essence_strip part)
        rw [Str.essence_flatten_filter, Str.essence_flatten_of_forall₂ hparts,
          flatten_splitPreservingSeparator (hsep separator List.mem_cons_self) text]

end YCStudio.TextChunker
