import YCStudio.Library.Cuts
import YCStudio.Library.Traverse
import YCStudio.Rag.ChunkPacking

namespace YCStudio.TextChunker

variable (chunker : TextChunker)

def cuttingSeparator (text : Str) : Option Str :=
  chunker.separators.find? fun separator => decide (separator <:+: Str.strip text)

def segments (text separator : Str) : List Str :=
  splitPreservingSeparator (Str.strip text) separator

def SegmentsFit (text separator : Str) : Prop :=
  ∀ segment ∈ segments text separator, chunker.countTokens segment ≤ chunker.maxTokens

instance (text separator : Str) : Decidable (chunker.SegmentsFit text separator) :=
  inferInstanceAs (Decidable (∀ segment ∈ segments text separator, _))

def CutBetween (segments : List Str) (chunks : List ChunkData) : Prop :=
  ∃ groups, chunker.Packing [] groups chunks ∧
    groups.flatten = (segments.map Str.strip).filter (· ≠ [])

variable {chunker} {separator text : Str}

theorem length_splitPreservingSeparator (text separator : Str) :
    (splitPreservingSeparator text separator).length = (text.split separator).length := by
  have hne : text.split separator ≠ [] := Trim.cut_ne_nil separator text
  have hpos := List.length_pos_iff.mpr hne
  unfold splitPreservingSeparator
  dsimp only
  split
  · next hone => rw [hone, List.length_singleton]
  · split
    · rw [List.getLast?_eq_some_getLast hne]
      simp
      omega
    · rw [List.head?_eq_some_head hne]
      simp
      omega

theorem splitPreservingSeparator_eq_self (hsep : separator ≠ []) (h : ¬ separator <:+: text) :
    splitPreservingSeparator text separator = [text] := by
  have hparts : text.split separator = [text] := Trim.cut_eq_self hsep h
  simp [splitPreservingSeparator, hparts]

theorem splitToLimit_eq_self (separators : List Str)
    (h : chunker.countTokens text ≤ chunker.maxTokens) :
    chunker.splitToLimit separators text = .ok [text] := by
  cases separators with
  | nil => rw [splitToLimit, if_pos h]
  | cons separator separators => rw [splitToLimit, if_pos h]

theorem splitToLimit_segments
    (hstrip : ∀ s, chunker.countTokens (Str.strip s) ≤ chunker.countTokens s)
    {separators : List Str} (hne : ∀ separator ∈ separators, separator ≠ [])
    (hlong : chunker.maxTokens < chunker.countTokens text)
    (hfind : separators.find? (fun separator => decide (separator <:+: text)) = some separator)
    (hfit : ∀ segment ∈ splitPreservingSeparator text separator,
      chunker.countTokens segment ≤ chunker.maxTokens) :
    chunker.splitToLimit separators text =
      .ok (((splitPreservingSeparator text separator).map Str.strip).filter (· ≠ [])) := by
  induction separators with
  | nil => cases hfind
  | cons first remaining ih =>
    obtain ⟨hfirst, hremaining⟩ := List.forall_mem_cons.mp hne
    have hlength : (splitPreservingSeparator text first).length = 1 ↔ ¬ first <:+: text := by
      rw [length_splitPreservingSeparator]
      exact Trim.length_cut_eq_one_iff hfirst
    rw [splitToLimit, if_neg (Nat.not_le.mpr hlong)]
    dsimp only
    by_cases hoccurs : first <:+: text
    · rw [List.find?_cons_of_pos (by simpa using hoccurs)] at hfind
      obtain rfl : first = separator := Option.some.inj hfind
      rw [if_neg (fun hone => hlength.mp hone hoccurs)]
      have hpieces : (splitPreservingSeparator text first).mapM
          (fun piece => chunker.splitToLimit remaining (Str.strip piece)) =
          .ok ((splitPreservingSeparator text first).map fun piece => [Str.strip piece]) :=
        Except.mapM_eq_ok fun piece hpiece =>
          splitToLimit_eq_self remaining ((hstrip piece).trans (hfit piece hpiece))
      have hflatten (pieces : List Str) :
          (pieces.map fun piece => [Str.strip piece]).flatten = pieces.map Str.strip := by
        rw [← List.flatMap_def]
        exact List.flatMap_pure_eq_map _ _
      rw [hpieces]
      change Except.ok _ = _
      rw [hflatten]
    · rw [List.find?_cons_of_neg (by simpa using hoccurs)] at hfind
      rw [if_pos (hlength.mpr hoccurs)]
      exact ih hremaining hfind

theorem occurs_of_cuttingSeparator (h : chunker.cuttingSeparator text = some separator) :
    separator ≠ [] ∧ separator <:+: Str.strip text := by
  have hoccurs := List.find?_some (p := fun separator => decide (separator <:+: Str.strip text)) h
  exact ⟨chunker.separator_ne_nil separator (List.mem_of_find?_eq_some h), of_decide_eq_true hoccurs⟩

theorem split_whole (hne : Str.strip text ≠ [])
    (h : chunker.countTokens (Str.strip text) ≤ chunker.maxTokens) :
    chunker.split text = .ok [{
      ordinal := 0
      text := Str.strip text
      tokenCount := chunker.countTokens (Str.strip text) }] := by
  have hfits : chunker.Fits (Str.strip text) := ⟨Str.strip_strip text, h⟩
  have hjoin : join [] (Str.strip text) = Str.strip text := by simp [join]
  rw [chunker.split_eq_pack hne, splitToLimit_eq_self _ h]
  change chunker.packFrom 0 [] [Str.strip text] = _
  rw [packFrom, if_neg (by simp), hjoin, packFrom, if_neg hne, chunker.makeChunk_fits hfits]
  rfl

theorem split_cutBetween
    (hstrip : ∀ s, chunker.countTokens (Str.strip s) ≤ chunker.countTokens s)
    (hsep : chunker.cuttingSeparator text = some separator)
    (hfit : chunker.SegmentsFit text separator)
    (hlong : chunker.maxTokens < chunker.countTokens (Str.strip text)) :
    ∃ chunks, chunker.split text = .ok chunks ∧
      chunker.CutBetween (segments text separator) chunks := by
  obtain ⟨hsepNe, hoccurs⟩ := occurs_of_cuttingSeparator hsep
  have hne : Str.strip text ≠ [] := by
    intro hnil
    rw [hnil, List.infix_nil] at hoccurs
    exact hsepNe hoccurs
  have hpieces := splitToLimit_segments hstrip chunker.separator_ne_nil hlong hsep hfit
  obtain ⟨chunks, hchunks, _⟩ := chunker.packFrom_ok
    (chunker.splitToLimit_fits hstrip (Str.strip_strip text) hpieces)
    (chunker.splitToLimit_ne_nil hne hpieces) 0 (Or.inl rfl)
  have hsplit : chunker.split text = .ok chunks := by
    rw [chunker.split_eq_pack hne, hpieces]
    exact hchunks
  obtain ⟨pieces, groups, hpieces', hpacking, hflatten⟩ := split_packing hne hsplit
  cases hpieces.symm.trans hpieces'
  exact ⟨chunks, hsplit, groups, hpacking, hflatten⟩

section Sentences

theorem suffix_joined {overlap piece : Str} (group : List Str) :
    piece <:+ joined overlap (group ++ [piece]) := by
  cases group with
  | nil =>
    by_cases hnil : overlap = []
    · simp [joined, hnil]
    · exact ⟨overlap ++ ['\n'], by simp [joined, hnil, List.intercalate_cons_cons]⟩
  | cons first group =>
    rw [joined_concat (by simp)]
    exact ⟨joined overlap (first :: group) ++ ['\n'], by simp⟩

theorem getLast?_of_suffix {s t : Str} {c : Char} (h : s <:+ t) (hs : s.getLast? = some c) :
    t.getLast? = some c := by
  obtain ⟨before, rfl⟩ := h
  rw [List.getLast?_append, hs]
  rfl

theorem Packing.ends {overlap : Str} {groups : List (List Str)} {chunks : List ChunkData} {c : Char}
    (h : chunker.Packing overlap groups chunks)
    (hpieces : ∀ piece ∈ groups.flatten.dropLast, piece.getLast? = some c) :
    ∀ chunk ∈ chunks.dropLast, chunk.text.getLast? = some c := by
  induction h with
  | last hgroup htext => simp
  | @next overlap carried piece group rest groups chunk chunks hgroup htext hfull hcarried hrest ih =>
    have hrestNe : ((piece :: rest) :: groups).flatten ≠ [] := by simp
    have hdrop : (group :: (piece :: rest) :: groups).flatten.dropLast =
        group ++ ((piece :: rest) :: groups).flatten.dropLast := by
      rw [List.flatten_cons]
      exact List.dropLast_append_of_ne_nil hrestNe
    rw [hdrop] at hpieces
    have hchunks : chunks ≠ [] := by
      rintro rfl
      cases hrest
    rw [List.dropLast_cons_of_ne_nil hchunks]
    refine List.forall_mem_cons.mpr ⟨?_, ih fun p hp => hpieces p (List.mem_append_right _ hp)⟩
    rw [htext, ← List.dropLast_concat_getLast hgroup]
    exact getLast?_of_suffix (suffix_joined _)
      (hpieces _ (List.mem_append_left _ (List.getLast_mem hgroup)))

theorem getLast?_strip_concat {c : Char} (hc : isSpace c = false) (s : Str) :
    (Str.strip (s ++ [c])).getLast? = some c := by
  have hdrop : ∃ before, (s ++ [c]).dropWhile isSpace = before ++ [c] := by
    rw [List.dropWhile_append]
    split
    · exact ⟨[], by simp [hc]⟩
    · exact ⟨_, rfl⟩
  obtain ⟨before, hbefore⟩ := hdrop
  rw [Str.strip, Trim.strip, hbefore, List.rdropWhile_concat_neg _ _ _ (by simp [hc])]
  simp

theorem segments_end {c : Char} (hc : isSpace c = false) (htrailing : [c] ∈ trailingSeparators)
    {s : Str} (hoccurs : [c] <:+: s) :
    ∀ segment ∈ (((splitPreservingSeparator s [c]).map Str.strip).filter (· ≠ [])).dropLast,
      segment.getLast? = some c := by
  have hparts : (s.split [c]).length ≠ 1 :=
    fun hone => (Trim.length_cut_eq_one_iff (by simp)).mp hone hoccurs
  have hsegments : splitPreservingSeparator s [c] =
      (s.split [c]).dropLast.map (· ++ [c]) ++ (s.split [c]).getLast?.toList := by
    simp [splitPreservingSeparator, hparts, htrailing]
  have hends (segment : Str)
      (h : segment ∈ (((s.split [c]).dropLast.map (· ++ [c])).map Str.strip).filter (· ≠ [])) :
      segment.getLast? = some c := by
    obtain ⟨part, hpart, rfl⟩ := List.mem_map.mp (List.mem_of_mem_filter h)
    obtain ⟨before, _, rfl⟩ := List.mem_map.mp hpart
    exact getLast?_strip_concat hc before
  rw [hsegments, List.map_append, List.filter_append]
  intro segment hsegment
  rw [List.dropLast_append] at hsegment
  split at hsegment
  · exact hends segment (List.mem_of_mem_dropLast hsegment)
  · rcases List.mem_append.mp hsegment with h | h
    · exact hends segment h
    · have hshort : ((((s.split [c]).getLast?.toList).map Str.strip).filter (· ≠ [])).dropLast = [] := by
        cases (s.split [c]).getLast? with
        | none => rfl
        | some last => cases hlast : decide (Str.strip last ≠ []) <;> simp_all
      rw [hshort] at h
      cases h

theorem split_sentences
    (hstrip : ∀ s, chunker.countTokens (Str.strip s) ≤ chunker.countTokens s)
    (hdefault : chunker.separators = defaultSeparators) (hsection : ¬ "\n## ".toList <:+: text)
    (hfit : chunker.SegmentsFit text "。".toList) :
    ∃ chunks, chunker.split text = .ok chunks ∧
      ∀ chunk ∈ chunks.dropLast, chunk.text.getLast? = some '。' := by
  by_cases hne : Str.strip text = []
  · exact ⟨[], by simp [split, hne], by simp⟩
  by_cases hlong : chunker.maxTokens < chunker.countTokens (Str.strip text)
  · have hoccurs : "。".toList <:+: Str.strip text := by
      by_contra habsent
      refine absurd (hfit (Str.strip text) ?_) (Nat.not_le.mpr hlong)
      rw [segments, splitPreservingSeparator_eq_self (by decide) habsent]
      exact List.mem_singleton_self _
    have hfind : chunker.cuttingSeparator text = some "。".toList := by
      have habsent : ¬ "\n## ".toList <:+: Str.strip text :=
        fun h => hsection (h.trans (Trim.isInfix_strip isSpace text))
      rw [cuttingSeparator, hdefault, defaultSeparators,
        List.find?_cons_of_neg (by simpa using habsent)]
      exact List.find?_cons_of_pos (p := fun separator => decide (separator <:+: Str.strip text))
        (decide_eq_true hoccurs)
    obtain ⟨chunks, hchunks, groups, hpacking, hflatten⟩ := split_cutBetween hstrip hfind hfit hlong
    refine ⟨chunks, hchunks, hpacking.ends ?_⟩
    rw [hflatten]
    exact segments_end (by decide) (by decide) hoccurs
  · exact ⟨_, split_whole hne (Nat.not_lt.mp hlong), by simp⟩

end Sentences

theorem split_cutsAtBoundaries
    (hstrip : ∀ s, chunker.countTokens (Str.strip s) ≤ chunker.countTokens s) (text : Str) :
    (∀ separator, chunker.cuttingSeparator text = some separator →
      chunker.SegmentsFit text separator →
        ∃ chunks, chunker.split text = .ok chunks ∧
          (chunker.maxTokens < chunker.countTokens (Str.strip text) →
            chunker.CutBetween (segments text separator) chunks) ∧
          (chunker.countTokens (Str.strip text) ≤ chunker.maxTokens →
            chunks.map ChunkData.text = [Str.strip text])) ∧
    (chunker.separators = defaultSeparators → ¬ "\n## ".toList <:+: text →
      chunker.SegmentsFit text "。".toList →
        ∃ chunks, chunker.split text = .ok chunks ∧
          ∀ chunk ∈ chunks.dropLast, chunk.text.getLast? = some '。') := by
  refine ⟨fun separator hsep hfit => ?_, split_sentences hstrip⟩
  by_cases hlong : chunker.maxTokens < chunker.countTokens (Str.strip text)
  · obtain ⟨chunks, hchunks, hcut⟩ := split_cutBetween hstrip hsep hfit hlong
    exact ⟨chunks, hchunks, fun _ => hcut, fun hfits => absurd hlong (Nat.not_lt.mpr hfits)⟩
  · obtain ⟨hsepNe, hoccurs⟩ := occurs_of_cuttingSeparator hsep
    have hne : Str.strip text ≠ [] := by
      intro hnil
      rw [hnil, List.infix_nil] at hoccurs
      exact hsepNe hoccurs
    exact ⟨_, split_whole hne (Nat.not_lt.mp hlong), fun h => absurd h hlong, fun _ => rfl⟩

theorem split_cutsAtBoundaries_characters :
    ∃ chunks, characterChunker.split "a。\nb。c".toList = .ok chunks ∧
      ∀ chunk ∈ chunks.dropLast, chunk.text.getLast? = some '。' :=
  (@split_cutsAtBoundaries characterChunker Str.length_strip_le "a。\nb。c".toList).2 rfl
    (by decide) (by decide)

def paddedSentences : Str := "a。b。  ".toList

theorem not_cutBetween_paddedSentences :
    (∀ s, characterChunker.countTokens (Str.strip s) ≤ characterChunker.countTokens s) ∧
      characterChunker.maxTokens < characterChunker.countTokens paddedSentences ∧
      characterChunker.cuttingSeparator paddedSentences = some "。".toList ∧
      characterChunker.SegmentsFit paddedSentences "。".toList ∧
      characterChunker.split paddedSentences = .ok [⟨0, "a。b。".toList, 4⟩] ∧
      ¬ characterChunker.CutBetween (segments paddedSentences "。".toList)
        [⟨0, "a。b。".toList, 4⟩] := by
  refine ⟨Str.length_strip_le, by decide, by decide, by decide, by decide +kernel, ?_⟩
  rintro ⟨groups, hpacking, hflatten⟩
  have hpieces : ((segments paddedSentences "。".toList).map Str.strip).filter (· ≠ []) =
      ["a。".toList, "b。".toList] := by decide
  rw [hpieces] at hflatten
  cases hpacking with
  | @last _ group _ hgroup htext =>
    have hgroupEq : group = ["a。".toList, "b。".toList] := by simpa using hflatten
    rw [hgroupEq] at htext
    exact absurd htext (by decide)
  | next hgroup htext hfull hcarried hrest => cases hrest

end YCStudio.TextChunker
