import YCStudio.Rag.ChunkPieces

namespace YCStudio.TextChunker

variable (chunker : TextChunker)

@[simp] theorem essence_join (left right : Str) :
    Str.essence (join left right) = Str.essence left ++ Str.essence right := by
  unfold join
  split <;> simp_all

theorem strip_join (left right : Str) : Str.strip (join left right) = join left right := by
  unfold join
  split <;> exact Str.strip_strip _

theorem join_ne_nil {left right : Str} (hright : Str.essence right ≠ []) :
    join left right ≠ [] := by
  intro h
  have hnil := essence_join left right
  rw [h] at hnil
  exact hright (List.append_eq_nil_iff.mp hnil.symm).2

theorem makeChunk_fits {ordinal : Nat} {text : Str} (h : chunker.Fits text) :
    chunker.makeChunk ordinal text =
      .ok { ordinal, text, tokenCount := chunker.countTokens text } := by
  simp only [makeChunk, h.stripped]
  rw [if_neg (Nat.not_lt.mpr h.within)]

theorem makeChunk_text {ordinal : Nat} {text : Str} {chunk : ChunkData}
    (h : chunker.makeChunk ordinal text = .ok chunk) : chunk.text = Str.strip text := by
  simp only [makeChunk] at h
  split at h
  · cases h
  · cases h
    rfl

structure Chunk.Valid (chunk : ChunkData) : Prop where
  nonempty : chunk.text ≠ []
  stripped : Str.strip chunk.text = chunk.text
  counted : chunk.tokenCount = chunker.countTokens chunk.text
  within : chunk.tokenCount ≤ chunker.maxTokens

theorem Chunk.valid_of_fits {text : Str} (ordinal : Nat) (h : chunker.Fits text)
    (hne : text ≠ []) :
    Chunk.Valid chunker { ordinal, text, tokenCount := chunker.countTokens text } :=
  ⟨hne, h.stripped, rfl, h.within⟩

-- One iteration of the loop keeps `current` a stripped text within the limit, so every
-- chunk it is turned into is one, and no iteration can reach the assertion.
theorem packFrom_ok {pieces : List Str} (hpieces : ∀ piece ∈ pieces, chunker.Fits piece)
    (hne : ∀ piece ∈ pieces, piece ≠ []) (ordinal : Nat) {current : Str}
    (hcurrent : current = [] ∨ chunker.Fits current) :
    ∃ chunks, chunker.packFrom ordinal current pieces = .ok chunks ∧
      chunks.map ChunkData.ordinal = List.range' ordinal chunks.length ∧
      (∀ chunk ∈ chunks, Chunk.Valid chunker chunk) ∧
      (current ≠ [] ∨ pieces ≠ [] → chunks ≠ []) := by
  induction pieces generalizing ordinal current with
  | nil =>
    rw [packFrom]
    split
    · exact ⟨[], rfl, rfl, by simp, by simp_all⟩
    · rename_i hcur
      have hfits := hcurrent.resolve_left hcur
      rw [chunker.makeChunk_fits hfits]
      refine ⟨[_], rfl, rfl, ?_, by simp⟩
      simpa using Chunk.valid_of_fits chunker ordinal hfits hcur
  | cons piece pieces ih =>
    have hpiece := hpieces piece List.mem_cons_self
    have hess := Str.essence_ne_nil hpiece.stripped (hne piece List.mem_cons_self)
    have ih := fun n cur => @ih (fun p hp => hpieces p (List.mem_cons_of_mem _ hp))
      (fun p hp => hne p (List.mem_cons_of_mem _ hp)) n cur
    rw [packFrom]
    dsimp only
    split
    · rename_i hfull
      have hfits := hcurrent.resolve_left hfull.1
      rw [chunker.makeChunk_fits hfits]
      generalize hnext : (if chunker.countTokens
        (join (chunker.tokenLimitedTail current chunker.overlapTokens) piece) ≤ chunker.maxTokens
        then join (chunker.tokenLimitedTail current chunker.overlapTokens) piece else piece) = next
      have hnextFits : chunker.Fits next := by
        rw [← hnext]
        split
        · exact ⟨strip_join _ _, by assumption⟩
        · exact hpiece
      obtain ⟨chunks, hchunks, hord, hvalid, -⟩ := ih (ordinal + 1) next (Or.inr hnextFits)
      refine ⟨_ :: chunks, by rw [hchunks]; rfl, ?_, ?_, by simp⟩
      · simp [hord, List.range'_succ]
      · intro chunk hmem
        rcases List.mem_cons.mp hmem with rfl | hmem
        · exact Chunk.valid_of_fits chunker ordinal hfits hfull.1
        · exact hvalid chunk hmem
    · rename_i hroom
      have hjoin : chunker.Fits (join current piece) := by
        by_cases hcur : current = []
        · have : join current piece = piece := by rw [join, if_pos hcur]; exact hpiece.stripped
          rw [this]
          exact hpiece
        · exact ⟨strip_join _ _, Nat.not_lt.mp fun hlt => hroom ⟨hcur, hlt⟩⟩
      obtain ⟨chunks, hchunks, hord, hvalid, hnonempty⟩ := ih ordinal _ (Or.inr hjoin)
      exact ⟨chunks, hchunks, hord, hvalid, fun _ => hnonempty (Or.inl (join_ne_nil hess))⟩

def RespectsLimit (text : Str) : Except ChunkerError (List ChunkData) → Prop
  | .ok chunks =>
      chunks.map ChunkData.ordinal = List.range chunks.length ∧
      (∀ chunk ∈ chunks, Chunk.Valid chunker chunk) ∧
      (chunks = [] ↔ ∀ c ∈ text, isSpace c)
  | .error (.valueError _) => chunker.Oversized text
  | .error (.assertionError _) => False

theorem split_eq_pack {text : Str} (hne : Str.strip text ≠ []) :
    chunker.split text =
      chunker.splitToLimit chunker.separators (Str.strip text) >>= chunker.packFrom 0 [] := by
  simp only [split, if_neg hne]

theorem split_respectsLimit
    (hstrip : ∀ s, chunker.countTokens (Str.strip s) ≤ chunker.countTokens s) (text : Str) :
    chunker.RespectsLimit text (chunker.split text) := by
  by_cases hne : Str.strip text = []
  · have hblank := Str.strip_eq_nil_iff.mp hne
    simp only [split, if_pos hne]
    exact ⟨rfl, by simp, by simpa using hblank⟩
  · have hstripped : Str.strip (Str.strip text) = Str.strip text := Str.strip_strip text
    rw [chunker.split_eq_pack hne]
    cases hpieces : chunker.splitToLimit chunker.separators (Str.strip text) with
    | error e =>
      obtain ⟨⟨message, rfl⟩, hover⟩ :=
        chunker.splitToLimit_error chunker.separator_ne_nil hstripped hpieces
      exact hover.mono (Str.strip_subset text)
    | ok pieces =>
      have hfits := chunker.splitToLimit_fits hstrip hstripped hpieces
      have hpieceNe := chunker.splitToLimit_ne_nil hne hpieces
      have hsome : pieces ≠ [] := by
        rintro rfl
        have hess := chunker.splitToLimit_essence chunker.separator_ne_nil hpieces
        exact Str.essence_ne_nil hstripped hne hess.symm
      obtain ⟨chunks, hchunks, hord, hvalid, hnonempty⟩ :=
        chunker.packFrom_ok hfits hpieceNe 0 (Or.inl rfl)
      have hnotBlank : ¬ ∀ c ∈ text, isSpace c :=
        fun h => hne (Str.strip_eq_nil_iff.mpr h)
      change chunker.RespectsLimit text (chunker.packFrom 0 [] pieces)
      rw [hchunks]
      exact ⟨hord.trans List.range_eq_range'.symm, hvalid, iff_of_false (hnonempty (Or.inr hsome)) hnotBlank⟩

def characterChunker : TextChunker where
  countTokens := List.length
  maxTokens := 4
  overlapTokens := 1
  separators := defaultSeparators
  maxTokens_pos := by decide
  overlap_lt := by decide
  separators_ne_nil := by decide
  separator_ne_nil := by decide

theorem split_respectsLimit_characters :
    characterChunker.RespectsLimit " ab cd\n".toList (characterChunker.split " ab cd\n".toList) :=
  characterChunker.split_respectsLimit Str.length_strip_le _

end YCStudio.TextChunker
