import Mathlib.Data.List.Chain
import YCStudio.Library.LineBreaks
import YCStudio.Rag.ChunkLimits

namespace YCStudio.TextChunker

variable (chunker : TextChunker)

def joined (overlap : Str) (group : List Str) : Str :=
  ['\n'].intercalate (if overlap = [] then group else overlap :: group)

inductive Packing : Str → List (List Str) → List ChunkData → Prop
  | last {overlap : Str} {group : List Str} {chunk : ChunkData} (hgroup : group ≠ [])
      (htext : chunk.text = joined overlap group) : Packing overlap [group] [chunk]
  | next {overlap carried piece : Str} {group rest : List Str} {groups : List (List Str)}
      {chunk : ChunkData} {chunks : List ChunkData} (hgroup : group ≠ [])
      (htext : chunk.text = joined overlap group)
      (hfull : chunker.maxTokens < chunker.countTokens (chunk.text ++ '\n' :: piece))
      (hcarried : carried = [] ∨
        carried = chunker.tokenLimitedTail chunk.text chunker.overlapTokens)
      (hrest : Packing carried ((piece :: rest) :: groups) chunks) :
      Packing overlap (group :: (piece :: rest) :: groups) (chunk :: chunks)

variable {chunker} {overlap piece : Str} {group : List Str}

theorem joined_concat (hgroup : group ≠ []) :
    joined overlap (group ++ [piece]) = joined overlap group ++ '\n' :: piece := by
  have hconcat {pieces : List Str} (hpieces : pieces ≠ []) :
      ['\n'].intercalate (pieces ++ [piece]) = ['\n'].intercalate pieces ++ '\n' :: piece := by
    rw [Lines.intercalate_append hpieces (by simp), List.intercalate_singleton, List.append_assoc]
    rfl
  simp only [joined]
  split
  · exact hconcat hgroup
  · exact hconcat (List.cons_ne_nil overlap group)

theorem joined_singleton (hpiece : Str.strip piece = piece) (hne : piece ≠ [])
    (hoverlap : Str.strip overlap = overlap) :
    join overlap piece = joined overlap [piece] := by
  by_cases hnil : overlap = []
  · simp [join, joined, hnil, hpiece]
  · simp only [join, joined, if_neg hnil, List.intercalate_cons_cons, List.intercalate_singleton]
    rw [Str.strip_append_cons hoverlap hnil hpiece hne]
    simp

theorem join_eq {current : Str} (hcurrent : Str.strip current = current) (hne : current ≠ [])
    (hpiece : Str.strip piece = piece) (hne' : piece ≠ []) :
    join current piece = current ++ '\n' :: piece := by
  rw [join, if_neg hne, Str.strip_append_cons hcurrent hne hpiece hne']

theorem strip_tokenLimitedTail (chunker : TextChunker) (text : Str) (limit : Nat) :
    Str.strip (chunker.tokenLimitedTail text limit) = chunker.tokenLimitedTail text limit := by
  obtain ⟨t, _, _, htail⟩ := chunker.tokenLimitedTail_suffix text limit
  rw [htail]
  exact Str.strip_strip t

theorem Packing.head {groups : List (List Str)} {chunks : List ChunkData}
    (h : chunker.Packing overlap groups chunks) {pieces : List Str}
    (hflatten : groups.flatten = piece :: pieces) :
    ∃ rest groups', groups = (piece :: rest) :: groups' := by
  have hsome : ∃ group groups', groups = group :: groups' ∧ group ≠ [] := by
    cases h with
    | last hgroup => exact ⟨_, _, rfl, hgroup⟩
    | next hgroup => exact ⟨_, _, rfl, hgroup⟩
  obtain ⟨group, groups', rfl, hgroup⟩ := hsome
  obtain ⟨first, rest, rfl⟩ := List.exists_cons_of_ne_nil hgroup
  rw [List.flatten_cons, List.cons_append] at hflatten
  exact ⟨rest, groups', by rw [(List.cons.inj hflatten).1]⟩

theorem exists_carried (chunker : TextChunker) (hpiece : Str.strip piece = piece) (hne : piece ≠ [])
    (text : Str) :
    ∃ carried, (carried = [] ∨ carried = chunker.tokenLimitedTail text chunker.overlapTokens) ∧
      (if chunker.countTokens (join (chunker.tokenLimitedTail text chunker.overlapTokens) piece) ≤
          chunker.maxTokens then join (chunker.tokenLimitedTail text chunker.overlapTokens) piece
        else piece) = joined carried [piece] ∧
      Str.strip (joined carried [piece]) = joined carried [piece] ∧ joined carried [piece] ≠ [] := by
  have hsome {carried : Str} : joined carried [piece] ≠ [] := by
    by_cases hnil : carried = [] <;> simp [joined, hnil, hne]
  split
  · have hjoin := joined_singleton hpiece hne
      (chunker.strip_tokenLimitedTail text chunker.overlapTokens)
    exact ⟨_, Or.inr rfl, hjoin, hjoin ▸ strip_join _ _, hsome⟩
  · have hsingle : joined [] [piece] = piece := by simp [joined]
    exact ⟨[], Or.inl rfl, hsingle.symm, by rw [hsingle, hpiece], hsome⟩

-- The loop's invariant: current is the overlap that was handed on and the pieces since.
theorem packFrom_packing {pieces : List Str}
    (hpieces : ∀ piece ∈ pieces, Str.strip piece = piece ∧ piece ≠ []) {ordinal : Nat}
    {chunks : List ChunkData} (hgroup : group ≠ [])
    (hstripped : Str.strip (joined overlap group) = joined overlap group)
    (hne : joined overlap group ≠ [])
    (h : chunker.packFrom ordinal (joined overlap group) pieces = .ok chunks) :
    ∃ groups, chunker.Packing overlap groups chunks ∧ groups.flatten = group ++ pieces := by
  induction pieces generalizing overlap group ordinal chunks with
  | nil =>
    rw [packFrom, if_neg hne] at h
    obtain ⟨chunk, hchunk, heq⟩ := Except.bind_eq_ok h
    cases heq
    exact ⟨[group], .last hgroup ((chunker.makeChunk_text hchunk).trans hstripped), by simp⟩
  | cons piece pieces ih =>
    obtain ⟨⟨hpiece, hpieceNe⟩, hrest⟩ := List.forall_mem_cons.mp hpieces
    have hjoin := join_eq hstripped hne hpiece hpieceNe
    rw [packFrom] at h
    dsimp only at h
    split at h
    · next hfull =>
      obtain ⟨chunk, hchunk, h⟩ := Except.bind_eq_ok h
      obtain ⟨chunks, hchunks, heq⟩ := Except.bind_eq_ok h
      cases heq
      have htext : chunk.text = joined overlap group := (chunker.makeChunk_text hchunk).trans hstripped
      rw [← htext] at hchunks hjoin hfull
      rw [hjoin] at hfull
      obtain ⟨carried, hcarried, hstart, hstrip, hcarriedNe⟩ :=
        chunker.exists_carried hpiece hpieceNe chunk.text
      rw [hstart] at hchunks
      obtain ⟨groups, hpacking, hflatten⟩ := ih hrest (by simp) hstrip hcarriedNe hchunks
      obtain ⟨rest, groups', rfl⟩ := hpacking.head hflatten
      refine ⟨group :: (piece :: rest) :: groups', ?_, by rw [List.flatten_cons, hflatten]; rfl⟩
      exact .next hgroup htext hfull.2 hcarried hpacking
    · rw [hjoin, ← joined_concat hgroup] at h
      have hstrip : Str.strip (joined overlap (group ++ [piece])) =
          joined overlap (group ++ [piece]) := by
        rw [joined_concat hgroup, ← hjoin]
        exact strip_join _ _
      have hconcatNe : joined overlap (group ++ [piece]) ≠ [] := by
        rw [joined_concat hgroup]
        simp
      obtain ⟨groups, hpacking, hflatten⟩ := ih hrest (by simp) hstrip hconcatNe h
      exact ⟨groups, hpacking, by simpa using hflatten⟩

theorem packFrom_zero_packing {pieces : List Str}
    (hpieces : ∀ piece ∈ pieces, Str.strip piece = piece ∧ piece ≠ []) {chunks : List ChunkData}
    (h : chunker.packFrom 0 [] (piece :: pieces) = .ok chunks)
    (hpiece : Str.strip piece = piece) (hne : piece ≠ []) :
    ∃ groups, chunker.Packing [] groups chunks ∧ groups.flatten = piece :: pieces := by
  have hsingle : joined [] [piece] = piece := by simp [joined]
  have hjoin : join [] piece = joined [] [piece] := by simp [join, hpiece, hsingle]
  rw [packFrom, if_neg (by simp), hjoin] at h
  exact packFrom_packing hpieces (by simp) (by rw [hsingle, hpiece]) (by rwa [hsingle]) h

theorem split_packing {text : Str} {chunks : List ChunkData} (hne : Str.strip text ≠ [])
    (h : chunker.split text = .ok chunks) :
    ∃ pieces groups, chunker.splitToLimit chunker.separators (Str.strip text) = .ok pieces ∧
      chunker.Packing [] groups chunks ∧ groups.flatten = pieces := by
  rw [chunker.split_eq_pack hne] at h
  obtain ⟨pieces, hpieces, hpack⟩ := Except.bind_eq_ok h
  have hstripped := chunker.splitToLimit_stripped (Str.strip_strip text) hpieces
  have hpieceNe := chunker.splitToLimit_ne_nil hne hpieces
  have hess := chunker.splitToLimit_essence chunker.separator_ne_nil hpieces
  cases pieces with
  | nil => exact absurd hess.symm (Str.essence_ne_nil (Str.strip_strip text) hne)
  | cons piece pieces =>
    obtain ⟨hpiece, hrest⟩ := List.forall_mem_cons.mp hstripped
    obtain ⟨hne, hrestNe⟩ := List.forall_mem_cons.mp hpieceNe
    obtain ⟨groups, hpacking, hflatten⟩ := packFrom_zero_packing
      (fun p hp => ⟨hrest p hp, hrestNe p hp⟩) hpack hpiece hne
    exact ⟨_, groups, hpieces, hpacking, hflatten⟩

section Maximal

theorem prefix_joined (piece : Str) (rest : List Str) : piece <+: joined [] (piece :: rest) := by
  cases rest with
  | nil => simp [joined]
  | cons next rest => simp [joined, List.intercalate_cons_cons]

theorem Packing.text_head {groups : List (List Str)} {chunks : List ChunkData}
    (h : chunker.Packing overlap (group :: groups) chunks) :
    ∀ chunk ∈ chunks.head?, chunk.text = joined overlap group := by
  intro chunk hchunk
  cases h with
  | last hgroup htext =>
    cases hchunk
    exact htext
  | next hgroup htext =>
    cases hchunk
    exact htext

theorem Packing.isChain (hoverlap : chunker.overlapTokens = 0)
    (happend : ∀ s t, chunker.countTokens s ≤ chunker.countTokens (s ++ t))
    {groups : List (List Str)} {chunks : List ChunkData}
    (h : chunker.Packing overlap groups chunks) :
    chunks.IsChain fun chunk next =>
      chunker.maxTokens < chunker.countTokens (chunk.text ++ '\n' :: next.text) := by
  induction h with
  | last hgroup htext => exact .singleton _
  | @next overlap carried piece group rest groups chunk chunks hgroup htext hfull hcarried hrest ih =>
    have hnil : carried = [] := by
      rcases hcarried with hnil | htail
      · exact hnil
      · rw [htail, tokenLimitedTail, if_pos hoverlap]
    subst hnil
    refine List.isChain_cons.mpr ⟨fun next hnext => ?_, ih⟩
    -- The next chunk begins with the piece that found no room in this one.
    obtain ⟨more, hmore⟩ := prefix_joined piece rest
    have hnextText : next.text = piece ++ more := (hrest.text_head next hnext).trans hmore.symm
    rw [hnextText]
    calc chunker.maxTokens < chunker.countTokens (chunk.text ++ '\n' :: piece) := hfull
      _ ≤ chunker.countTokens ((chunk.text ++ '\n' :: piece) ++ more) := happend _ _
      _ = chunker.countTokens (chunk.text ++ '\n' :: (piece ++ more)) := by simp

theorem split_maximal (hoverlap : chunker.overlapTokens = 0)
    (happend : ∀ s t, chunker.countTokens s ≤ chunker.countTokens (s ++ t)) {text : Str}
    {chunks : List ChunkData} (h : chunker.split text = .ok chunks) :
    chunks.IsChain fun chunk next =>
      chunker.maxTokens < chunker.countTokens (chunk.text ++ '\n' :: next.text) := by
  by_cases hne : Str.strip text = []
  · simp only [split, if_pos hne] at h
    cases h
    exact .nil
  · obtain ⟨pieces, groups, _, hpacking, _⟩ := split_packing hne h
    exact hpacking.isChain hoverlap happend

def plainChunker : TextChunker :=
  { characterChunker with overlapTokens := 0, overlap_lt := characterChunker.maxTokens_pos }

theorem split_maximal_plain :
    [⟨0, "ab".toList, 2⟩, ⟨1, "cd".toList, 2⟩, ⟨2, "efgh".toList, 4⟩].IsChain
      fun chunk next : ChunkData => 4 < (chunk.text ++ '\n' :: next.text).length :=
  @split_maximal plainChunker rfl (fun s t => by simp [plainChunker, characterChunker])
    " ab cd\nefgh".toList _ (by decide +kernel)

end Maximal

end YCStudio.TextChunker
