import YCStudio.Library.Shingles
import YCStudio.Rag.ChunkConservation
import YCStudio.Services.ChunkBudget

namespace YCStudio

namespace TextChunker

variable {chunker : TextChunker} {text : Str} {chunks : List ChunkData}

theorem Covers.shingles {carried content : Str} {segments : List Segment} {previous : Str}
    (hcarried : ∀ segment ∈ segments.head?, segment.carried <:+ previous)
    (h : Covers chunker chunks carried content segments) :
    Shingles previous (chunks.map fun chunk => Str.essence chunk.text) content := by
  obtain ⟨rfl, hexact, -, hchain, rfl⟩ := h
  induction segments generalizing previous with
  | nil => exact .nil previous
  | cons segment segments ih =>
    obtain ⟨hessence, hfresh⟩ := hexact segment List.mem_cons_self
    obtain ⟨hnext, hchain⟩ := List.isChain_cons.mp hchain
    have hends : ∀ next ∈ segments.head?, next.carried <:+ Str.essence segment.chunk.text := by
      intro next hmem
      rcases hnext next hmem with hnone | ⟨_, _, _, _, _, hsuffix⟩
      · rw [hnone]
        exact List.nil_suffix
      · exact hsuffix
    have hrest := ih hends (fun other hother => hexact other (List.mem_cons_of_mem _ hother)) hchain
    rw [hessence] at hrest
    have hhere := Shingles.cons (hcarried segment (by simp)) hfresh hrest
    rw [← hessence] at hhere
    simpa using hhere

theorem split_shingles (h : chunker.split text = .ok chunks) :
    Shingles [] (chunks.map fun chunk => Str.essence chunk.text) (Str.essence text) := by
  by_cases hne : Str.strip text = []
  · rw [split, if_pos hne] at h
    cases h
    rw [← Str.essence_strip, hne, Str.essence_nil]
    exact .nil []
  · rw [chunker.split_eq_pack hne] at h
    obtain ⟨pieces, hpieces, hpack⟩ := Except.bind_eq_ok h
    have hessence := chunker.splitToLimit_essence chunker.separator_ne_nil hpieces
    have hstripped := chunker.splitToLimit_stripped (Str.strip_strip text) hpieces
    have hnonempty := chunker.splitToLimit_ne_nil hne hpieces
    rw [Str.essence_strip] at hessence
    cases pieces with
    | nil => exact absurd hessence.symm (by simpa using Str.essence_ne_nil (Str.strip_strip text) hne)
    | cons piece pieces =>
      obtain ⟨hfirst, hrest⟩ := List.forall_mem_cons.mp hstripped
      obtain ⟨hfirstNe, hrestNe⟩ := List.forall_mem_cons.mp hnonempty
      have hjoin : join [] piece = piece := by rw [join, if_pos rfl, hfirst]
      rw [packFrom, if_neg (by simp), hjoin] at hpack
      obtain ⟨segments, hcovers⟩ := chunker.packFrom_covers
        (fun p hp => ⟨hrest p hp, hrestNe p hp⟩) hfirst (List.nil_append _).symm
        (Str.essence_ne_nil hfirst hfirstNe) hpack
      have hshingles := hcovers.shingles fun segment hsegment => by
        rw [hcovers.head segment hsegment]
      rw [← hessence]
      simpa using hshingles

theorem preserveAsSingleChunk_shingles (chunker : TextChunker) (text : Str) :
    Shingles [] ((chunker.preserveAsSingleChunk text).map fun chunk => Str.essence chunk.text)
      (Str.essence text) := by
  rw [preserveAsSingleChunk, ← Str.essence_strip text]
  split
  · next hempty =>
    rw [hempty, Str.essence_nil]
    exact .nil []
  · next hne => exact .singleton (Str.essence_ne_nil (Str.strip_strip text) hne)

end TextChunker

theorem chunkForCollection_shingles {text : Str} {kind : CollectionKind} {chunker : TextChunker}
    {chunkData : List ChunkData} (h : chunkForCollection text kind chunker = .ok chunkData) :
    Shingles [] (chunkData.map fun chunk => Str.essence chunk.text) (Str.essence text) := by
  rw [chunkForCollection] at h
  split at h
  · cases h
    exact chunker.preserveAsSingleChunk_shingles text
  · exact TextChunker.split_shingles h

namespace Pipeline

variable {rt : Runtime} {source : Source} {collection : Collection} {filename : Str}
  {fileBytes : Bytes} {metadata : Option (List (Str × Str))} {countTokens : Option (Str → Nat)}
  {documentId : Uuid} {createdAt : Timestamp} {out : Ingested}

theorem outcome_shingles
    (h : outcome rt source collection filename fileBytes metadata countTokens documentId createdAt =
      .ok out) :
    Shingles [] (out.chunks.map fun chunk => Str.essence chunk.text)
      (Str.essence out.document.rawText) := by
  obtain ⟨_, _, _, chunkData, _, _, _, hchunks, htexts⟩ := outcome_cut h
  have hessences := congrArg (List.map Str.essence) htexts
  rw [List.map_map, List.map_map] at hessences
  exact hessences.symm ▸ chunkForCollection_shingles hchunks

end Pipeline

end YCStudio
