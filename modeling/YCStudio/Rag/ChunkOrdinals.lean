import YCStudio.Library.Traverse
import YCStudio.Rag.Chunker

namespace YCStudio.TextChunker

variable (chunker : TextChunker)

theorem makeChunk_ordinal {ordinal : Nat} {text : Str} {chunk : ChunkData}
    (h : chunker.makeChunk ordinal text = .ok chunk) : chunk.ordinal = ordinal := by
  simp only [makeChunk] at h
  split at h
  · cases h
  · cases h
    rfl

theorem packFrom_ordinals {pieces : List Str} {ordinal : Nat} {current : Str}
    {chunks : List ChunkData} (h : chunker.packFrom ordinal current pieces = .ok chunks) :
    chunks.map ChunkData.ordinal = List.range' ordinal chunks.length := by
  induction pieces generalizing ordinal current chunks with
  | nil =>
    simp only [packFrom] at h
    split at h
    · cases h
      rfl
    · obtain ⟨chunk, hchunk, h⟩ := Except.bind_eq_ok h
      cases h
      rw [List.map_singleton, chunker.makeChunk_ordinal hchunk]
      rfl
  | cons piece pieces ih =>
    simp only [packFrom] at h
    split at h
    · obtain ⟨chunk, hchunk, h⟩ := Except.bind_eq_ok h
      obtain ⟨rest, hrest, h⟩ := Except.bind_eq_ok h
      cases h
      rw [List.map_cons, ih hrest, chunker.makeChunk_ordinal hchunk, List.length_cons,
        List.range'_succ]
    · exact ih h

theorem split_ordinals {text : Str} {chunks : List ChunkData}
    (h : chunker.split text = .ok chunks) :
    chunks.map ChunkData.ordinal = List.range chunks.length := by
  simp only [split] at h
  split at h
  · cases h
    rfl
  · obtain ⟨pieces, _, h⟩ := Except.bind_eq_ok h
    rw [chunker.packFrom_ordinals h, List.range_eq_range']

theorem preserveAsSingleChunk_ordinals (text : Str) :
    (chunker.preserveAsSingleChunk text).map ChunkData.ordinal =
      List.range (chunker.preserveAsSingleChunk text).length := by
  simp only [preserveAsSingleChunk]
  split <;> rfl

end YCStudio.TextChunker
