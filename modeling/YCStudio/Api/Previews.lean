import YCStudio.Api.KbRoutes
import YCStudio.Consistency.Reuploads
import YCStudio.Consistency.SourceRows
import YCStudio.Services.PipelineCuts

namespace YCStudio

section Reads

variable {db : Database} {user id : Uuid}

theorem visibleSource_ok {source : Source} {collection : Collection} (hsource : source ∈ db.sources)
    (hlive : source.deletedAt = none) (hcollection : collection ∈ db.kbCollections)
    (hin : collection.id = source.collectionId) (hvisible : collection.VisibleTo user) :
    visibleSource db user source.id = .ok source := by
  have hget : (db.sources.get? source.id).filter (·.deletedAt = none) = some source :=
    Option.filter_eq_some_iff.mpr ⟨Table.get?_key hsource, decide_eq_true hlive⟩
  have hstored := Table.get?_eq_some_iff.mpr ⟨hcollection, hin⟩
  rw [visibleSource, hget]
  simp only [hstored]
  exact if_neg fun hhidden => hvisible.elim hhidden.1 hhidden.2

theorem newestDocument_nil (h : db.documentsOf id = []) : newestDocument db id = none := by
  rw [newestDocument, h]
  rfl

theorem newestDocument_singleton {document : Document} (h : db.documentsOf id = [document])
    (hlive : document.deletedAt = none) : newestDocument db id = some document := by
  have hkept : [document].filter (·.deletedAt = none) = [document] :=
    List.filter_cons_of_pos (decide_eq_true hlive)
  rw [newestDocument, h, hkept]
  rfl

def Chunk.preview (chunk : Chunk) : ChunkPreview where
  chunkId := chunk.id
  ordinal := chunk.ordinal
  text := chunk.text
  tokenCount := chunk.tokenCount

theorem chunkPreviews_eq {chunks : List Chunk} (h : db.chunksOf id = chunks)
    (hordinals : chunks.map Chunk.ordinal = List.range chunks.length) (chunkLimit : Nat) :
    chunkPreviews db id chunkLimit = (chunks.take chunkLimit).map Chunk.preview := by
  have hsorted : chunks.Pairwise fun a b => a.ordinal ≤ b.ordinal := by
    have hrange : (chunks.map Chunk.ordinal).Pairwise (· ≤ ·) := by
      rw [hordinals]
      exact List.pairwise_lt_range.imp Nat.le_of_lt
    exact List.pairwise_map.mp hrange
  rw [chunkPreviews, h, hsorted.insertionSort_eq]
  rfl

end Reads

namespace SourcePreviewResponse

structure Blank (preview : SourcePreviewResponse) : Prop where
  documentId : preview.documentId = none
  title : preview.title = none
  rawText : preview.rawText = none
  rawTextTruncated : preview.rawTextTruncated = false
  chunkCount : preview.chunkCount = 0
  chunks : preview.chunks = []
  chunksTruncated : preview.chunksTruncated = false

structure Shows (query : PreviewQuery) (out : Ingested) (preview : SourcePreviewResponse) :
    Prop where
  documentId : preview.documentId = some out.document.id
  title : preview.title = some out.document.title
  rawText : preview.rawText = some (out.document.rawText.take previewRawTextLimit)
  rawTextTruncated :
    preview.rawTextTruncated = true ↔ previewRawTextLimit < out.document.rawText.length
  chunkCount : preview.chunkCount = out.chunks.length
  chunks : preview.chunks = (out.chunks.take query.chunkLimit).map Chunk.preview
  ordinals : preview.chunks.map ChunkPreview.ordinal = List.range preview.chunks.length
  chunksTruncated : preview.chunksTruncated = true ↔ query.chunkLimit < out.chunks.length
  covers : ∃ shown, shown <+: Str.essence out.document.rawText ∧
    Shingles [] (preview.chunks.map fun chunk => Str.essence chunk.text) shown ∧
      (preview.chunksTruncated = false → shown = Str.essence out.document.rawText)

inductive Reports (sha256 : Bytes → Str) (query : PreviewQuery) (source : Source)
    (preview : SourcePreviewResponse) : Prop
  | pending (hstatus : source.ingestStatus = .pending) (herror : preview.errorMessage = none)
      (hblank : preview.Blank) : Reports sha256 query source preview
  | failed {errorMessage : Str} (hstatus : source.ingestStatus = .failed)
      (herror : preview.errorMessage = some errorMessage) (hlength : errorMessage.length ≤ 500)
      (hblank : preview.Blank) : Reports sha256 query source preview
  | completed {out : Ingested} (hstatus : source.ingestStatus = .completed)
      (herror : preview.errorMessage = none)
      (hmakes : Pipeline.Makes sha256 source.contentHash out) (hshows : preview.Shows query out) :
      Reports sha256 query source preview

structure Describes (libs : ParserLibraries) (server : Server) (source : Source)
    (preview : SourcePreviewResponse) : Prop where
  sourceId : preview.sourceId = source.id
  filename : preview.filename = source.filename
  ingestStatus : preview.ingestStatus = source.ingestStatus
  errorMessage : preview.errorMessage = source.errorMessage
  dirPath : preview.dirPath = source.dirPath
  createdAt : preview.createdAt = source.createdAt
  served : (preview.mediaType, preview.previewMode) =
    servedFileFor (uploadSuffix libs (purePathName source.filename))
  original : preview.originalAvailable = (server.original source).isSome
  size : preview.sizeBytes = (server.original source).map List.length

end SourcePreviewResponse

section Responses

variable {libs : ParserLibraries} {server : Server} {user sourceId : Uuid} {query : PreviewQuery}
  {source : Source} {sha256 : Bytes → Str}

theorem describes_previewResponse (libs : ParserLibraries) (server : Server) (source : Source)
    {preview : SourcePreview} (hid : preview.sourceId = source.id)
    (hfilename : preview.filename = source.filename)
    (hstatus : preview.ingestStatus = source.ingestStatus)
    (herror : preview.errorMessage = source.errorMessage) (hdirPath : preview.dirPath = source.dirPath)
    (hcreatedAt : preview.createdAt = source.createdAt)
    (hstored : preview.storedFile = findStored server.files source.id source.filename) :
    (previewResponse libs preview).Describes libs server source := by
  refine ⟨hid, hfilename, hstatus, herror, hdirPath, hcreatedAt, ?_, ?_, ?_⟩
  · rw [← hfilename]
    rfl
  · change preview.storedFile.isSome = _
    rw [hstored, findStored, Option.isSome_map]
    rfl
  · change preview.storedFile.map StoredFile.sizeBytes = _
    rw [hstored, findStored, Option.map_map]
    rfl

variable (libs query) (hvisible : visibleSource server.database user sourceId = .ok source)

include hvisible

theorem previewKbSource_shows {out : Ingested} (hyields : server.database.Yields source.id out)
    (hlive : out.document.deletedAt = none)
    (hordinals : out.chunks.map Chunk.ordinal = List.range out.chunks.length)
    (hcuts : Shingles [] (out.chunks.map fun chunk => Str.essence chunk.text)
      (Str.essence out.document.rawText)) :
    ∃ preview, previewKbSource libs server.database server.files user sourceId query = .ok preview ∧
      preview.Describes libs server source ∧ preview.Shows query out := by
  have hsome := newestDocument_singleton hyields.documents hlive
  have hchunks := chunkPreviews_eq hyields.chunks hordinals query.chunkLimit
  have hlength : ((out.chunks.take query.chunkLimit).map Chunk.preview).length <
      out.chunks.length ↔ query.chunkLimit < out.chunks.length := by
    rw [List.length_map, List.length_take]
    omega
  obtain ⟨shown, hshown, htaken, hall⟩ := hcuts.take query.chunkLimit
  rw [previewKbSource, getSourcePreview, hvisible]
  simp only [bind, Except.bind, hsome, hchunks, hyields.chunks]
  refine ⟨_, rfl, describes_previewResponse libs server source rfl rfl rfl rfl rfl rfl rfl,
    rfl, rfl, rfl, decide_eq_true_iff, rfl, rfl, ?_, decide_eq_true_iff.trans hlength, shown, hshown,
    ?_, fun hfull => hall ?_⟩
  · change ((out.chunks.take query.chunkLimit).map Chunk.preview).map ChunkPreview.ordinal =
      List.range ((out.chunks.take query.chunkLimit).map Chunk.preview).length
    have htake := congrArg (List.take query.chunkLimit) hordinals
    rw [← List.map_take, List.take_range] at htake
    rw [List.map_map, List.length_map, List.length_take]
    exact htake
  · change Shingles [] (((out.chunks.take query.chunkLimit).map Chunk.preview).map
      fun chunk => Str.essence chunk.text) shown
    rw [List.map_map, List.map_take]
    exact htaken
  · rw [List.length_map]
    exact Nat.le_of_not_lt (hlength.not.mp (of_decide_eq_false hfull))

end Responses

theorem Pipeline.Makes.wellFormed {sha256 : Bytes → Str} {contentHash : Str} {out : Ingested}
    (h : Makes sha256 contentHash out) :
    out.document.deletedAt = none ∧
      out.chunks.map Chunk.ordinal = List.range out.chunks.length ∧
      Shingles [] (out.chunks.map fun chunk => Str.essence chunk.text)
        (Str.essence out.document.rawText) := by
  obtain ⟨_, _, _, _, _, _, _, _, _, houtcome⟩ := h
  have hwell := outcome_wellFormed houtcome
  exact ⟨hwell.live, hwell.ordinals, outcome_shingles houtcome⟩

section Answers

variable {libs : ParserLibraries} {sha256 : Bytes → Str} {server : Server} {user sourceId : Uuid}
  {query : PreviewQuery}

end Answers

namespace KbEvent

variable {libs : ParserLibraries} {limit : Nat} {sha256 : Bytes → Str}

def Hashes (sha256 : Bytes → Str) : KbEvent → Prop
  | uploadFile rt _ _ _ => rt.sha256 = sha256
  | uploadBatch rt _ _ _ _ _ => rt.sha256 = sha256
  | seedPublicLibraries rt _ => rt.sha256 = sha256
  | _ => True

end KbEvent

end YCStudio
