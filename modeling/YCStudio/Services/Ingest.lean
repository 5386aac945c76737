import YCStudio.Services.Runtime

namespace YCStudio

structure IngestResult where
  sourceId : Uuid
  documentId : Option Uuid
  chunkCount : Nat
  skipped : Bool
  deriving DecidableEq, Repr

def maxErrorMessageLength : Nat := 500

def computeContentHash (rt : Runtime) (data : Bytes) : Str := rt.sha256 data

def isWholeDocumentKind (kind : CollectionKind) : Bool := kind = .rule ∨ kind = .template

def chunkForCollection (text : Str) (kind : CollectionKind) (chunker : TextChunker) :
    Except ChunkerError (List ChunkData) :=
  if isWholeDocumentKind kind then .ok (chunker.preserveAsSingleChunk text)
  else chunker.split text

def fitChunkBudget (maxTokens overlapTokens : Int) (modelLimit : Option Int) : Int × Int :=
  match modelLimit with
  | none => (maxTokens, overlapTokens)
  | some limit =>
      if maxTokens ≤ limit then (maxTokens, overlapTokens)
      else (limit, min ((limit * overlapTokens).tdiv maxTokens) (limit - 1))

def documentMeta (parsed : ParseResult) (metadata : Option (List (Str × Str)))
    (dirPath : Option Str) : List (Str × MetaValue) :=
  let confirmed := (metadata.getD []).map fun entry => (entry.1, MetaValue.text entry.2)
  let located := (dirPath.filter (· ≠ [])).toList.map fun path =>
    ("dir_path".toList, MetaValue.text path)
  dictMerge (dictMerge parsed.meta confirmed) located

def chunkerFor (rt : Runtime) (kind : CollectionKind) (countTokens : Option (Str → Nat)) :
    Except Exn (Option LocalEmbedding × TextChunker) :=
  if isWholeDocumentKind kind then do
    let chunker ← (TextChunker.init (countTokens.getD List.length) rt.settings.chunkSize
      rt.settings.chunkOverlap).mapError ChunkerError.exn
    return (none, chunker)
  else do
    let embedding ← rt.localEmbedding
    let budget := fitChunkBudget rt.settings.chunkSize rt.settings.chunkOverlap
      embedding.maxInputTokens
    let chunker ← (TextChunker.init (countTokens.getD embedding.countTokens) budget.1
      budget.2).mapError ChunkerError.exn
    return (some embedding, chunker)

structure Vectors where
  vectors : List (Option Embedding)
  embedModel : Option Str
  embedVersion : Option Str

def chunkRow (collectionId documentId : Uuid) (encoded : Vectors)
    (entry : Uuid × ChunkData × Option Embedding) : Chunk where
  id := entry.1
  collectionId
  documentId
  ordinal := entry.2.1.ordinal
  text := entry.2.1.text
  tokenCount := entry.2.1.tokenCount
  embedding := entry.2.2
  embedModel := encoded.embedModel
  embedVersion := encoded.embedVersion

def zipStrict {α β : Type} (xs : List α) (ys : List β) : Except Exn (List (α × β)) :=
  if ys.length < xs.length then
    .error (Exn.valueError "zip() argument 2 is shorter than argument 1".toList)
  else if xs.length < ys.length then
    .error (Exn.valueError "zip() argument 2 is longer than argument 1".toList)
  else .ok (xs.zip ys)

def batches {α : Type} (size : Nat) (rows : List α) : List (List α) :=
  (List.range ((rows.length + size - 1) / size)).map fun i => (rows.drop (i * size)).take size

def insertBatches (fault : FlushPoint → Option Exn) (size : Nat) :
    Nat → List (List Chunk) → Program Unit
  | _, [] => pure ()
  | offset, batch :: rest => do
      flush (fault (.chunks offset)) (batch.map .insertChunk)
      insertBatches fault size (offset + size) rest

def bulkInsertChunks (fault : FlushPoint → Option Exn) (chunks : List Chunk) (batchSize : Nat) :
    Program Unit :=
  insertBatches fault batchSize 0 (batches batchSize chunks)

def setStatus (fault : Option Exn) (source : Source) (status : IngestStatus) :
    Program Source := do
  flush fault [.updateSource source (source.withStatus status)]
  return source.withStatus status

def vectorsOf (embedding : Option LocalEmbedding) (vectors : List Embedding) :
    Except Exn Vectors :=
  match embedding with
  | none => .error ⟨.other, "Searchable collections require an embedding model".toList⟩
  | some embedding =>
      .ok {
        vectors := vectors.map some
        embedModel := some embedding.embedModel
        embedVersion := some embedding.embedVersion }

def encodeSearchable (rt : Runtime) (fault : Option Exn) (source : Source)
    (embedding : Option LocalEmbedding) (chunkData : List ChunkData) :
    Program (Source × Vectors) := do
  let source ← setStatus fault source .embedding
  let vectors ← attempt
    (rt.encodeTexts (chunkData.map ChunkData.text) rt.settings.embeddingBatchSize)
  let encoded ← attempt (vectorsOf embedding vectors)
  return (source, encoded)

def withoutVectors (chunkData : List ChunkData) : Vectors where
  vectors := List.replicate chunkData.length none
  embedModel := none
  embedVersion := none

def encodeChunks (rt : Runtime) (fault : Option Exn) (source : Source) (kind : CollectionKind)
    (embedding : Option LocalEmbedding) (chunkData : List ChunkData) :
    Program (Source × Vectors) :=
  if isWholeDocumentKind kind then return (source, withoutVectors chunkData)
  else encodeSearchable rt fault source embedding chunkData

def runPipeline (rt : Runtime) (source : Source) (collection : Collection) (filename : Str)
    (fileBytes : Bytes) (metadata : Option (List (Str × Str)))
    (countTokens : Option (Str → Nat)) : Program IngestResult := do
  let fault := rt.flushFault filename
  let source ← setStatus (fault .parsing) source .parsing
  let parsed ← attempt (rt.parseFile filename fileBytes)
  let cleanedText ← attempt (rt.clean parsed.text)
  let documentId ← newId
  let createdAt ← now
  let document : Document := {
    id := documentId
    sourceId := source.id
    title := parsed.title
    rawText := cleanedText
    «meta» := documentMeta parsed metadata source.dirPath
    parserVersion := parsed.parserVersion
    createdAt
    deletedAt := none }
  flush (fault .document) [.insertDocument document]
  let source ← setStatus (fault .chunking) source .chunking
  let (embedding, chunker) ← attempt (chunkerFor rt collection.kind countTokens)
  let chunkData ← attempt
    ((chunkForCollection cleanedText collection.kind chunker).mapError ChunkerError.exn)
  if chunkData = [] then
    let source ← setStatus (fault .completed) source .completed
    return { sourceId := source.id, documentId := some document.id, chunkCount := 0,
             skipped := false }
  else
    let (source, encoded) ← encodeChunks rt (fault .embedding) source collection.kind embedding
      chunkData
    let zipped ← attempt (zipStrict chunkData encoded.vectors)
    let ids ← newIds zipped.length
    let rows := (ids.zip zipped).map (chunkRow collection.id document.id encoded)
    bulkInsertChunks fault rows rt.settings.ingestBatchSize
    let source ← setStatus (fault .completed) source .completed
    return { sourceId := source.id, documentId := some document.id, chunkCount := rows.length,
             skipped := false }

def recordFailure (sourceId : Uuid) (e : Exn) : Program Unit := do
  execute (.recordFailure sourceId (e.message.take maxErrorMessageLength))
  flush none []

def handleFailure (sourceId : Uuid) (e : Exn) : Program IngestResult := do
  if ← savepointIsActive then savepointRollback
  recordFailure sourceId e
  throw e

-- The try block that ingest_document and ingest_pending_source share word for word.
def inSavepoint (sourceId : Uuid) (pipeline : Program IngestResult) : Program IngestResult := do
  beginNested
  let result ← tryCatch pipeline (handleFailure sourceId)
  savepointCommit
  return result

def findExistingSource (collectionId : Uuid) (contentHash : Str) : Program (Option Source) :=
  select (.sourceByHash collectionId contentHash)

def isReingestable (source : Source) : Bool :=
  source.deletedAt ≠ none ∨ source.ingestStatus = .failed

def Source.reopen (source : Source) (filename : Str) (dirPath : Option Str) : Source :=
  { source with
    filename
    dirPath
    deletedAt := none
    errorMessage := none
    ingestStatus := .pending }

def resetSourceForReingest (fault : Option Exn) (source : Source) (filename : Str)
    (dirPath : Option Str) : Program Source := do
  execute (.deleteDocuments source.id)
  flush fault [.updateSource source (source.reopen filename dirPath)]
  return source.reopen filename dirPath

def admitSource (rt : Runtime) (existing : Option Source) (collectionId : Uuid)
    (filename contentHash : Str) (dirPath : Option Str) : Program Source := do
  match existing with
  | none =>
      let id ← newId
      let createdAt ← now
      let source : Source := {
        id
        collectionId
        batchId := none
        filename
        contentHash
        dirPath
        ingestStatus := .pending
        errorMessage := none
        createdAt
        deletedAt := none }
      flush (rt.flushFault filename .source) [.insertSource source]
      return source
  | some existing =>
      resetSourceForReingest (rt.flushFault filename .reset) existing filename dirPath

def ingestDocument (rt : Runtime) (collectionId : Uuid) (filename : Str) (fileBytes : Bytes)
    (dirPath : Option Str) (metadata : Option (List (Str × Str)))
    (countTokens : Option (Str → Nat)) : Program IngestResult := do
  let contentHash := computeContentHash rt fileBytes
  let existing ← findExistingSource collectionId contentHash
  match existing.filter (!isReingestable ·) with
  | some duplicate =>
      return { sourceId := duplicate.id, documentId := none, chunkCount := 0, skipped := true }
  | none =>
      match ← select (.collection collectionId) with
      | none =>
          throw (Exn.valueError
            ("Collection ".toList ++ collectionId.str ++ " not found".toList))
      | some collection =>
          let source ← admitSource rt existing collectionId filename contentHash dirPath
          inSavepoint source.id
            (runPipeline rt source collection filename fileBytes metadata countTokens)

def ingestPendingSource (rt : Runtime) (source : Source) (collection : Collection)
    (fileBytes : Bytes) (metadata : List (Str × Str)) : Program IngestResult :=
  if source.ingestStatus ≠ .pending then
    return { sourceId := source.id, documentId := none, chunkCount := 0, skipped := true }
  else
    inSavepoint source.id
      (runPipeline rt source collection source.filename fileBytes (some metadata) none)

section Asks

open Script

structure Op.AllowsPipeline (p : Op → Prop) : Prop where
  newId : p .newId
  newIds : ∀ count, p (.newIds count)
  now : p .now
  status : ∀ fault source status, p (.flush fault [.updateSource source status])
  chunks : ∀ fault (chunks : List Chunk), p (.flush fault (chunks.map .insertChunk))

variable {p : Op → Prop} (hp : Op.AllowsPipeline p)

include hp

theorem asks_setStatus (fault : Option Exn) (source : Source) (status : IngestStatus) :
    (setStatus fault source status).Asks p :=
  asks_bind (asks_perform (hp.status _ _ _)) fun _ => asks_pure _

theorem asks_encodeChunks (rt : Runtime) (fault : Option Exn) (source : Source)
    (kind : CollectionKind) (embedding : Option LocalEmbedding) (chunkData : List ChunkData) :
    (encodeChunks rt fault source kind embedding chunkData).Asks p := by
  refine asks_ite (asks_pure _) ?_
  refine asks_bind (asks_setStatus hp _ _ _) fun _ => ?_
  exact asks_bind (asks_attempt _) fun _ => asks_bind (asks_attempt _) fun _ => asks_pure _

theorem asks_insertBatches (fault : FlushPoint → Option Exn) (size offset : Nat)
    (groups : List (List Chunk)) : (insertBatches fault size offset groups).Asks p := by
  induction groups generalizing offset with
  | nil => exact asks_pure _
  | cons group groups ih => exact asks_bind (asks_perform (hp.chunks _ group)) fun _ => ih _

theorem asks_runPipeline (rt : Runtime) (source : Source) (collection : Collection)
    {filename : Str} {fileBytes : Bytes} (metadata : Option (List (Str × Str)))
    (countTokens : Option (Str → Nat))
    (hdocument : ∀ parsed cleanedText, rt.parseFile filename fileBytes = .ok parsed →
      rt.clean parsed.text = .ok cleanedText → ∀ fault document, document.title = parsed.title →
        document.rawText = cleanedText → document.parserVersion = parsed.parserVersion →
        p (.flush fault [.insertDocument document])) :
    (runPipeline rt source collection filename fileBytes metadata countTokens).Asks p := by
  refine asks_bind (asks_setStatus hp _ _ _) fun _ => ?_
  refine asks_attempt_bind fun parsed hparsed => asks_attempt_bind fun cleanedText hcleaned => ?_
  refine asks_bind (asks_perform hp.newId) fun _ => asks_bind (asks_perform hp.now) fun _ => ?_
  refine asks_bind (asks_perform ?_) fun _ => ?_
  · exact hdocument parsed cleanedText hparsed hcleaned _ _ rfl rfl rfl
  refine asks_bind (asks_setStatus hp _ _ _) fun _ => ?_
  refine asks_bind (asks_attempt _) fun _ => asks_bind (asks_attempt _) fun _ => ?_
  refine asks_ite ?_ ?_
  · exact asks_bind (asks_setStatus hp _ _ _) fun _ => asks_pure _
  · refine asks_bind (asks_encodeChunks hp _ _ _ _ _ _) fun _ => ?_
    refine asks_bind (asks_attempt _) fun _ => asks_bind (asks_perform (hp.newIds _)) fun _ => ?_
    refine asks_bind (asks_insertBatches hp _ _ _ _) fun _ => ?_
    exact asks_bind (asks_setStatus hp _ _ _) fun _ => asks_pure _

omit hp

structure Op.AllowsIngest (p : Op → Prop) : Prop where
  newId : p .newId
  newIds : ∀ count, p (.newIds count)
  now : p .now
  select : ∀ query, p (.select query)
  flush : ∀ fault writes, p (.flush fault writes)
  execute : ∀ write, p (.execute write)
  beginNested : p .beginNested
  savepointIsActive : p .savepointIsActive
  savepointRollback : p .savepointRollback
  savepointCommit : p .savepointCommit

variable (hq : Op.AllowsIngest p)

include hq

theorem Op.AllowsIngest.pipeline : Op.AllowsPipeline p where
  newId := hq.newId
  newIds := hq.newIds
  now := hq.now
  status _ _ _ := hq.flush _ _
  chunks _ _ := hq.flush _ _

theorem asks_recordFailure (sourceId : Uuid) (e : Exn) : (recordFailure sourceId e).Asks p :=
  asks_bind (asks_perform (hq.execute _)) fun _ => asks_perform (hq.flush _ _)

theorem asks_inSavepoint {pipeline : Program IngestResult} (h : pipeline.Asks p)
    (sourceId : Uuid) : (inSavepoint sourceId pipeline).Asks p := by
  refine asks_bind (asks_perform hq.beginNested) fun _ => ?_
  refine asks_bind (asks_recover h fun e => ?_) fun _ => ?_
  · refine asks_bind (asks_perform hq.savepointIsActive) fun active => ?_
    refine asks_ite (asks_bind (asks_perform hq.savepointRollback) fun _ => ?_) ?_
    all_goals exact asks_bind (asks_recordFailure hq _ _) fun _ => asks_throw _
  · exact asks_bind (asks_perform hq.savepointCommit) fun _ => asks_pure _

theorem asks_resetSourceForReingest (fault : Option Exn) (source : Source) (filename : Str)
    (dirPath : Option Str) : (resetSourceForReingest fault source filename dirPath).Asks p :=
  asks_bind (asks_perform (hq.execute _)) fun _ =>
    asks_bind (asks_perform (hq.flush _ _)) fun _ => asks_pure _

theorem asks_admitSource (rt : Runtime) (existing : Option Source) (collectionId : Uuid)
    (filename contentHash : Str) (dirPath : Option Str) :
    (admitSource rt existing collectionId filename contentHash dirPath).Asks p := by
  cases existing with
  | none =>
    refine asks_bind (asks_perform hq.newId) fun _ => asks_bind (asks_perform hq.now) fun _ => ?_
    exact asks_bind (asks_perform (hq.flush _ _)) fun _ => asks_pure _
  | some existing => exact asks_resetSourceForReingest hq _ _ _ _

theorem asks_ingestDocument (rt : Runtime) (collectionId : Uuid) (filename : Str)
    (fileBytes : Bytes) (dirPath : Option Str) (metadata : Option (List (Str × Str)))
    (countTokens : Option (Str → Nat)) :
    (ingestDocument rt collectionId filename fileBytes dirPath metadata countTokens).Asks p := by
  refine asks_bind (asks_perform (hq.select _)) fun existing => ?_
  split
  · exact asks_pure _
  · refine asks_bind (asks_perform (hq.select _)) fun collection => ?_
    split
    · exact asks_throw _
    · refine asks_bind (asks_admitSource hq _ _ _ _ _ _) fun _ => asks_inSavepoint hq ?_ _
      exact asks_runPipeline hq.pipeline _ _ _ _ _ fun _ _ _ _ _ _ _ _ _ => hq.flush _ _

theorem asks_ingestPendingSource (rt : Runtime) (source : Source) (collection : Collection)
    (fileBytes : Bytes) (metadata : List (Str × Str)) :
    (ingestPendingSource rt source collection fileBytes metadata).Asks p := by
  refine asks_ite (asks_pure _) (asks_inSavepoint hq ?_ _)
  exact asks_runPipeline hq.pipeline _ _ _ _ _ fun _ _ _ _ _ _ _ _ _ => hq.flush _ _

end Asks

end YCStudio
