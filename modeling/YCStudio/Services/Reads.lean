import Mathlib.Algebra.BigOperators.Group.List.Lemmas
import Mathlib.Algebra.GroupWithZero.Nat
import Mathlib.Algebra.Order.Ring.Rat
import Mathlib.Data.Char
import Mathlib.Data.List.Lex
import YCStudio.Library.Joins
import YCStudio.Services.KnowledgeBase

namespace YCStudio

-- The encoder and pgvector's distance operator.
structure Retriever where
  embedQuery : Str → Except Exn Embedding
  cosineDistance : Embedding → Embedding → Rat

def Collection.VisibleTo (collection : Collection) (user : Uuid) : Prop :=
  collection.scope = .public ∨ collection.userId = some user

instance (collection : Collection) (user : Uuid) : Decidable (collection.VisibleTo user) :=
  inferInstanceAs (Decidable (_ ∨ _))

def isSearchableKind (kind : CollectionKind) : Bool := kind = .case ∨ kind = .material

def limitRows {α : Type} (limit : Int) (rows : List α) : Except Exn (List α) :=
  if limit < 0 then
    .error { errorClass := .databaseError, message := "LIMIT must not be negative".toList }
  else .ok (rows.take limit.toNat)

def groupCount {α : Type} [DecidableEq α] (keys : List α) : List (α × Nat) :=
  keys.dedup.map fun key => (key, keys.count key)

theorem lookup_groupCount {α : Type} [DecidableEq α] (keys : List α) (key : α) :
    ((groupCount keys).lookup key).getD 0 = keys.count key := by
  rw [groupCount, lookup_map_pair]
  by_cases h : key ∈ keys <;> simp [h, List.count_eq_zero.mpr]

theorem sum_groupCount {α : Type} [DecidableEq α] (keys : List α) :
    ((groupCount keys).map Prod.snd).sum = keys.length := by
  rw [groupCount, List.map_map]
  exact List.sum_map_count_dedup_eq_length keys

structure CollectionView where
  id : Uuid
  kind : CollectionKind
  scope : CollectionScope
  name : Str
  sourceCount : Nat
  documentCount : Nat
  chunkCount : Nat
  deriving DecidableEq, Repr

def CollectionKind.rank : CollectionKind → Nat
  | «case» => 0
  | rule => 1
  | template => 2
  | material => 3

def collectionOrder (a b : Collection) : Prop :=
  a.kind.rank < b.kind.rank ∨ (a.kind = b.kind ∧ a.name ≤ b.name)

instance : DecidableRel collectionOrder := fun a b =>
  inferInstanceAs (Decidable (a.kind.rank < b.kind.rank ∨ (a.kind = b.kind ∧ a.name ≤ b.name)))

def documentSource (db : Database) (document : Document) : Option Source :=
  db.sources.get? document.sourceId

def chunkSource (db : Database) (chunk : Chunk) : Option Source :=
  (db.documents.get? chunk.documentId).bind (documentSource db)

def isCountedIn (collectionIds : List Uuid) (source : Source) : Bool :=
  source.collectionId ∈ collectionIds ∧ source.deletedAt = none

def countByCollectionColumn (db : Database) (collectionIds : List Uuid) : List (Uuid × Nat) :=
  groupCount ((db.sources.rows.filter (isCountedIn collectionIds)).map Source.collectionId)

def countDocumentsByCollection (db : Database) (collectionIds : List Uuid) : List (Uuid × Nat) :=
  groupCount ((db.documents.rows.filterMap fun document =>
    (documentSource db document).filter (isCountedIn collectionIds)).map Source.collectionId)

def countChunksByCollection (db : Database) (collectionIds : List Uuid) : List (Uuid × Nat) :=
  groupCount ((db.chunks.rows.filterMap fun chunk =>
    (chunkSource db chunk).filter (isCountedIn collectionIds)).map Source.collectionId)

def listCollections (db : Database) (currentUserId : Uuid) (kind : Option CollectionKind) :
    List CollectionView :=
  let collections := (db.kbCollections.rows.filter fun row =>
    row.VisibleTo currentUserId ∧ ∀ k ∈ kind, row.kind = k).insertionSort collectionOrder
  if collections = [] then []
  else
    let ids := collections.map Collection.id
    let sourceCounts := countByCollectionColumn db ids
    let documentCounts := countDocumentsByCollection db ids
    let chunkCounts := countChunksByCollection db ids
    collections.map fun collection => {
      id := collection.id
      kind := collection.kind
      scope := collection.scope
      name := collection.name
      sourceCount := (sourceCounts.lookup collection.id).getD 0
      documentCount := (documentCounts.lookup collection.id).getD 0
      chunkCount := (chunkCounts.lookup collection.id).getD 0 }

structure SearchRow where
  chunk : Chunk
  document : Document
  source : Source
  collection : Collection
  deriving DecidableEq, Repr

def joinChunk (db : Database) (chunk : Chunk) : Option SearchRow := do
  let document ← db.documents.get? chunk.documentId
  let source ← db.sources.get? document.sourceId
  let collection ← db.kbCollections.get? chunk.collectionId
  return { chunk, document, source, collection }

theorem joinChunk_eq_some {db : Database} {chunk : Chunk} {row : SearchRow} :
    joinChunk db chunk = some row ↔
      db.documents.get? chunk.documentId = some row.document ∧
        db.sources.get? row.document.sourceId = some row.source ∧
          db.kbCollections.get? chunk.collectionId = some row.collection ∧ row.chunk = chunk := by
  constructor
  · intro h
    obtain ⟨document, hdocument, h⟩ := Option.bind_eq_some_iff.mp h
    obtain ⟨source, hsource, h⟩ := Option.bind_eq_some_iff.mp h
    obtain ⟨collection, hcollection, h⟩ := Option.bind_eq_some_iff.mp h
    obtain rfl := Option.some.inj h
    exact ⟨hdocument, hsource, hcollection, rfl⟩
  · rintro ⟨hdocument, hsource, hcollection, rfl⟩
    simp only [joinChunk, hdocument, hsource, hcollection, Option.bind_eq_bind, Option.bind_some]
    rfl

def SearchRow.IsSearchableBy (row : SearchRow) (user : Uuid) : Prop :=
  row.chunk.embedding ≠ none ∧ row.document.deletedAt = none ∧ row.source.deletedAt = none ∧
    row.collection.VisibleTo user

instance (row : SearchRow) (user : Uuid) : Decidable (row.IsSearchableBy user) :=
  inferInstanceAs (Decidable (_ ∧ _))

def SearchRow.distance (retriever : Retriever) (queryVector : Embedding) (row : SearchRow) : Rat :=
  (row.chunk.embedding.map (retriever.cosineDistance · queryVector)).getD 0

def cosineDistanceToScore (distance : Rat) : Rat := min 1 (max 0 (1 - distance / 2))

-- What search_chunks reads of a request, whose bounds are set by its schema.
structure SearchFields where
  query : Str
  kind : CollectionKind
  topK : Nat
  metadataFilter : List (Str × Str)

structure SearchRequest extends SearchFields where
  query_length : 1 ≤ query.length ∧ query.length ≤ 2000
  topK_bounds : 1 ≤ topK ∧ topK ≤ 20

def Document.MetaContains (document : Document) (metadataFilter : List (Str × Str)) : Prop :=
  ∀ entry ∈ metadataFilter, (entry.1, MetaValue.text entry.2) ∈ document.meta

instance (document : Document) (metadataFilter : List (Str × Str)) :
    Decidable (document.MetaContains metadataFilter) :=
  inferInstanceAs (Decidable (∀ entry ∈ metadataFilter, _))

structure RetrievedChunk where
  chunk : Chunk
  document : Document
  source : Source
  score : Rat
  deriving DecidableEq, Repr

def unsupportedSearchKind (kind : CollectionKind) : Exn where
  errorClass := .unsupportedSearchKindError
  message := "The ".toList ++ pyRepr kind.value ++
    " library is not searchable; use its deterministic access path.".toList

def matchingRows (db : Database) (currentUserId : Uuid) (kind : CollectionKind)
    (metadataFilter : List (Str × Str)) : List SearchRow :=
  (db.chunks.rows.filterMap (joinChunk db)).filter fun row =>
    row.IsSearchableBy currentUserId ∧ row.collection.kind = kind ∧
      row.document.MetaContains metadataFilter

def SearchRow.retrieved (retriever : Retriever) (queryVector : Embedding) (row : SearchRow) :
    RetrievedChunk where
  chunk := row.chunk
  document := row.document
  source := row.source
  score := cosineDistanceToScore (row.distance retriever queryVector)

-- The order in which the server comes by the rows: ORDER BY distance keeps it at equal distances.
structure ScanOrder where
  arrange : List SearchRow → List SearchRow
  perm : ∀ rows, (arrange rows).Perm rows

def ScanOrder.stored : ScanOrder where
  arrange rows := rows
  perm rows := .refl rows

def searchChunks (retriever : Retriever) (scan : ScanOrder) (db : Database) (currentUserId : Uuid)
    (request : SearchFields) : Except Exn (List RetrievedChunk) := do
  if !isSearchableKind request.kind then throw (unsupportedSearchKind request.kind)
  let queryVector ← retriever.embedQuery request.query
  let distance := SearchRow.distance retriever queryVector
  let rows := scan.arrange (matchingRows db currentUserId request.kind request.metadataFilter)
  let found := (rows.insertionSort fun a b => distance a ≤ distance b).take request.topK
  return found.map (SearchRow.retrieved retriever queryVector)

structure EvaluationHit where
  chunkId : Uuid
  documentId : Uuid
  score : Rat
  deriving DecidableEq, Repr

def evaluationOrder (distance : SearchRow → Rat) (a b : SearchRow) : Prop :=
  distance a < distance b ∨ (distance a = distance b ∧ a.chunk.id.le b.chunk.id = true)

instance (distance : SearchRow → Rat) : DecidableRel (evaluationOrder distance) := fun _ _ =>
  inferInstanceAs (Decidable (_ ∨ _))

def searchableRows (db : Database) (userId : Uuid) : List SearchRow :=
  (db.chunks.rows.filterMap (joinChunk db)).filter fun row =>
    row.IsSearchableBy userId ∧ isSearchableKind row.collection.kind = true

def retrieveForEvaluation (retriever : Retriever) (db : Database) (userId : Uuid) (query : Str)
    (topK : Int) : Except Exn (List EvaluationHit) := do
  let queryVector ← retriever.embedQuery query
  let distance := SearchRow.distance retriever queryVector
  let rows ← limitRows topK ((searchableRows db userId).insertionSort (evaluationOrder distance))
  return rows.map fun row => {
    chunkId := row.chunk.id
    documentId := row.document.id
    score := cosineDistanceToScore (distance row) }

def visibleSearchableChunkIds (db : Database) (userId : Uuid) : List Str :=
  (searchableRows db userId).map fun row => row.chunk.id.str

structure SourceView where
  sourceId : Uuid
  filename : Str
  ingestStatus : IngestStatus
  dirPath : Option Str
  createdAt : Timestamp
  documentId : Option Uuid
  title : Option Str
  chunkCount : Nat
  deriving DecidableEq, Repr

def sourceView (db : Database) (source : Source) : SourceView :=
  -- Later rows overwrite earlier ones in the dict that is keyed by source_id.
  let document := (db.documentsOf source.id).getLast?
  { sourceId := source.id
    filename := source.filename
    ingestStatus := source.ingestStatus
    dirPath := source.dirPath
    createdAt := source.createdAt
    documentId := document.map Document.id
    title := document.map Document.title
    chunkCount := (document.map fun document => (db.chunksOf document.id).length).getD 0 }

def listSources (db : Database) (currentUserId collectionId : Uuid) :
    Except Exn (List SourceView) := do
  match db.kbCollections.get? collectionId with
  | none => throw (collectionNotFound collectionId)
  | some collection =>
      if collection.scope ≠ .public ∧ collection.userId ≠ some currentUserId then
        throw (collectionAccess "view this collection")
      else
        let sources := ((db.sourcesOf collectionId).filter (·.deletedAt = none)).insertionSort
          fun a b => b.createdAt ≤ a.createdAt
        return sources.map (sourceView db)

structure BatchProgress where
  batchId : Uuid
  total : Nat
  completed : Nat
  failed : Nat
  inProgress : Nat
  pending : Nat
  deriving DecidableEq, Repr

def batchNotFound (batchId : Uuid) : Exn where
  errorClass := .collectionNotFoundError
  message := "Batch ".toList ++ batchId.str ++ " was not found".toList

def getBatchProgress (db : Database) (currentUserId batchId : Uuid) :
    Except Exn BatchProgress := do
  match db.ingestBatches.get? batchId with
  | none => throw (batchNotFound batchId)
  | some batch =>
      if batch.userId ≠ currentUserId then throw (collectionAccess "view this batch")
      else
        let counts := groupCount
          ((db.sources.rows.filter (·.batchId = some batchId)).map Source.ingestStatus)
        let count (status : IngestStatus) := (counts.lookup status).getD 0
        return {
          batchId
          total := (counts.map Prod.snd).sum
          completed := count .completed
          failed := count .failed
          inProgress := ([.parsing, .chunking, .embedding].map count).sum
          pending := count .pending }

structure StoredFile where
  path : Uuid × Str
  sizeBytes : Nat
  deriving DecidableEq, Repr

def findStored (files : Files) (sourceId : Uuid) (filename : Str) : Option StoredFile :=
  (files.lookup (sourceId, purePathName filename)).map fun content => {
    path := (sourceId, purePathName filename)
    sizeBytes := content.length }

def visibleSource (db : Database) (currentUserId sourceId : Uuid) : Except Exn Source := do
  match (db.sources.get? sourceId).filter (·.deletedAt = none) with
  | none => throw (sourceNotFound sourceId)
  | some source =>
      match db.kbCollections.get? source.collectionId with
      | none => throw (sourceNotFound sourceId)
      | some collection =>
          if collection.scope ≠ .public ∧ collection.userId ≠ some currentUserId then
            throw (collectionAccess "view this document")
          else return source

structure ChunkPreview where
  chunkId : Uuid
  ordinal : Nat
  text : Str
  tokenCount : Nat
  deriving DecidableEq, Repr

structure SourcePreview where
  sourceId : Uuid
  filename : Str
  ingestStatus : IngestStatus
  dirPath : Option Str
  createdAt : Timestamp
  errorMessage : Option Str
  storedFile : Option StoredFile
  documentId : Option Uuid
  title : Option Str
  rawText : Option Str
  rawTextTruncated : Bool
  chunkCount : Nat
  chunks : List ChunkPreview
  chunksTruncated : Bool
  deriving DecidableEq, Repr

def newestDocument (db : Database) (sourceId : Uuid) : Option Document :=
  (((db.documentsOf sourceId).filter (·.deletedAt = none)).insertionSort
    fun a b => b.createdAt ≤ a.createdAt).head?

def chunkPreviews (db : Database) (documentId : Uuid) (chunkLimit : Nat) : List ChunkPreview :=
  (((db.chunksOf documentId).insertionSort fun a b => a.ordinal ≤ b.ordinal).take chunkLimit).map
    fun chunk => {
      chunkId := chunk.id
      ordinal := chunk.ordinal
      text := chunk.text
      tokenCount := chunk.tokenCount }

def getSourcePreview (db : Database) (files : Files) (currentUserId sourceId : Uuid)
    (rawTextLimit chunkLimit : Nat) : Except Exn SourcePreview := do
  let source ← visibleSource db currentUserId sourceId
  let storedFile := findStored files source.id source.filename
  match newestDocument db source.id with
  | none =>
      return {
        sourceId := source.id
        filename := source.filename
        ingestStatus := source.ingestStatus
        dirPath := source.dirPath
        createdAt := source.createdAt
        errorMessage := source.errorMessage
        storedFile
        documentId := none
        title := none
        rawText := none
        rawTextTruncated := false
        chunkCount := 0
        chunks := []
        chunksTruncated := false }
  | some document =>
      let chunkCount := (db.chunksOf document.id).length
      let chunks := chunkPreviews db document.id chunkLimit
      return {
        sourceId := source.id
        filename := source.filename
        ingestStatus := source.ingestStatus
        dirPath := source.dirPath
        createdAt := source.createdAt
        errorMessage := source.errorMessage
        storedFile
        documentId := some document.id
        title := some document.title
        rawText := some (document.rawText.take rawTextLimit)
        rawTextTruncated := decide (rawTextLimit < document.rawText.length)
        chunkCount
        chunks
        chunksTruncated := decide (chunks.length < chunkCount) }

def sourceFileNotFound (sourceId : Uuid) : Exn where
  errorClass := .sourceFileNotFoundError
  message := "The original file for source ".toList ++ sourceId.str ++
    " is not stored; only its parsed text is available.".toList

def resolveSourceFile (db : Database) (files : Files) (currentUserId sourceId : Uuid) :
    Except Exn (Source × StoredFile) := do
  let source ← visibleSource db currentUserId sourceId
  match findStored files source.id source.filename with
  | none => throw (sourceFileNotFound sourceId)
  | some storedFile => return (source, storedFile)

end YCStudio
