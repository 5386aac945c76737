import Mathlib.Data.List.Sort
import YCStudio.Store.Schema

namespace YCStudio

inductive Write where
  | insertCollection (row : Collection)
  | insertBatch (row : IngestBatch)
  | insertSource (row : Source)
  | insertDocument (row : Document)
  | insertChunk (row : Chunk)
  | updateSource (loaded assigned : Source)
  | softDeleteDocument (id : Uuid) (deletedAt : Timestamp)
  | recordFailure (sourceId : Uuid) (errorMessage : Str)
  | deleteDocuments (sourceId : Uuid)
  | deleteDocumentRows (documentIds : List Uuid)
  | deleteChunks (documentIds : List Uuid)
  | deleteCollection (id : Uuid)
  deriving DecidableEq, Repr

-- An ORM update sends only the columns whose assigned value differs from the loaded one.
def Source.revise (loaded assigned row : Source) : Source where
  id := row.id
  collectionId := row.collectionId
  batchId := if loaded.batchId = assigned.batchId then row.batchId else assigned.batchId
  filename := if loaded.filename = assigned.filename then row.filename else assigned.filename
  contentHash :=
    if loaded.contentHash = assigned.contentHash then row.contentHash else assigned.contentHash
  dirPath := if loaded.dirPath = assigned.dirPath then row.dirPath else assigned.dirPath
  ingestStatus :=
    if loaded.ingestStatus = assigned.ingestStatus then row.ingestStatus
    else assigned.ingestStatus
  errorMessage :=
    if loaded.errorMessage = assigned.errorMessage then row.errorMessage
    else assigned.errorMessage
  createdAt := row.createdAt
  deletedAt := if loaded.deletedAt = assigned.deletedAt then row.deletedAt else assigned.deletedAt

theorem Source.revise_self {loaded assigned : Source} (hid : assigned.id = loaded.id)
    (hcollection : assigned.collectionId = loaded.collectionId)
    (hcreated : assigned.createdAt = loaded.createdAt) :
    loaded.revise assigned loaded = assigned := by
  have pick : ∀ {α : Type} [DecidableEq α] (a b : α), (if a = b then a else b) = b := by
    intro α _ a b
    split
    · assumption
    · rfl
  cases assigned
  simp only at hid hcollection hcreated
  simp only [revise, pick, hid, hcollection, hcreated]

def Source.fail (source : Source) (errorMessage : Str) : Source :=
  { source with ingestStatus := .failed, errorMessage := some errorMessage }

def Source.withStatus (source : Source) (status : IngestStatus) : Source :=
  { source with ingestStatus := status }

def Source.withBatch (source : Source) (batchId : Uuid) : Source :=
  { source with batchId := some batchId }

def Source.softDelete (source : Source) (deletedAt : Timestamp) : Source :=
  { source with deletedAt := some deletedAt }

def Source.leaveBatch (batches : List Uuid) (source : Source) : Source :=
  { source with batchId := source.batchId.filter (· ∉ batches) }

namespace Database

variable (db : Database)

def documentsOf (sourceId : Uuid) : List Document :=
  db.documents.rows.filter (·.sourceId = sourceId)

def chunksOf (documentId : Uuid) : List Chunk :=
  db.chunks.rows.filter (·.documentId = documentId)

def sourcesOf (collectionId : Uuid) : List Source :=
  db.sources.rows.filter (·.collectionId = collectionId)

def batchesOf (collectionId : Uuid) : List IngestBatch :=
  db.ingestBatches.rows.filter (·.collectionId = collectionId)

def dropDocuments (sourceIds : List Uuid) : Database :=
  let doomed := (db.documents.rows.filter (·.sourceId ∈ sourceIds)).map Document.id
  { db with
    documents := db.documents.erase (·.sourceId ∈ sourceIds)
    chunks := db.chunks.erase (·.documentId ∈ doomed) }

def dropDocumentRows (documentIds : List Uuid) : Database :=
  { db with
    documents := db.documents.erase (·.id ∈ documentIds)
    chunks := db.chunks.erase (·.documentId ∈ documentIds) }

-- ON DELETE CASCADE reaches sources, batches and chunks; sources.batch_id is ON DELETE SET NULL.
def dropCollection (id : Uuid) : Database :=
  let kept := db.dropDocuments ((db.sourcesOf id).map Source.id)
  { kept with
    kbCollections := db.kbCollections.erase (·.id = id)
    ingestBatches := db.ingestBatches.erase (·.collectionId = id)
    sources := (db.sources.erase (·.collectionId = id)).modify
      (Source.leaveBatch ((db.batchesOf id).map IngestBatch.id)) (fun _ => rfl)
    chunks := kept.chunks.erase (·.collectionId = id) }

def modifySource (id : Uuid) (f : Source → Source) (hf : ∀ row, (f row).id = row.id) : Database :=
  { db with
    sources := db.sources.modify (fun row => if row.id = id then f row else row) (by
      intro row
      split
      · exact hf row
      · rfl) }

def apply : Write → Database
  | .insertCollection row => { db with kbCollections := db.kbCollections.insert row }
  | .insertBatch row => { db with ingestBatches := db.ingestBatches.insert row }
  | .insertSource row => { db with sources := db.sources.insert row }
  | .insertDocument row => { db with documents := db.documents.insert row }
  | .insertChunk row => { db with chunks := db.chunks.insert row }
  | .updateSource loaded assigned =>
      db.modifySource loaded.id (loaded.revise assigned) (fun _ => rfl)
  | .softDeleteDocument id deletedAt =>
      { db with
        documents := db.documents.modify
          (fun row => if row.id = id then { row with deletedAt := some deletedAt } else row) (by
            intro row
            split <;> rfl) }
  | .recordFailure sourceId errorMessage =>
      db.modifySource sourceId (·.fail errorMessage) (fun _ => rfl)
  | .deleteDocuments sourceId => db.dropDocuments [sourceId]
  | .deleteDocumentRows documentIds => db.dropDocumentRows documentIds
  | .deleteChunks documentIds => { db with chunks := db.chunks.erase (·.documentId ∈ documentIds) }
  | .deleteCollection id => db.dropCollection id

def applyAll (writes : List Write) : Database := writes.foldl apply db

-- A DELETE removes the rows its statement finds, not those that match when it is committed.
def resolve : Write → Write
  | .deleteDocuments sourceId => .deleteDocumentRows ((db.documentsOf sourceId).map Document.id)
  | write => write

inductive Refusal where
  | violates (constraint : Constraint)
  | staleRow
  deriving DecidableEq, Repr

def sameOwnerKindName (row : Collection) : Prop :=
  ∃ other ∈ db.kbCollections.rows,
    other.userId = row.userId ∧ other.kind = row.kind ∧ other.name = row.name

def sameContent (row : Source) : Prop :=
  ∃ other ∈ db.sources.rows,
    other.id ≠ row.id ∧ other.collectionId = row.collectionId ∧
      other.contentHash = row.contentHash

def sameOrdinal (row : Chunk) : Prop :=
  ∃ other ∈ db.chunks.rows, other.documentId = row.documentId ∧ other.ordinal = row.ordinal

instance (row : Collection) : Decidable (db.sameOwnerKindName row) :=
  inferInstanceAs (Decidable (∃ other ∈ db.kbCollections.rows, _))

instance (row : Source) : Decidable (db.sameContent row) :=
  inferInstanceAs (Decidable (∃ other ∈ db.sources.rows, _))

instance (row : Chunk) : Decidable (db.sameOrdinal row) :=
  inferInstanceAs (Decidable (∃ other ∈ db.chunks.rows, _))

def batchMissing (batchId : Option Uuid) : Prop :=
  ∃ id ∈ batchId.toList, db.ingestBatches.get? id = none

instance (batchId : Option Uuid) : Decidable (db.batchMissing batchId) :=
  inferInstanceAs (Decidable (∃ id ∈ batchId.toList, _))

def refusal : Write → Option Refusal
  | .insertCollection row =>
      if (db.kbCollections.get? row.id).isSome then some (.violates .primaryKey)
      else if db.sameOwnerKindName row then some (.violates .uqKbCollectionsOwnerKindName)
      else if ∃ user ∈ row.userId.toList, user ∉ db.users then
        some (.violates .kbCollectionsUserIdFkey)
      else none
  | .insertBatch row =>
      if (db.ingestBatches.get? row.id).isSome then some (.violates .primaryKey)
      else if db.kbCollections.get? row.collectionId = none then
        some (.violates .ingestBatchesCollectionIdFkey)
      else if row.userId ∉ db.users then some (.violates .ingestBatchesUserIdFkey)
      else none
  | .insertSource row =>
      if (db.sources.get? row.id).isSome then some (.violates .primaryKey)
      else if db.sameContent row then some (.violates .uqSourcesCollectionContentHash)
      else if db.kbCollections.get? row.collectionId = none then
        some (.violates .sourcesCollectionIdFkey)
      else if db.batchMissing row.batchId then some (.violates .sourcesBatchIdFkey)
      else none
  | .insertDocument row =>
      if (db.documents.get? row.id).isSome then some (.violates .primaryKey)
      else if db.sources.get? row.sourceId = none then some (.violates .documentsSourceIdFkey)
      else none
  | .insertChunk row =>
      if (db.chunks.get? row.id).isSome then some (.violates .primaryKey)
      else if db.sameOrdinal row then some (.violates .uqChunksDocumentOrdinal)
      else if db.kbCollections.get? row.collectionId = none then
        some (.violates .chunksCollectionIdFkey)
      else if db.documents.get? row.documentId = none then
        some (.violates .chunksDocumentIdFkey)
      else none
  | .updateSource loaded assigned =>
      if db.sources.get? loaded.id = none then some .staleRow
      else if loaded.contentHash ≠ assigned.contentHash ∧ db.sameContent assigned then
        some (.violates .uqSourcesCollectionContentHash)
      else if loaded.batchId ≠ assigned.batchId ∧ db.batchMissing assigned.batchId then
        some (.violates .sourcesBatchIdFkey)
      else none
  | .softDeleteDocument id _ => if db.documents.get? id = none then some .staleRow else none
  | _ => none

def firstRefusal (db : Database) : List Write → Option Refusal
  | [] => none
  | write :: writes =>
      match db.refusal write with
      | some refusal => some refusal
      | none => firstRefusal (db.apply write) writes

@[simp] theorem applyAll_nil : db.applyAll [] = db := rfl

@[simp] theorem applyAll_cons (write : Write) (writes : List Write) :
    db.applyAll (write :: writes) = (db.apply write).applyAll writes := rfl

theorem applyAll_append (writes writes' : List Write) :
    db.applyAll (writes ++ writes') = (db.applyAll writes).applyAll writes' := by
  simp only [applyAll, List.foldl_append]

@[simp] theorem firstRefusal_nil : db.firstRefusal [] = none := rfl

theorem firstRefusal_cons {write : Write} {writes : List Write} (h : db.refusal write = none) :
    db.firstRefusal (write :: writes) = (db.apply write).firstRefusal writes := by
  simp only [firstRefusal, h]

@[simp] theorem firstRefusal_singleton (write : Write) :
    db.firstRefusal [write] = db.refusal write := by
  rw [firstRefusal]
  cases db.refusal write <;> rfl

end Database

end YCStudio
