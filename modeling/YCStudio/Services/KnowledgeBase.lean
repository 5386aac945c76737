import YCStudio.Services.Ingest

namespace YCStudio

def collectionNotFound (collectionId : Uuid) : Exn where
  errorClass := .collectionNotFoundError
  message := "Collection ".toList ++ collectionId.str ++ " was not found".toList

def collectionAccess (action : String) : Exn where
  errorClass := .collectionAccessError
  message := "Only the owner may ".toList ++ action.toList

def collectionKindMismatch (kind stored : CollectionKind) : Exn where
  errorClass := .collectionKindMismatchError
  message := "Form kind ".toList ++ pyRepr kind.value ++ " does not match collection kind ".toList
    ++ pyRepr stored.value

def sourceNotFound (sourceId : Uuid) : Exn where
  errorClass := .sourceNotFoundError
  message := "Source ".toList ++ sourceId.str ++ " was not found".toList

def ownedPrivateCollection (currentUserId collectionId : Uuid) (kind : CollectionKind) :
    Program Collection := do
  match ← select (.collection collectionId) with
  | none => throw (collectionNotFound collectionId)
  | some collection =>
      if collection.scope ≠ .private ∨ collection.userId ≠ some currentUserId then
        throw (collectionAccess "upload to a private collection")
      else if collection.kind ≠ kind then throw (collectionKindMismatch kind collection.kind)
      else return collection

def ingestPrivateUpload (rt : Runtime) (currentUserId collectionId : Uuid) (kind : CollectionKind)
    (filename : Str) (fileBytes : Bytes) (metadata : List (Str × Str)) :
    Program IngestResult := do
  let _ ← ownedPrivateCollection currentUserId collectionId kind
  let result ← tryCatch
    (ingestDocument rt collectionId filename fileBytes none (some metadata) none)
    fun e => do
      commit
      throw e
  commit
  return result

structure PendingUpload where
  filename : Str
  fileBytes : Bytes
  dirPath : Option Str
  deriving DecidableEq, Repr

def slashSeparated (dirPath : Str) : Str :=
  Trim.strip (· == '/') (dirPath.map fun c => if c = '\\' then '/' else c)

def normaliseDirPath (dirPath : Option Str) : Except Exn (Option Str) :=
  match dirPath.filter (fun path => path.strip ≠ []) with
  | none => .ok none
  | some path =>
      let normalised := slashSeparated path
      if normalised.head? = some '/' ∨ ['.', '.'] ∈ purePathParts normalised ∨
          normalised = [] ∨ normalised = ['.'] then
        .error (Exn.valueError "dir_path must be a non-empty relative path without '..'.".toList)
      else if 200 < normalised.length then
        .error (Exn.valueError "dir_path must be at most 200 characters.".toList)
      else .ok (some normalised)

def flushPending (fault : Option Exn) (pending : List Write) : Program Unit :=
  if pending = [] then pure () else flush fault pending

def admitUpload (rt : Runtime) (batch : IngestBatch) (upload : PendingUpload)
    (contentHash : Str) (dirPath : Option Str) :
    Program (Source × Write) := do
  match ← findExistingSource batch.collectionId contentHash with
  | none =>
      let id ← newId
      let createdAt ← now
      let source : Source := {
        id
        collectionId := batch.collectionId
        batchId := some batch.id
        filename := upload.filename
        contentHash
        dirPath
        ingestStatus := .pending
        errorMessage := none
        createdAt
        deletedAt := none }
      return (source, .insertSource source)
  | some existing =>
      if isReingestable existing then do
        let source ← resetSourceForReingest (rt.flushFault upload.filename .reset) existing
          upload.filename dirPath
        return (source.withBatch batch.id, .updateSource source (source.withBatch batch.id))
      else
        throw (Exn.valueError
          "This collection already contains one of the uploaded files.".toList)

-- pending holds what session.add and attribute assignment left for the next autoflush.
def admitUploads (rt : Runtime) (batch : IngestBatch) :
    Nat → List Str → List Write → List PendingUpload → Program (List Source)
  | index, _, pending, [] => do
      flushPending (rt.flushFault [] (.upload index)) pending
      return []
  | index, seenHashes, pending, upload :: uploads => do
      let contentHash := computeContentHash rt upload.fileBytes
      if contentHash ∈ seenHashes then
        throw (Exn.valueError "A batch cannot include the same file content twice.".toList)
      let dirPath ← attempt (normaliseDirPath upload.dirPath)
      flushPending (rt.flushFault upload.filename (.upload index)) pending
      let (source, write) ← admitUpload rt batch upload contentHash dirPath
      let sources ← admitUploads rt batch (index + 1) (contentHash :: seenHashes) [write] uploads
      return source :: sources

def createPendingBatch (rt : Runtime) (currentUserId collectionId : Uuid) (kind : CollectionKind)
    (metadata : List (Str × Str)) (uploads : List PendingUpload) :
    Program (IngestBatch × List Source) := do
  let collection ← ownedPrivateCollection currentUserId collectionId kind
  let id ← newId
  let batch : IngestBatch := {
    id
    collectionId := collection.id
    userId := currentUserId
    uploadMetadata := metadata }
  flush (rt.flushFault [] .batch) [.insertBatch batch]
  let sources ← admitUploads rt batch 0 [] [] uploads
  return (batch, sources)

def saveOriginals (rt : Runtime) : Nat → List (Source × PendingUpload) → Program Unit
  | _, [] => pure ()
  | index, (source, upload) :: rest => do
      saveFile (rt.saveFault index) source.id (purePathName source.filename) upload.fileBytes
      saveOriginals rt (index + 1) rest

def uploadBatch (rt : Runtime) (currentUserId collectionId : Uuid) (kind : CollectionKind)
    (metadata : List (Str × Str)) (uploads : List PendingUpload) :
    Program (IngestBatch × List Source) := do
  let (batch, sources) ← createPendingBatch rt currentUserId collectionId kind metadata uploads
  saveOriginals rt 0 (sources.zip uploads)
  -- The commit flushes first, and the COMMIT itself can be refused.
  flush (rt.flushFault [] .commit) []
  commit
  return (batch, sources)

def ErrorClass.isOSError : ErrorClass → Bool
  | .fileNotFoundError | .osError => true
  | _ => false

def storeOriginalBytes (rt : Runtime) (sourceId : Uuid) (filename : Str) (fileBytes : Bytes) :
    Program Unit :=
  tryCatch (saveFile (rt.saveFault 0) sourceId (purePathName filename) fileBytes) fun e =>
    if e.errorClass.isOSError then pure () else throw e

def uploadFile (rt : Runtime) (currentUserId collectionId : Uuid) (kind : CollectionKind)
    (filename : Str) (fileBytes : Bytes) (metadata : List (Str × Str)) : Program IngestResult := do
  let result ← ingestPrivateUpload rt currentUserId collectionId kind filename fileBytes metadata
  if !result.skipped then storeOriginalBytes rt result.sourceId filename fileBytes
  return result

def Constraint.isForeignKey : Constraint → Bool
  | .kbCollectionsUserIdFkey | .ingestBatchesCollectionIdFkey | .ingestBatchesUserIdFkey
  | .sourcesCollectionIdFkey | .sourcesBatchIdFkey | .documentsSourceIdFkey
  | .chunksCollectionIdFkey | .chunksDocumentIdFkey => true
  | _ => false

def Constraint.sqlstate (constraint : Constraint) : Str :=
  if constraint.isForeignKey then "23503".toList else "23505".toList

def classifyCollectionIntegrityError (constraint : Constraint) (currentUserId : Uuid)
    (kind : CollectionKind) (name : Str) : Option Exn :=
  if constraint.sqlstate = "23503".toList then
    some {
      errorClass := .unknownPrincipalError
      message := "User ".toList ++ currentUserId.str ++
        " does not exist and cannot own a collection".toList }
  else if constraint.sqlstate = "23505".toList then
    some {
      errorClass := .collectionAlreadyExistsError
      message := "A private ".toList ++ kind.value ++ " collection named ".toList ++ pyRepr name
        ++ " already exists".toList }
  else none

def createPrivateCollection (rt : Runtime) (currentUserId : Uuid) (kind : CollectionKind)
    (name : Str) : Program Collection := do
  let id ← newId
  let collection : Collection := {
    id
    userId := some currentUserId
    kind
    scope := .private
    name }
  tryCatch (flush (rt.flushFault [] .collection) [.insertCollection collection]) fun e =>
    match e.errorClass with
    | .integrityError constraint => do
        rollback
        throw ((classifyCollectionIntegrityError constraint currentUserId kind name).getD e)
    | _ => throw e
  return collection

def createKbCollection (rt : Runtime) (currentUserId : Uuid) (kind : CollectionKind)
    (name : Str) : Program Collection := do
  let collection ← createPrivateCollection rt currentUserId kind name
  commit
  return collection

def deleteSource (rt : Runtime) (currentUserId sourceId : Uuid) : Program Unit := do
  match ← select (.source sourceId) with
  | none => throw (sourceNotFound sourceId)
  | some source =>
      match (← select (.collection source.collectionId)).filter
          (fun collection => collection.scope ≠ .public ∧ collection.userId = some currentUserId)
        with
      | none => throw (collectionAccess "delete from a private collection")
      | some _ =>
          let documents ← select (.documents sourceId)
          let documentIds := documents.map Document.id
          if documentIds ≠ [] then execute (.deleteChunks documentIds)
          let now ← now
          flush (rt.flushFault source.filename .removal)
            (.updateSource source (source.softDelete now) ::
              documentIds.map (.softDeleteDocument · now))
          commit

def deleteCollection (currentUserId collectionId : Uuid) : Program Unit := do
  match ← select (.collection collectionId) with
  | none => throw (collectionNotFound collectionId)
  | some collection =>
      if collection.scope ≠ .private ∨ collection.userId ≠ some currentUserId then
        throw (collectionAccess "delete a private collection")
      else
        execute (.deleteCollection collectionId)
        commit

end YCStudio
