import YCStudio.Api.Uploads
import YCStudio.Consistency.Requests
import YCStudio.Services.Reads

namespace YCStudio

structure UploadForm where
  collectionId : Uuid
  kind : CollectionKind
  platform : Str
  contentType : Str
  platform_length : lengthWithin 1 100 platform
  contentType_length : lengthWithin 1 100 contentType

def UploadForm.metadata (form : UploadForm) : List (Str × Str) :=
  [("platform".toList, form.platform), ("content_type".toList, form.contentType)]

structure CreateCollectionRequest where
  kind : CollectionKind
  name : Str
  name_length : lengthWithin 1 200 name

structure PreviewQuery where
  chunkLimit : Nat
  chunkLimit_bounds : 1 ≤ chunkLimit ∧ chunkLimit ≤ 1000

def previewRawTextLimit : Nat := 200000

structure BatchUploadResponse where
  batchId : Uuid
  sourceIds : List Uuid
  total : Nat
  deriving DecidableEq, Repr

structure SearchResult where
  chunkId : Uuid
  text : Str
  score : Rat
  documentId : Uuid
  title : Str
  sourceId : Uuid
  filename : Str
  deriving DecidableEq, Repr

structure CollectionResponse where
  id : Uuid
  kind : CollectionKind
  scope : CollectionScope
  name : Str
  userId : Option Uuid
  deriving DecidableEq, Repr

structure SourcePreviewResponse where
  sourceId : Uuid
  filename : Str
  suffix : Str
  mediaType : Str
  previewMode : SourcePreviewMode
  ingestStatus : IngestStatus
  dirPath : Option Str
  createdAt : Timestamp
  errorMessage : Option Str
  originalAvailable : Bool
  sizeBytes : Option Nat
  documentId : Option Uuid
  title : Option Str
  rawText : Option Str
  rawTextTruncated : Bool
  chunkCount : Nat
  chunks : List ChunkPreview
  chunksTruncated : Bool
  deriving DecidableEq, Repr

inductive ContentDisposition where
  | attachment
  | inline
  deriving DecidableEq, Repr

structure FileResponse where
  path : Uuid × Str
  content : Bytes
  mediaType : Str
  filename : Str
  disposition : ContentDisposition
  headers : List (Str × Str)
  deriving DecidableEq, Repr

-- The except clauses of a route, as the status that each class of exceptions is answered with.
abbrev ExceptClauses := List (ErrorClass × Nat)

def ExceptClauses.answer (clauses : ExceptClauses) (e : Exn) : HttpException :=
  match clauses.lookup e.errorClass with
  | some statusCode => { statusCode, detail := e.message }
  | none => internalServerError

def uploadClauses : ExceptClauses :=
  [(.collectionNotFoundError, 404), (.collectionAccessError, 403),
    (.collectionKindMismatchError, 422)]

def batchClauses : ExceptClauses :=
  [(.collectionNotFoundError, 404), (.collectionAccessError, 403),
    (.collectionKindMismatchError, 422), (.valueError, 422)]

def collectionClauses : ExceptClauses :=
  [(.collectionNotFoundError, 404), (.collectionAccessError, 403)]

def searchClauses : ExceptClauses := [(.unsupportedSearchKindError, 422)]

def createCollectionClauses : ExceptClauses :=
  [(.collectionAlreadyExistsError, 409), (.unknownPrincipalError, 401)]

def sourceClauses : ExceptClauses :=
  [(.sourceNotFoundError, 404), (.collectionAccessError, 403)]

def fileClauses : ExceptClauses :=
  [(.sourceFileNotFoundError, 404), (.sourceNotFoundError, 404), (.collectionAccessError, 403)]

section Reads

def searchResult (retrieved : RetrievedChunk) : SearchResult where
  chunkId := retrieved.chunk.id
  text := retrieved.chunk.text
  score := retrieved.score
  documentId := retrieved.document.id
  title := retrieved.document.title
  sourceId := retrieved.source.id
  filename := retrieved.source.filename

def searchKnowledgeBase (retriever : Retriever) (scan : ScanOrder) (db : Database)
    (currentUserId : Uuid) (request : SearchRequest) : Except HttpException (List SearchResult) :=
  ((searchChunks retriever scan db currentUserId request.toSearchFields).mapError
    searchClauses.answer).map fun retrieved => retrieved.map searchResult

def batchProgress (db : Database) (currentUserId batchId : Uuid) :
    Except HttpException BatchProgress :=
  (getBatchProgress db currentUserId batchId).mapError collectionClauses.answer

def collectionResponse (collection : Collection) : CollectionResponse where
  id := collection.id
  kind := collection.kind
  scope := collection.scope
  name := collection.name
  userId := collection.userId

def getKbCollection (db : Database) (currentUserId collectionId : Uuid) :
    Except HttpException CollectionResponse :=
  match db.kbCollections.get? collectionId with
  | none => .error {
      statusCode := 404
      detail := "Collection ".toList ++ collectionId.str ++ " was not found".toList }
  | some collection =>
      if collection.scope ≠ .public ∧ collection.userId ≠ some currentUserId then
        .error { statusCode := 403, detail := "Only the owner may view this collection".toList }
      else .ok (collectionResponse collection)

def listKbSources (db : Database) (currentUserId collectionId : Uuid) :
    Except HttpException (List SourceView) :=
  (listSources db currentUserId collectionId).mapError collectionClauses.answer

def previewResponse (libs : ParserLibraries) (preview : SourcePreview) : SourcePreviewResponse :=
  let suffix := uploadSuffix libs (purePathName preview.filename)
  let served := servedFileFor suffix
  { sourceId := preview.sourceId
    filename := preview.filename
    suffix
    mediaType := served.1
    previewMode := served.2
    ingestStatus := preview.ingestStatus
    dirPath := preview.dirPath
    createdAt := preview.createdAt
    errorMessage := preview.errorMessage
    originalAvailable := preview.storedFile.isSome
    sizeBytes := preview.storedFile.map StoredFile.sizeBytes
    documentId := preview.documentId
    title := preview.title
    rawText := preview.rawText
    rawTextTruncated := preview.rawTextTruncated
    chunkCount := preview.chunkCount
    chunks := preview.chunks
    chunksTruncated := preview.chunksTruncated }

def previewKbSource (libs : ParserLibraries) (db : Database) (files : Files)
    (currentUserId sourceId : Uuid) (query : PreviewQuery) :
    Except HttpException SourcePreviewResponse :=
  ((getSourcePreview db files currentUserId sourceId previewRawTextLimit
    query.chunkLimit).mapError sourceClauses.answer).map (previewResponse libs)

def fileResponse (libs : ParserLibraries) (files : Files) (download : Bool) (source : Source)
    (storedFile : StoredFile) : FileResponse :=
  let downloadName := purePathName source.filename
  let served := servedFileFor (uploadSuffix libs (purePathName downloadName))
  { path := storedFile.path
    content := (files.lookup storedFile.path).getD []
    mediaType := served.1
    filename := downloadName
    disposition := if download ∨ served.2 = .download then .attachment else .inline
    headers := [("X-Content-Type-Options".toList, "nosniff".toList),
      ("Cache-Control".toList, "private, max-age=0".toList)] }

def downloadKbSourceFile (libs : ParserLibraries) (db : Database) (files : Files)
    (currentUserId sourceId : Uuid) (download : Bool) : Except HttpException FileResponse :=
  ((resolveSourceFile db files currentUserId sourceId).mapError fileClauses.answer).map
    fun resolved => fileResponse libs files download resolved.1 resolved.2

end Reads

section Writes

variable (libs : ParserLibraries) (limit : Nat)

def answerRun {α β : Type} (clauses : ExceptClauses) (reply : α → β)
    (run : Except Exn α × Server) : Except HttpException β × Server :=
  ((run.1.mapError clauses.answer).map reply, run.2)

def uploadKbFile (rt : Runtime) (currentUserId : Uuid) (form : UploadForm) (file : UploadFile)
    (server : Server) : Except HttpException IngestResult × Server :=
  match acceptUpload libs limit file with
  | .error e => (.error e, server)
  | .ok (filename, fileBytes) =>
      answerRun uploadClauses id (transact
        (uploadFile rt currentUserId form.collectionId form.kind filename fileBytes form.metadata)
        server)

def fileRequired : HttpException := unprocessable "At least one file is required.".toList

def dirPathsMismatch : HttpException :=
  unprocessable "dir_paths must have exactly one entry for every uploaded file.".toList

def notQueued : HttpException where
  statusCode := 503
  detail :=
    "Files were saved but could not be queued; the worker will recover pending files.".toList

def acceptUploads : List UploadFile → List (Option Str) → Except HttpException (List PendingUpload)
  | file :: files, dirPath :: dirPaths => do
      let (filename, fileBytes) ← acceptUpload libs limit file
      let uploads ← acceptUploads files dirPaths
      return { filename, fileBytes, dirPath } :: uploads
  | _, _ => .ok []

def dirPathsOf (files : List UploadFile) (dirPaths : Option (List Str)) : List (Option Str) :=
  match dirPaths with
  | none => files.map fun _ => none
  | some paths => paths.map some

def acceptBatch (files : List UploadFile) (dirPaths : Option (List Str)) :
    Except HttpException (List PendingUpload) :=
  if files = [] then .error fileRequired
  else if ∃ paths ∈ dirPaths, paths.length ≠ files.length then .error dirPathsMismatch
  else acceptUploads libs limit files (dirPathsOf files dirPaths)

def batchUploadResponse (accepted : IngestBatch × List Source) : BatchUploadResponse where
  batchId := accepted.1.id
  sourceIds := accepted.2.map Source.id
  total := accepted.2.length

-- queued tells whether Redis takes the jobs.
def uploadKbBatch (rt : Runtime) (queued : Bool) (currentUserId : Uuid) (form : UploadForm)
    (files : List UploadFile) (dirPaths : Option (List Str)) (server : Server) :
    Except HttpException BatchUploadResponse × Server :=
  match acceptBatch libs limit files dirPaths with
  | .error e => (.error e, server)
  | .ok uploads =>
      let run := answerRun batchClauses batchUploadResponse (transact
        (uploadBatch rt currentUserId form.collectionId form.kind form.metadata uploads) server)
      (if queued then run.1 else run.1.bind fun _ => .error notQueued, run.2)

def answerCreateKbCollection (rt : Runtime) (currentUserId : Uuid)
    (payload : CreateCollectionRequest) (server : Server) :
    Except HttpException CollectionResponse × Server :=
  answerRun createCollectionClauses collectionResponse
    (transact (createKbCollection rt currentUserId payload.kind payload.name) server)

def deleteKbSource (rt : Runtime) (currentUserId sourceId : Uuid) (server : Server) :
    Except HttpException Unit × Server :=
  answerRun sourceClauses id (transact (deleteSource rt currentUserId sourceId) server)

def deleteKbCollection (currentUserId collectionId : Uuid) (server : Server) :
    Except HttpException Unit × Server :=
  answerRun collectionClauses id (transact (deleteCollection currentUserId collectionId) server)

end Writes

inductive KbEvent where
  | uploadFile (rt : Runtime) (currentUserId : Uuid) (form : UploadForm) (file : UploadFile)
  | uploadBatch (rt : Runtime) (queued : Bool) (currentUserId : Uuid) (form : UploadForm)
      (files : List UploadFile) (dirPaths : Option (List Str))
  | createCollection (rt : Runtime) (currentUserId : Uuid) (payload : CreateCollectionRequest)
  | deleteSource (rt : Runtime) (currentUserId sourceId : Uuid)
  | deleteCollection (currentUserId collectionId : Uuid)
  | ingestSource (rt : Runtime) (sourceId : Uuid)
  | recoverPendingSources
  | seedPublicLibraries (rt : Runtime) (tree : SeedTree)

namespace KbEvent

variable (libs : ParserLibraries) (limit : Nat)

def step (event : KbEvent) (server : Server) : Server :=
  match event with
  | uploadFile rt user form file => (uploadKbFile libs limit rt user form file server).2
  | uploadBatch rt queued user form files dirPaths =>
      (uploadKbBatch libs limit rt queued user form files dirPaths server).2
  | createCollection rt user payload => (answerCreateKbCollection rt user payload server).2
  | deleteSource rt user sourceId => (deleteKbSource rt user sourceId server).2
  | deleteCollection user collectionId => (deleteKbCollection user collectionId server).2
  | ingestSource rt sourceId => (transact (YCStudio.ingestSource rt sourceId) server).2
  | recoverPendingSources => (transact YCStudio.recoverPendingSources server).2
  | seedPublicLibraries rt tree => (transact (runSeedCommand rt tree) server).2

def lower (event : KbEvent) : Option Request :=
  match event with
  | uploadFile rt user form file =>
      match acceptUpload libs limit file with
      | .ok (filename, fileBytes) =>
          some (.uploadFile rt user form.collectionId form.kind filename fileBytes form.metadata)
      | .error _ => none
  | uploadBatch rt _ user form files dirPaths =>
      match acceptBatch libs limit files dirPaths with
      | .ok uploads =>
          some (.operation
            (.createPendingBatch rt user form.collectionId form.kind form.metadata uploads))
      | .error _ => none
  | createCollection rt user payload =>
      some (.operation (.createPrivateCollection rt user payload.kind payload.name))
  | deleteSource rt user sourceId => some (.operation (.deleteSource rt user sourceId))
  | deleteCollection user collectionId => some (.operation (.deleteCollection user collectionId))
  | ingestSource rt sourceId => some (.operation (.ingestSource rt sourceId))
  | recoverPendingSources => some (.operation .recoverPendingSources)
  | seedPublicLibraries rt tree => some (.operation (.seedPublicLibraries rt tree))

abbrev performAll (events : List KbEvent) (server : Server) : Server :=
  History.play (step libs limit) events server

variable {libs limit}

theorem step_eq (event : KbEvent) (server : Server) :
    event.step libs limit server = ((event.lower libs limit).elim id Request.perform) server := by
  cases event with
  | uploadFile rt user form file =>
    rw [step, lower, uploadKbFile]
    cases acceptUpload libs limit file <;> rfl
  | uploadBatch rt queued user form files dirPaths =>
    rw [step, lower, uploadKbBatch]
    cases acceptBatch libs limit files dirPaths <;> rfl
  | _ => rfl

theorem performAll_eq (events : List KbEvent) (server : Server) :
    performAll libs limit events server =
      Request.performAll (events.filterMap (lower libs limit)) server := by
  induction events generalizing server with
  | nil => rfl
  | cons event events ih =>
    rw [performAll, History.play_cons, step_eq, ← performAll, ih, List.filterMap_cons]
    cases event.lower libs limit <;> rfl

def briefEvents : List KbEvent :=
  [createCollection Runtime.reliable sampleUser ⟨.case, "briefs".toList, ⟨by decide, by decide⟩⟩,
    uploadFile Runtime.reliable sampleUser ⟨⟨0, 0⟩, .case, "xhs".toList, "post".toList,
      ⟨by decide, by decide⟩, ⟨by decide, by decide⟩⟩
      ⟨some "drafts/../Brief.MD".toList, some "text/plain".toList, [[98, 32], [99]]⟩]

end KbEvent

end YCStudio
