import YCStudio.Evaluation.Comparison
import YCStudio.Evaluation.Corpus
import YCStudio.Evaluation.RunDeliveries

namespace YCStudio

-- UUID(text), for the texts that str gives of an id.
def parseUuid (text : Str) : Option Uuid :=
  match text.dropWhile (· ≠ '-') with
  | [] => none
  | _ :: draw =>
      let stream := text.takeWhile (· ≠ '-')
      if (stream ++ draw).all Char.isDigit ∧ stream ≠ [] ∧ draw ≠ [] then
        some ⟨Nat.ofDigitChars 10 stream 0, Nat.ofDigitChars 10 draw 0⟩
      else none

def lengthWithin (minLength maxLength : Nat) (text : Str) : Prop :=
  minLength ≤ text.length ∧ text.length ≤ maxLength

structure DatasetCreateRequest where
  name : Str
  version : Str
  constructionMethod : Str
  name_length : lengthWithin 1 200 name
  version_length : lengthWithin 1 50 version
  constructionMethod_length : lengthWithin 0 100 constructionMethod

structure ManualCaseInput where
  query : Str
  expectedChunkIds : List Uuid
  reviewNote : Option Str
  query_length : lengthWithin 1 2000 query
  expectedChunkIds_length : expectedChunkIds ≠ []
  reviewNote_length : ∀ note ∈ reviewNote, lengthWithin 0 2000 note

def ManualCaseInput.tuple (item : ManualCaseInput) : ManualCase :=
  (item.query, item.expectedChunkIds, item.reviewNote)

structure ManualCasesRequest where
  cases : List ManualCaseInput
  cases_length : 1 ≤ cases.length ∧ cases.length ≤ 100

structure ReviewCaseRequest where
  isActive : Bool
  reviewNote : Option Str
  reviewNote_length : ∀ note ∈ reviewNote, lengthWithin 0 2000 note

structure EvalRunCreateRequest where
  datasetId : Uuid
  configOverrides : JsonDict

structure EvalRunListQuery where
  limit : Nat
  limit_bounds : 1 ≤ limit ∧ limit ≤ 100

def EvalCaseSource.ofText (text : Str) : Option EvalCaseSource :=
  [synthetic, manual].find? (·.value = text)

structure EvalDatasetResponse where
  id : Uuid
  name : Str
  version : Str
  constructionMethod : Str
  caseCount : Nat
  createdAt : Timestamp
  updatedAt : Timestamp
  stats : DatasetStats
  syntheticRetentionRate : Rat
  deriving DecidableEq, Repr

structure EvalCaseResponse where
  id : Uuid
  datasetId : Uuid
  query : Str
  expectedChunkIds : List Uuid
  source : EvalCaseSource
  isActive : Bool
  reviewNote : Option Str
  createdAt : Timestamp
  deriving DecidableEq, Repr

structure EvalRunResponse (K : Type) where
  id : Uuid
  datasetId : Uuid
  status : EvalRunStatus
  configSnapshot : JsonDict
  startedAt : Option Timestamp
  finishedAt : Option Timestamp
  summaryMetrics : Option (RunSummary K)
  errorMessage : Option Str
  createdAt : Timestamp

inductive EvalReply (K : Type) where
  | dataset (response : EvalDatasetResponse)
  | datasets (responses : List EvalDatasetResponse)
  | «case» (response : EvalCaseResponse)
  | cases (responses : List EvalCaseResponse)
  | generation (accepted : SyntheticGenerationAccepted)
  | runAccepted (runId : Uuid) (status : EvalRunStatus)
  | run (response : EvalRunResponse K)
  | runs (responses : List (EvalRunResponse K))
  | comparison (comparison : RunComparison K)

def internalServerError : HttpException where
  statusCode := 500
  detail := "Internal Server Error".toList

def httpException (error : PyException) : HttpException :=
  if error.typeName = "LookupError".toList then { statusCode := 404, detail := error.message }
  else if error.typeName = "PermissionError".toList then
    { statusCode := 403, detail := error.message }
  else internalServerError

def runNotQueued : HttpException where
  statusCode := 503
  detail :=
    "Evaluation was saved but could not be queued; retry when the worker is available.".toList

inductive EvalRequest (K : Type) where
  | createEvalDataset (request : DatasetCreateRequest)
  | listEvalDatasets
  | addManualEvalCases (datasetId : Uuid) (request : ManualCasesRequest)
  | enqueueSyntheticGeneration (datasetId : Uuid) (request : SyntheticGenerationRequest)
      (fault : Option RedisFault)
  | listEvalCases (datasetId : Uuid)
  | reviewEvalCase (caseId : Uuid) (request : ReviewCaseRequest)
  | enqueueEvalRun (rt : EvalRuntime K) (request : EvalRunCreateRequest)
      (fault : Option RedisFault)
  | getEvalRuns (query : EvalRunListQuery)
  | getEvalRun (runId : Uuid)
  | compareEvalRuns (runId baseline : Uuid)

def caseResponse (row : ReviewedCase) : Except HttpException EvalCaseResponse :=
  match row.expectedChunkIds.mapM parseUuid, EvalCaseSource.ofText row.source with
  | some expectedChunkIds, some source =>
      .ok {
        id := row.id
        datasetId := row.datasetId
        query := row.query
        expectedChunkIds
        source
        isActive := row.isActive
        reviewNote := row.reviewNote
        createdAt := row.createdAt }
  | _, _ => .error internalServerError

namespace Corpus

variable {K : Type} (c : Corpus K)

def datasetResponse (dataset : EvalDataset) : EvalDatasetResponse :=
  let stats := (refreshDatasetCaseCount c.database dataset.id).1
  let details := c.details dataset.id
  { id := dataset.id
    name := details.name
    version := dataset.version
    constructionMethod := details.constructionMethod
    -- The count of the refreshed row, which the response then reads.
    caseCount := stats.active
    createdAt := details.createdAt
    updatedAt := details.updatedAt
    stats
    syntheticRetentionRate := stats.syntheticRetentionRate }

def runResponse (run : EvalRun K) : EvalRunResponse K where
  id := run.id
  datasetId := run.datasetId
  status := run.status
  configSnapshot := run.configSnapshot
  startedAt := run.startedAt
  finishedAt := run.finishedAt
  summaryMetrics := run.summaryMetrics
  errorMessage := run.errorMessage
  createdAt := c.runCreatedAt run.id

def createEvalDataset (stream : Nat) (now : Timestamp) (userId : Uuid)
    (request : DatasetCreateRequest) : Except HttpException (EvalReply K) × Corpus K :=
  match c.createDataset stream now userId request.name request.version
      request.constructionMethod with
  | .error _ => (.error internalServerError, c)
  | .ok (dataset, stored) => (.ok (.dataset (stored.datasetResponse dataset)), stored)

def listEvalDatasets (userId : Uuid) : EvalReply K :=
  .datasets <| ((c.database.datasets.rows.filter (·.userId = userId)).insertionSort fun a b =>
    (c.details b.id).createdAt ≤ (c.details a.id).createdAt).map c.datasetResponse

def addManualEvalCases (stream : Nat) (now : Timestamp) (userId datasetId : Uuid)
    (request : ManualCasesRequest) : Except HttpException (EvalReply K) × Corpus K :=
  match ownedDataset c.database.datasets datasetId userId with
  | .error e => (.error e, c)
  | .ok dataset =>
      match c.addManualCases stream now dataset.id (request.cases.map ManualCaseInput.tuple) with
      | .error e =>
          (.error (if e.typeName = "ValueError".toList then
            { statusCode := 422, detail := e.message } else internalServerError), c)
      | .ok (created, stored) => ((created.mapM caseResponse).map .cases, stored)

def enqueueSyntheticGeneration (userId datasetId : Uuid) (request : SyntheticGenerationRequest)
    (fault : Option RedisFault) : Except HttpException (EvalReply K) := do
  let _ ← ownedDataset c.database.datasets datasetId userId
  if fault = none then
    return .generation { datasetId, status := "queued".toList, count := request.count }
  else throw generationNotQueued

def listEvalCases (userId datasetId : Uuid) : Except HttpException (EvalReply K) := do
  let _ ← ownedDataset c.database.datasets datasetId userId
  let rows := (c.database.casesOf datasetId).insertionSort fun a b =>
    a.createdAt < b.createdAt ∨ (a.createdAt = b.createdAt ∧ a.id.le b.id = true)
  return .cases (← rows.mapM fun row => caseResponse (c.reviewed row))

def reviewEvalCase (now : Timestamp) (userId caseId : Uuid) (request : ReviewCaseRequest) :
    Except HttpException (EvalReply K) × Corpus K :=
  match c.database.cases.get? caseId with
  | none => (.error { statusCode := 404, detail := "Evaluation case was not found".toList }, c)
  | some case =>
      match ownedDataset c.database.datasets case.datasetId userId with
      | .error e => (.error e, c)
      | .ok _ =>
          match c.reviewCase now caseId request.isActive request.reviewNote with
          | .error _ => (.error internalServerError, c)
          | .ok (reviewed, stored) => ((caseResponse reviewed).map .case, stored)

def createdRunAt (now : Timestamp) (runId : Uuid) : Corpus K :=
  { c with runCreatedAt := fun id => if id = runId then now else c.runCreatedAt id }

variable [Field K] [LinearOrder K]

def enqueueEvalRun (rt : EvalRuntime K) (stream : Nat) (now : Timestamp) (userId : Uuid)
    (request : EvalRunCreateRequest) (fault : Option RedisFault) :
    Except HttpException (EvalReply K) × Corpus K :=
  match execEval (storeRun rt ⟨stream, 0⟩ userId request.datasetId request.configOverrides)
      c.database.connect with
  | (.error e, w) => (.error (httpException e), c.commit now w.database)
  | (.ok run, w) =>
      let stored := (c.commit now w.database).createdRunAt now run.id
      if fault = none then (.ok (.runAccepted run.id run.status), stored)
      else
        match execEval (failEvaluationRun rt run.id enqueueFailedMessage) w with
        | (.error _, failed) =>
            (.error internalServerError, { stored with database := failed.database })
        | (.ok _, failed) => (.error runNotQueued, { stored with database := failed.database })

omit [Field K] [LinearOrder K] in
def listRuns (userId : Uuid) (limit : Nat) : List (EvalRun K) :=
  ((c.database.runs.rows.filter (·.userId = userId)).insertionSort fun a b =>
    c.runCreatedAt b.id < c.runCreatedAt a.id ∨
      (c.runCreatedAt a.id = c.runCreatedAt b.id ∧ b.id.le a.id = true)).take limit

omit [Field K] [LinearOrder K] in
def getEvalRun (userId runId : Uuid) : Except HttpException (EvalReply K) :=
  match c.database.runs.get? runId with
  | none => .error { statusCode := 404, detail := "Evaluation run was not found".toList }
  | some run =>
      if run.userId ≠ userId then
        .error { statusCode := 403, detail := "Only the run owner may view this run".toList }
      else .ok (.run (c.runResponse run))

def compareEvalRuns (userId runId baseline : Uuid) : Except HttpException (EvalReply K) :=
  ((compareRuns c.database runId baseline userId).map .comparison).mapError httpException

def respond (stream : Nat) (now : Timestamp) (userId : Uuid) :
    EvalRequest K → Except HttpException (EvalReply K) × Corpus K
  | .createEvalDataset request => c.createEvalDataset stream now userId request
  | .listEvalDatasets => (.ok (c.listEvalDatasets userId), c)
  | .addManualEvalCases datasetId request =>
      c.addManualEvalCases stream now userId datasetId request
  | .enqueueSyntheticGeneration datasetId request fault =>
      (c.enqueueSyntheticGeneration userId datasetId request fault, c)
  | .listEvalCases datasetId => (c.listEvalCases userId datasetId, c)
  | .reviewEvalCase caseId request => c.reviewEvalCase now userId caseId request
  | .enqueueEvalRun rt request fault => c.enqueueEvalRun rt stream now userId request fault
  | .getEvalRuns query => (.ok (.runs ((c.listRuns userId query.limit).map c.runResponse)), c)
  | .getEvalRun runId => (c.getEvalRun userId runId, c)
  | .compareEvalRuns runId baseline => (c.compareEvalRuns userId runId baseline, c)

end Corpus

structure KnowledgeChange where
  apply : Database → Database
  users_subset : ∀ knowledge, knowledge.users ⊆ (apply knowledge).users

inductive EvalAction (K : Type) where
  | knowledge (change : KnowledgeChange)
  | request (userId : Uuid) (request : EvalRequest K)
  | generateEvalDataset (shuffler : Shuffler)
      (generate : Str → Except GenerationError GeneratedQuestion) (datasetId : Uuid)
      (count seed : Int)
  | evaluateRun (rt : EvalRuntime K) (runId : Uuid)

structure EvalEvent (K : Type) where
  now : Timestamp
  action : EvalAction K

-- The ids that an event gives to new rows are the draws of a stream of its own.
def EvalEvent.step {K : Type} [Field K] [LinearOrder K] (stream : Nat) (event : EvalEvent K)
    (c : Corpus K) : Option (Except HttpException (EvalReply K)) × Corpus K :=
  match event.action with
  | .knowledge change =>
      (none, { c with
        database := { c.database with knowledge := change.apply c.database.knowledge } })
  | .request userId request =>
      let served := c.respond stream event.now userId request
      (some served.1, served.2)
  | .generateEvalDataset shuffler generate datasetId count seed =>
      (none, c.generateEvalDataset shuffler generate stream event.now datasetId count seed)
  | .evaluateRun rt runId =>
      (none, c.commit event.now (execEval (evaluateRun rt runId) c.database.connect).2.database)

end YCStudio
