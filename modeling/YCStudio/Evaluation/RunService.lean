import YCStudio.Evaluation.RunSession

namespace YCStudio

def ErrorClass.typeName : ErrorClass → Str
  | collectionNotFoundError => "CollectionNotFoundError".toList
  | collectionAccessError => "CollectionAccessError".toList
  | collectionKindMismatchError => "CollectionKindMismatchError".toList
  | collectionAlreadyExistsError => "CollectionAlreadyExistsError".toList
  | unknownPrincipalError => "UnknownPrincipalError".toList
  | sourceNotFoundError => "SourceNotFoundError".toList
  | sourceFileNotFoundError => "SourceFileNotFoundError".toList
  | unsupportedSearchKindError => "UnsupportedSearchKindError".toList
  | seedConfigurationError => "SeedConfigurationError".toList
  | valueError => "ValueError".toList
  | assertionError => "AssertionError".toList
  | fileNotFoundError => "FileNotFoundError".toList
  | osError => "OSError".toList
  | integrityError _ => "IntegrityError".toList
  | databaseError => "DBAPIError".toList
  | staleDataError => "StaleDataError".toList
  | pendingRollbackError => "PendingRollbackError".toList
  | other => "Exception".toList

def Exn.python (e : Exn) : PyException where
  typeName := e.errorClass.typeName
  message := e.message

-- What one call of a retriever does with the session it shares with the run.
inductive Retrieval where
  | raised (error : PyException)
  | returned (hits : List EvaluationHit)
  | queried (fault : Option PyException)
      (read : Database → Except PyException (List EvaluationHit))

def Retrieval.program {K : Type} : Retrieval → EvalProgram K (List EvaluationHit)
  | raised error => throw error
  | returned hits => pure hits
  | queried fault read => do
      let knowledge ← selectEval fault .knowledge
      Script.attempt (read knowledge)

abbrev CaseRetriever := EvalCase → Int → Retrieval

inductive EvalStatement where
  | dataset
  | insertRun
  | commitRun
  | getRun
  | markRunning
  | activeCases
  | visibleChunks
  | complete
  | getFailedRun
  | markFailed
  deriving DecidableEq, Repr

structure EvalRuntime (K : Type) where
  defaultConfig : JsonDict
  log2 : Nat → K
  floats : FloatArithmetic K
  encoder : Retriever
  elapsedMs : EvalCase → Rat
  now : EvalStatement → Timestamp
  fault : EvalStatement → Option PyException
  retrievalFault : EvalCase → Option PyException

def evaluationNotFound (runId : Uuid) : PyException where
  typeName := "LookupError".toList
  message := "Evaluation run ".toList ++ runId.str ++ " was not found".toList

def evaluationDatasetNotFound (datasetId : Uuid) : PyException where
  typeName := "LookupError".toList
  message := "Evaluation dataset ".toList ++ datasetId.str ++ " was not found".toList

def evaluationForbidden : PyException where
  typeName := "PermissionError".toList
  message := "Only the dataset owner may run an evaluation".toList

def enqueueFailedMessage : Str := "evaluation job could not be queued".toList

section Service

variable {K : Type} (rt : EvalRuntime K)

def mergeConfigSnapshot (base overrides : JsonDict) : JsonDict := dictMerge base overrides

def createEvalRun (runId userId datasetId : Uuid) (configOverrides : JsonDict) :
    EvalProgram K (EvalRun K) := do
  match ← selectEval (rt.fault .dataset) (.dataset datasetId) with
  | none => throw (evaluationDatasetNotFound datasetId)
  | some dataset =>
      if dataset.userId ≠ userId then throw evaluationForbidden
      else
        let caseCount ← selectEval none (.activeCount datasetId)
        addRow (.setCaseCount datasetId caseCount)
        let run := {
          id := runId
          datasetId := dataset.id
          userId
          status := .queued
          configSnapshot := mergeConfigSnapshot
            (mergeConfigSnapshot rt.defaultConfig configOverrides)
            [("dataset_id".toList, .text dataset.id.str),
              ("dataset_version".toList, .text dataset.version)]
          startedAt := none
          finishedAt := none
          summaryMetrics := none
          errorMessage := none }
        trackRun run
        addRow (.insertRun run)
        flushEval (rt.fault .insertRun)
        return run

def evaluationRetriever (userId : Uuid) : CaseRetriever := fun case topK =>
  match rt.encoder.embedQuery case.query with
  | .error e => .raised e.python
  | .ok _ =>
      -- The server refuses a negative LIMIT.
      .queried
        (if topK < 0 then
          some {
            typeName := "DBAPIError".toList
            message := "LIMIT must not be negative".toList }
        else rt.retrievalFault case)
        fun db => (retrieveForEvaluation rt.encoder db userId case.query topK).mapError Exn.python

structure Attempted where
  retrieved : List EvaluationHit
  errorMessage : Option Str
  deriving DecidableEq, Repr

-- A bad case must not erase the rest of the run.
def retrieveCase (retriever : CaseRetriever) (topK : Int) (case : EvalCase) :
    EvalProgram K Attempted :=
  tryCatch
    (do
      readAttributes
      let retrieved ← (retriever case topK).program
      return { retrieved, errorMessage := none })
    fun error => pure { retrieved := [], errorMessage := some error.text }

variable [Field K] [LinearOrder K]

def caseOutcome (topK : Int) (knownChunkIds : List Str) (case : EvalCase) (attempted : Attempted) :
    CaseOutcome K where
  caseId := case.id
  source := case.source
  metrics := evaluateRetrieval rt.log2 (attempted.retrieved.map (·.chunkId.str))
    case.expectedChunkIds topK
  attribution := classifyAttribution case.expectedChunkIds attempted.retrieved knownChunkIds
  latencyMs := rt.elapsedMs case
  errorMessage := attempted.errorMessage

omit [Field K] [LinearOrder K] in
def caseResult (runId : Uuid) (attempted : Attempted) (outcome : CaseOutcome K) : EvalResult K where
  runId
  caseId := outcome.caseId
  retrievedChunkIds := attempted.retrieved.map (·.chunkId.str)
  retrievedDocumentIds := attempted.retrieved.map (·.documentId.str)
  retrievedScores := attempted.retrieved.map EvaluationHit.score
  hitPositions := outcome.metrics.hitPositions
  recallAtK := outcome.metrics.recall
  mrr := outcome.metrics.mrr
  ndcgAtK := outcome.metrics.ndcg
  attribution := outcome.attribution
  latencyMs := outcome.latencyMs
  errorMessage := outcome.errorMessage

def evaluateCase (retriever : CaseRetriever) (runId : Uuid) (topK : Int) (knownChunkIds : List Str)
    (case : EvalCase) : EvalProgram K (CaseOutcome K) := do
  let attempted ← retrieveCase retriever topK case
  readAttributes
  let outcome := caseOutcome rt topK knownChunkIds case attempted
  addRow (.insertResult (caseResult runId attempted outcome))
  return outcome

def evaluateCases (retriever : CaseRetriever) (runId : Uuid) (topK : Int)
    (knownChunkIds : List Str) : List EvalCase → EvalProgram K (List (CaseOutcome K))
  | [] => pure []
  | case :: cases => do
      let outcome ← evaluateCase rt retriever runId topK knownChunkIds case
      let outcomes ← evaluateCases retriever runId topK knownChunkIds cases
      return outcome :: outcomes

omit [Field K] [LinearOrder K] in
def findRun (runId : Uuid) : EvalProgram K (EvalRun K) := do
  match ← getRun (rt.fault .getRun) runId with
  | none => throw (evaluationNotFound runId)
  | some run => return run

omit [Field K] [LinearOrder K] in
def markRunning : EvalProgram K Unit := do
  assignRun fun run => { run with
    status := .running
    startedAt := some (rt.now .markRunning) }
  commitEval (rt.fault .markRunning)

def concludeEvaluation (retriever : Option CaseRetriever) (run : EvalRun K) :
    EvalProgram K (RunSummary K) := do
  let config := run.configSnapshot
  let topK ← Script.attempt (configTopK config)
  let actualRetriever := retriever.getD (evaluationRetriever rt run.userId)
  let cases ← selectEval (rt.fault .activeCases) (.activeCases run.datasetId)
  let knowledge ← selectEval (rt.fault .visibleChunks) .knowledge
  let knownChunkIds := visibleSearchableChunkIds knowledge run.userId
  let outcomes ← evaluateCases rt actualRetriever run.id topK knownChunkIds cases
  let summary ← Script.attempt (summarizeOutcomes rt.floats outcomes config)
  assignRun fun run => { run with
    status := .completed
    finishedAt := some (rt.now .complete)
    summaryMetrics := some summary }
  commitEval (rt.fault .complete)
  return summary

def runEvaluation (retriever : Option CaseRetriever) (runId : Uuid) :
    EvalProgram K (RunSummary K) := do
  let run ← findRun rt runId
  markRunning rt
  concludeEvaluation rt retriever run

omit [Field K] [LinearOrder K] in
def markFailed (message : Str) : EvalProgram K Unit := do
  assignRun fun run => { run with
    status := .failed
    finishedAt := some (rt.now .markFailed)
    errorMessage := some message }
  commitEval (rt.fault .markFailed)

omit [Field K] [LinearOrder K] in
def failEvaluationRun (runId : Uuid) (message : Str) : EvalProgram K Unit := do
  match ← getRun (rt.fault .getFailedRun) runId with
  | none => return ()
  | some _ => markFailed rt message

def evaluateRun (runId : Uuid) : EvalProgram K (RunSummary K) :=
  tryCatch (runEvaluation rt none runId) fun error => do
    rollbackEval
    failEvaluationRun rt runId (error.text.take 1000)
    throw error

end Service

end YCStudio
