import YCStudio.Services.KnowledgeBase

namespace YCStudio

inductive JobResult where
  | skipped (reason : Str)
  | failed
  | ingested (documentId : Option Uuid) (chunkCount : Nat) (skipped : Bool)
  deriving DecidableEq, Repr

def batchGone : Str := "Batch or collection is no longer available.".toList

def ingestSource (rt : Runtime) (sourceId : Uuid) : Program JobResult := do
  match ← select (.source sourceId) with
  | none => return .skipped "source_missing".toList
  | some source =>
      if source.ingestStatus ≠ .pending then return .skipped source.ingestStatus.value
      else
        let batch ← select (.batch source.batchId)
        let collection ← select (.collection source.collectionId)
        match batch, collection with
        | some batch, some collection =>
            let result ← tryCatch
              (do
                let content ← readFile rt.readFault source.id (purePathName source.filename)
                let result ← ingestPendingSource rt source collection content batch.uploadMetadata
                return some result)
              fun e => do
                execute (.recordFailure sourceId (e.message.take 500))
                commit
                return none
            match result with
            | none => return .failed
            | some result =>
                commit
                return .ingested result.documentId result.chunkCount result.skipped
        | _, _ =>
            execute (.recordFailure sourceId batchGone)
            commit
            return .failed

def recoverPendingSources : Program (List Uuid) := select .pendingSourceIds

end YCStudio
