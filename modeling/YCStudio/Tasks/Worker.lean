import YCStudio.Library.JobQueue
import YCStudio.Tasks.IngestTasks

namespace YCStudio

-- WorkerSettings.max_tries
def maxTries : Nat := 1

-- Who is enqueueing: upload_batch for the batch it committed, or a starting worker.
structure Enqueuer where
  batchId : Option Uuid
  remaining : List Uuid
  deriving DecidableEq, Repr

-- The id of a job is "ingest-source:" followed by the source id, so source ids index the queue.
structure JobSystem where
  server : Server
  queue : JobQueue Uuid
  enqueuers : List Enqueuer
  answered : List Uuid

namespace JobSystem

def empty (users : List Uuid) : JobSystem where
  server := .empty users
  queue := .empty
  enqueuers := []
  answered := []

variable (s : JobSystem)

def uploadBatch (rt : Runtime) (currentUserId collectionId : Uuid) (kind : CollectionKind)
    (metadata : List (Str × Str)) (uploads : List PendingUpload) : JobSystem :=
  match transact (YCStudio.uploadBatch rt currentUserId collectionId kind metadata uploads)
      s.server with
  | (.ok (batch, sources), server) =>
      { s with
        server
        enqueuers := s.enqueuers ++
          [{ batchId := some batch.id, remaining := sources.map Source.id }] }
  | (.error _, server) => { s with server }

def enqueueSource (index : Nat) : JobSystem :=
  match s.enqueuers[index]? with
  | some { batchId, remaining := sourceId :: remaining } =>
      { s with
        queue := s.queue.enqueue sourceId
        enqueuers := s.enqueuers.set index { batchId, remaining } }
  | _ => s

-- The 202 is sent once every source of the batch has been through enqueue_job.
def respond (index : Nat) : JobSystem :=
  match s.enqueuers[index]? with
  | some { batchId, remaining := [] } =>
      { s with
        enqueuers := s.enqueuers.eraseIdx index
        answered := batchId.toList ++ s.answered }
  | _ => s

-- Redis is away: upload_batch answers 503 and a starting worker gives up.
def redisFails (index : Nat) : JobSystem := { s with enqueuers := s.enqueuers.eraseIdx index }

def startJob (sourceId : Uuid) : JobSystem :=
  { s with queue := s.queue.advance (some ∘ JobState.start maxTries) sourceId }

def runJob (rt : Runtime) (sourceId : Uuid) : JobSystem :=
  if s.queue.Running sourceId then
    { s with
      server := (transact (ingestSource rt sourceId) s.server).2
      queue := s.queue.advance (some ∘ JobState.leave) sourceId }
  else s

-- job_timeout cancels the function, whose transaction is rolled back.
def timeOut (sourceId : Uuid) : JobSystem :=
  { s with queue := s.queue.advance (some ∘ JobState.leave) sourceId }

def finishJob (sourceId : Uuid) : JobSystem :=
  { s with queue := s.queue.advance (some ∘ JobState.finish) sourceId }

def expireResult (sourceId : Uuid) : JobSystem :=
  { s with queue := s.queue.advance JobState.expire sourceId }

def restartWorker : JobSystem :=
  match transact recoverPendingSources s.server with
  | (.ok sourceIds, server) =>
      { s with
        server
        queue := s.queue.restart
        enqueuers := s.enqueuers ++ [{ batchId := none, remaining := sourceIds }] }
  | (.error _, server) => { s with server, queue := s.queue.restart }

end JobSystem

end YCStudio
