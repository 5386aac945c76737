import YCStudio.Evaluation.RunStore
import YCStudio.Store.Session

namespace YCStudio

-- A row in the session's identity map: as the database returned it, and as it stands now.
structure Tracked (K : Type) where
  loaded : EvalRun K
  current : EvalRun K

structure EvalSession (K : Type) where
  run : Option (Tracked K)
  pending : List (EvalWrite K)
  flushed : List (EvalWrite K)
  health : Health

def EvalSession.start (K : Type) : EvalSession K where
  run := none
  pending := []
  flushed := []
  health := .active

def EvalSession.settled {K : Type} (session : EvalSession K) : EvalSession K where
  run := session.run.map fun tracked => ⟨tracked.current, tracked.current⟩
  pending := []
  flushed := []
  health := .active

structure EvalWorld (K : Type) where
  database : EvalDatabase K
  session : EvalSession K

def inactiveTransaction : PyException where
  typeName := "PendingRollbackError".toList
  message := "This Session's transaction has been rolled back due to a previous exception".toList

def failedTransaction : PyException where
  typeName := "DBAPIError".toList
  message := "current transaction is aborted, commands ignored until end of transaction block".toList

def refusedFlush : PyException where
  typeName := "DBAPIError".toList
  message := "the row was refused".toList

section Session

variable {K : Type} [DecidableEq K]

def Tracked.update (tracked : Tracked K) : List (EvalWrite K) :=
  let changes := tracked.loaded.changes tracked.current
  if changes = .none K then [] else [.updateRun tracked.current.id changes]

def EvalSession.unsent (session : EvalSession K) : List (EvalWrite K) :=
  (session.run.map Tracked.update).getD [] ++ session.pending

namespace EvalWorld

variable (w : EvalWorld K)

def view : EvalDatabase K := w.database.applyAll w.session.flushed

def send : EvalWorld K :=
  { w with
    session :=
      { w.session with
        run := w.session.run.map fun tracked => ⟨tracked.current, tracked.current⟩
        pending := []
        flushed := w.session.flushed ++ w.session.unsent } }

-- A refused flush rolls back and expires every row of the session.
def refuse : EvalWorld K :=
  { w with session := { run := none, pending := [], flushed := [], health := .inactive } }

def abort : EvalWorld K := { w with session := { w.session with health := .aborted } }

def rollback : EvalWorld K := { w with session := .start K }

def commit : EvalWorld K := { database := w.view, session := w.session.settled }

-- PostgreSQL answers the COMMIT of an aborted transaction by rolling it back.
def forget : EvalWorld K := { w with session := w.session.settled }

def track (run : EvalRun K) : EvalWorld K :=
  { w with session := { w.session with run := some ⟨run, run⟩ } }

def assign (f : EvalRun K → EvalRun K) : EvalWorld K :=
  { w with
    session :=
      { w.session with
        run := w.session.run.map fun tracked => { tracked with current := f tracked.current } } }

def add (write : EvalWrite K) : EvalWorld K :=
  { w with session := { w.session with pending := w.session.pending ++ [write] } }

end EvalWorld

inductive EvalQuery where
  | dataset (id : Uuid)
  | activeCount (datasetId : Uuid)
  | activeCases (datasetId : Uuid)
  | knowledge

namespace EvalQuery

def Reply : EvalQuery → Type
  | dataset _ => Option EvalDataset
  | activeCount _ => Nat
  | activeCases _ => List EvalCase
  | knowledge => Database

def answer (db : EvalDatabase K) : (query : EvalQuery) → query.Reply
  | dataset id => db.datasets.get? id
  | activeCount datasetId => (db.activeCases datasetId).length
  | activeCases datasetId => db.activeCases datasetId
  | knowledge => db.knowledge

end EvalQuery

inductive EvalOp (K : Type) where
  | getRun (fault : Option PyException) (id : Uuid)
  | assign (f : EvalRun K → EvalRun K)
  | add (write : EvalWrite K)
  | track (run : EvalRun K)
  | readAttributes
  | select (fault : Option PyException) (query : EvalQuery)
  | flush (fault : Option PyException)
  | commit (fault : Option PyException)
  | rollback

def EvalOp.Reply : EvalOp K → Type
  | getRun _ _ => Option (EvalRun K)
  | select _ query => query.Reply
  | _ => Unit

def Health.usable (health : Health) : Except PyException Unit :=
  match health with
  | .active => .ok ()
  | .inactive => .error inactiveTransaction
  | .aborted => .error failedTransaction

def flushUnsent (fault : Option PyException) (w : EvalWorld K) :
    Except PyException Unit × EvalWorld K :=
  if w.session.unsent.isEmpty then (.ok (), w)
  else match w.session.health, fault with
    | .inactive, _ => (.error inactiveTransaction, w)
    | .aborted, _ => (.error failedTransaction, w.refuse)
    | .active, some e => (.error e, w.refuse)
    | .active, none =>
        if w.view.AcceptsAll w.session.unsent then (.ok (), w.send)
        else (.error refusedFlush, w.refuse)

def selectRows (fault : Option PyException) (query : EvalQuery) (w : EvalWorld K) :
    Except PyException query.Reply × EvalWorld K :=
  match w.session.health.usable, fault with
  | .error e, _ => (.error e, w)
  | .ok _, some e => (.error e, w.abort)
  | .ok _, none => (.ok (query.answer w.view), w)

def serveEval : (op : EvalOp K) → EvalWorld K → Except PyException op.Reply × EvalWorld K
  | .getRun fault id, w =>
      match w.session.run, w.session.health.usable, fault with
      | some tracked, _, _ => (.ok (some tracked.current), w)
      | none, .error e, _ => (.error e, w)
      | none, .ok _, some e => (.error e, w.abort)
      | none, .ok _, none =>
          match w.view.runs.get? id with
          | none => (.ok none, w)
          | some run => (.ok (some run), w.track run)
  | .assign f, w => (.ok (), w.assign f)
  | .add write, w => (.ok (), w.add write)
  | .track run, w => (.ok (), w.track run)
  | .readAttributes, w =>
      match w.session.health with
      | .inactive => (.error inactiveTransaction, w)
      | _ => (.ok (), w)
  | .select fault query, w =>
      match flushUnsent none w with
      | (.error e, w) => (.error e, w)
      | (.ok _, w) => selectRows fault query w
  | .flush fault, w => flushUnsent fault w
  | .commit fault, w =>
      match flushUnsent fault w with
      | (.error e, w) => (.error e, w)
      | (.ok _, w) =>
          match w.session.health, fault with
          | .active, none => (.ok (), w.commit)
          | .active, some e => (.error e, w.refuse)
          | .aborted, _ => (.ok (), w.forget)
          | .inactive, _ => (.error inactiveTransaction, w)
  | .rollback, w => (.ok (), w.rollback)

abbrev EvalProgram (K : Type) (α : Type) := Script PyException (EvalOp K) EvalOp.Reply α

abbrev execEval {α : Type} (program : EvalProgram K α) (w : EvalWorld K) :
    Except PyException α × EvalWorld K := program.run serveEval w

end Session

section Ops

variable {K : Type}

def getRun (fault : Option PyException) (id : Uuid) : EvalProgram K (Option (EvalRun K)) :=
  Script.perform (EvalOp.getRun fault id)

def assignRun (f : EvalRun K → EvalRun K) : EvalProgram K Unit := Script.perform (EvalOp.assign f)

def addRow (write : EvalWrite K) : EvalProgram K Unit := Script.perform (EvalOp.add write)

def trackRun (run : EvalRun K) : EvalProgram K Unit := Script.perform (EvalOp.track run)

def readAttributes : EvalProgram K Unit := Script.perform EvalOp.readAttributes

def selectEval (fault : Option PyException) (query : EvalQuery) : EvalProgram K query.Reply :=
  Script.perform (EvalOp.select fault query)

def flushEval (fault : Option PyException) : EvalProgram K Unit := Script.perform (EvalOp.flush fault)

def commitEval (fault : Option PyException) : EvalProgram K Unit :=
  Script.perform (EvalOp.commit fault)

def rollbackEval : EvalProgram K Unit := Script.perform EvalOp.rollback

end Ops

end YCStudio
