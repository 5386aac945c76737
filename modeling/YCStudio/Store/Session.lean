import YCStudio.Library.Script
import YCStudio.Store.Writes

namespace YCStudio

inductive Query where
  | collection (id : Uuid)
  | batch (id : Option Uuid)
  | source (id : Uuid)
  | sourceByHash (collectionId : Uuid) (contentHash : Str)
  | sources (collectionId : Uuid)
  | documents (sourceId : Uuid)
  | filenameByHash (collectionId : Uuid) (contentHash : Str) (excludingSourceId : Option Uuid)
  | publicCollection (kind : CollectionKind) (name : Str)
  | pendingSourceIds

namespace Query

def Reply : Query → Type
  | collection _ => Option Collection
  | batch _ => Option IngestBatch
  | source _ => Option Source
  | sourceByHash _ _ => Option Source
  | sources _ => List Source
  | documents _ => List Document
  | filenameByHash _ _ _ => Option Str
  | publicCollection _ _ => Option Collection
  | pendingSourceIds => List Uuid

def filenameOrder (a b : Source) : Prop :=
  a.filename < b.filename ∨ (a.filename = b.filename ∧ a.id.le b.id = true)

instance : DecidableRel filenameOrder := fun a b =>
  inferInstanceAs (Decidable (a.filename < b.filename ∨ _))

def answer (db : Database) : (query : Query) → query.Reply
  | collection id => db.kbCollections.get? id
  | batch id => id.bind db.ingestBatches.get?
  | source id => db.sources.get? id
  | sourceByHash collectionId contentHash =>
      db.sources.rows.find? fun row =>
        row.collectionId = collectionId ∧ row.contentHash = contentHash
  | sources collectionId => (db.sourcesOf collectionId).insertionSort filenameOrder
  | documents sourceId => db.documentsOf sourceId
  | filenameByHash collectionId contentHash excludingSourceId =>
      (db.sources.rows.find? fun row =>
        row.collectionId = collectionId ∧ row.contentHash = contentHash ∧
          some row.id ≠ excludingSourceId).map Source.filename
  | publicCollection kind name =>
      db.kbCollections.rows.find? fun row =>
        row.userId = none ∧ row.kind = kind ∧ row.name = name
  | pendingSourceIds =>
      (db.sources.rows.filter (·.ingestStatus = .pending)).map Source.id

end Query

abbrev Files := List ((Uuid × Str) × Bytes)

def Files.store (files : Files) (path : Uuid × Str) (content : Bytes) : Files :=
  (path, content) :: files.filter fun entry => entry.1 ≠ path

-- A write can fail once the file is open, after some of the bytes have reached it.
structure SaveFault where
  exn : Exn
  written : Option Nat
  deriving DecidableEq, Repr

def SaveFault.leaves (fault : SaveFault) (content : Bytes) : Option Bytes :=
  fault.written.map content.take

inductive Health where
  | active
  | inactive
  | aborted
  deriving DecidableEq, Repr

structure Session where
  stream : Nat
  now : Timestamp
  drawn : Nat
  writes : List Write
  savepoint : Option (List Write)
  health : Health
  refused : List Database.Refusal
  deriving DecidableEq, Repr

def Session.start (stream : Nat) (now : Timestamp) : Session where
  stream
  now
  drawn := 0
  writes := []
  savepoint := none
  health := .active
  refused := []

structure World where
  database : Database
  files : Files
  session : Session
  deriving DecidableEq

namespace World

variable (w : World)

def view : Database := w.database.applyAll w.session.writes

def advance (writes : List Write) (draws : Nat) : World :=
  { w with
    session :=
      { w.session with
        writes := w.session.writes ++ writes
        drawn := w.session.drawn + draws } }

-- A refused flush undoes the innermost transaction and leaves the session unusable.
def refuse (reasons : List Database.Refusal) : World :=
  { w with
    session :=
      { w.session with
        writes := w.session.savepoint.getD []
        health := .inactive
        refused := w.session.refused ++ reasons } }

def abort : World := { w with session := { w.session with health := .aborted } }

def beginNested : World :=
  { w with session := { w.session with savepoint := some w.session.writes } }

def releaseSavepoint : World := { w with session := { w.session with savepoint := none } }

def rollbackSavepoint : World :=
  { w with
    session :=
      { w.session with
        writes := w.session.savepoint.getD []
        savepoint := none
        health := .active } }

def rollback : World :=
  { w with session := { w.session with writes := [], savepoint := none, health := .active } }

def commit : World := { w.rollback with database := w.view }

end World

def pendingRollbackError : Exn where
  errorClass := .pendingRollbackError
  message := "This Session's transaction has been rolled back".toList

def databaseError : Exn where
  errorClass := .databaseError
  message := "current transaction is aborted".toList

def fileNotFoundError : Exn where
  errorClass := .fileNotFoundError
  message := "No such file or directory".toList

def Database.Refusal.exn : Database.Refusal → Exn
  | .violates constraint =>
      { errorClass := .integrityError constraint, message := "constraint violation".toList }
  | .staleRow => { errorClass := .staleDataError, message := "0 rows were matched".toList }

def Health.guard (health : Health) : Except Exn Unit :=
  match health with
  | .active => .ok ()
  | .inactive => .error pendingRollbackError
  | .aborted => .error databaseError

-- PostgreSQL text cannot hold the NUL character.
def Write.Encodable : Write → Prop
  | .recordFailure _ errorMessage => '\x00' ∉ errorMessage
  | _ => True

instance (write : Write) : Decidable write.Encodable := by
  cases write <;> unfold Write.Encodable <;> infer_instance

inductive Op where
  | newId
  | newIds (count : Nat)
  | now
  | select (query : Query)
  | flush (fault : Option Exn) (writes : List Write)
  | execute (write : Write)
  | beginNested
  | savepointIsActive
  | savepointRollback
  | savepointCommit
  | commit
  | rollback
  | saveFile (fault : Option SaveFault) (sourceId : Uuid) (name : Str) (content : Bytes)
  | readFile (fault : Option Exn) (sourceId : Uuid) (name : Str)

def Op.Reply : Op → Type
  | newId => Uuid
  | newIds _ => List Uuid
  | now => Timestamp
  | select query => query.Reply
  | savepointIsActive => Bool
  | readFile _ _ _ => Bytes
  | _ => Unit

def serve : (op : Op) → World → Except Exn op.Reply × World
  | .newId, w => (.ok ⟨w.session.stream, w.session.drawn⟩, w.advance [] 1)
  | .newIds count, w =>
      (.ok ((List.range count).map fun i => ⟨w.session.stream, w.session.drawn + i⟩),
        w.advance [] count)
  | .now, w => (.ok w.session.now, w)
  | .select query, w => (w.session.health.guard.map fun _ => query.answer w.view, w)
  | .flush fault writes, w =>
      match w.session.health.guard, fault, w.view.firstRefusal writes with
      | .error e, _, _ => (.error e, w)
      | .ok _, some e, _ => (.error e, w.refuse [])
      | .ok _, none, some refusal => (.error refusal.exn, w.refuse [refusal])
      | .ok _, none, none => (.ok (), w.advance writes 0)
  | .execute write, w =>
      match w.session.health.guard with
      | .error e => (.error e, w)
      | .ok _ =>
          if write.Encodable then (.ok (), w.advance [w.view.resolve write] 0)
          else (.error databaseError, w.abort)
  | .beginNested, w => (w.session.health.guard, w.beginNested)
  | .savepointIsActive, w => (.ok (decide (w.session.health ≠ .inactive)), w)
  | .savepointRollback, w => (.ok (), w.rollbackSavepoint)
  | .savepointCommit, w => (w.session.health.guard, w.releaseSavepoint)
  | .commit, w =>
      match w.session.health with
      | .active => (.ok (), w.commit)
      | .aborted => (.ok (), w.rollback)
      | .inactive => (.error pendingRollbackError, w)
  | .rollback, w => (.ok (), w.rollback)
  | .saveFile fault sourceId name content, w =>
      match fault with
      | none => (.ok (), { w with files := w.files.store (sourceId, name) content })
      | some fault =>
          (.error fault.exn,
            { w with
              files := match fault.leaves content with
                | none => w.files
                | some rest => w.files.store (sourceId, name) rest })
  | .readFile fault sourceId name, w =>
      match fault, w.files.lookup (sourceId, name) with
      | some e, _ => (.error e, w)
      | none, some content => (.ok content, w)
      | none, none => (.error fileNotFoundError, w)

abbrev Program (α : Type) := Script Exn Op Op.Reply α

abbrev exec {α : Type} (program : Program α) (w : World) : Except Exn α × World :=
  program.run serve w

def newId : Program Uuid := Script.perform Op.newId

def newIds (count : Nat) : Program (List Uuid) := Script.perform (Op.newIds count)

def now : Program Timestamp := Script.perform Op.now

def select (query : Query) : Program query.Reply := Script.perform (Op.select query)

def flush (fault : Option Exn) (writes : List Write) : Program Unit :=
  Script.perform (Op.flush fault writes)

def execute (write : Write) : Program Unit := Script.perform (Op.execute write)

def beginNested : Program Unit := Script.perform Op.beginNested

def savepointIsActive : Program Bool := Script.perform Op.savepointIsActive

def savepointRollback : Program Unit := Script.perform Op.savepointRollback

def savepointCommit : Program Unit := Script.perform Op.savepointCommit

def commit : Program Unit := Script.perform Op.commit

def rollback : Program Unit := Script.perform Op.rollback

def saveFile (fault : Option SaveFault) (sourceId : Uuid) (name : Str) (content : Bytes) :
    Program Unit := Script.perform (Op.saveFile fault sourceId name content)

def readFile (fault : Option Exn) (sourceId : Uuid) (name : Str) : Program Bytes :=
  Script.perform (Op.readFile fault sourceId name)

def attempt {α : Type} (result : Except Exn α) : Program α := Script.attempt result

structure Server where
  database : Database
  files : Files
  clock : Nat
  refused : List Database.Refusal
  deriving DecidableEq

def Server.empty (users : List Uuid) : Server where
  database := .empty users
  files := []
  clock := 0
  refused := []

def Server.connect (server : Server) : World where
  database := server.database
  files := server.files
  session := .start server.clock server.clock

def Server.close (server : Server) (w : World) : Server where
  database := w.database
  files := w.files
  clock := server.clock + 1
  refused := server.refused ++ w.session.refused

-- Closing the session returns its connection: what was not committed is gone.
def transact {α : Type} (program : Program α) (server : Server) : Except Exn α × Server :=
  ((exec program server.connect).1, server.close (exec program server.connect).2)

end YCStudio
