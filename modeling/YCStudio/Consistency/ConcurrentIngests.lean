import YCStudio.Consistency.Operations
import YCStudio.Library.Interleaving

namespace YCStudio

structure Committed where
  database : Database
  files : Files
  deriving DecidableEq

def Write.lockedSource : Write → Option Uuid
  | .updateSource loaded _ => some loaded.id
  | .recordFailure sourceId _ => some sourceId
  | _ => none

-- The second to update a row waits for the transaction of the first, and so does the second to
-- insert under one unique key.
def Write.waitsFor : Write → Write → Bool
  | .insertSource row, .insertSource held =>
      row.collectionId = held.collectionId ∧ row.contentHash = held.contentHash
  | write, held => write.lockedSource.any (held.lockedSource = some ·)

namespace Op

def sends : Op → List Write
  | flush _ writes => writes
  | execute write => [write]
  | _ => []

def waits (op : Op) (others : List Session) : Bool :=
  others.any fun other => op.sends.any fun write => other.writes.any write.waitsFor

def Publishes : Op → Prop
  | commit => True
  | saveFile _ _ _ _ => True
  | _ => False

-- A COMMIT of a transaction that wrote nothing, or that was rolled back already.
def idle : (op : Op) → Session → Option (Except Exn op.Reply)
  | commit, session =>
      match session.health with
      | .active => if session.writes = [] then some (.ok ()) else none
      | .aborted => some (.ok ())
      | .inactive => some (.error pendingRollbackError)
  | _, _ => none

end Op

def serveCommitted (op : Op) (committed : Committed) (session : Session) :
    Except Exn op.Reply × Committed × Session :=
  let out := serve op ⟨committed.database, committed.files, session⟩
  (out.1, ⟨out.2.database, out.2.files⟩, out.2.session)

theorem serveCommitted_private {op : Op} (committed : Committed) (session : Session)
    (h : ¬ op.Publishes) : (serveCommitted op committed session).2.1 = committed := by
  cases op with
  | commit => exact absurd trivial h
  | saveFile fault sourceId name content => exact absurd trivial h
  | flush fault writes =>
    simp only [serveCommitted, serve]
    split <;> rfl
  | execute write =>
    simp only [serveCommitted, serve]
    split
    · rfl
    · split <;> rfl
  | readFile fault sourceId name =>
    simp only [serveCommitted, serve]
    split <;> rfl
  | _ => rfl

theorem serveCommitted_idle {op : Op} (committed : Committed) {session : Session}
    {reply : Except Exn op.Reply} (h : op.idle session = some reply) :
    (serveCommitted op committed session).1 = reply ∧
      (serveCommitted op committed session).2.1 = committed := by
  cases op with
  | commit =>
    obtain ⟨stream, now, drawn, writes, savepoint, health, refused⟩ := session
    cases health with
    | active =>
      change (if writes = [] then some (.ok ()) else none) = some reply at h
      split at h
      · next hwrites =>
        subst hwrites
        cases h
        exact ⟨rfl, rfl⟩
      · cases h
    | aborted =>
      cases h
      exact ⟨rfl, rfl⟩
    | inactive =>
      cases h
      exact ⟨rfl, rfl⟩
  | _ => cases h

def readCommitted : SharedStore Exn Op Op.Reply Committed Session where
  serve := serveCommitted
  waits := Op.waits
  idle := Op.idle
  Publishes := Op.Publishes
  serve_private _ committed session h := serveCommitted_private committed session h
  serve_idle _ committed _ _ h := serveCommitted_idle committed h

instance (op : Op) : DecidableEq op.Reply := by
  cases op with
  | select query => cases query <;> dsimp only [Op.Reply, Query.Reply] <;> infer_instance
  | _ => dsimp only [Op.Reply]; infer_instance

inductive IngestCall where
  | upload (rt : Runtime) (currentUserId collectionId : Uuid) (kind : CollectionKind)
      (filename : Str) (fileBytes : Bytes) (metadata : List (Str × Str))
  | job (rt : Runtime) (sourceId : Uuid)
  | removal (rt : Runtime) (currentUserId sourceId : Uuid)

inductive IngestAnswer where
  | uploaded (result : IngestResult)
  | worked (result : JobResult)
  | removed
  deriving DecidableEq, Repr

def IngestCall.program : IngestCall → Program IngestAnswer
  | upload rt currentUserId collectionId kind filename fileBytes metadata => do
      let result ← ingestPrivateUpload rt currentUserId collectionId kind filename fileBytes metadata
      return .uploaded result
  | job rt sourceId => do
      let result ← ingestSource rt sourceId
      return .worked result
  | removal rt currentUserId sourceId => do
      deleteSource rt currentUserId sourceId
      return .removed

-- stream and now are what the request draws its ids from and the time at which it is served.
structure IngestRequest where
  call : IngestCall
  stream : Nat
  now : Timestamp

namespace IngestRequest

def program (request : IngestRequest) : Program IngestAnswer := request.call.program

def session (request : IngestRequest) : Session := .start request.stream request.now

end IngestRequest

section Concludes

open Script

variable (rt : Runtime)

theorem private_allows : Op.AllowsIngest fun op => ¬ op.Publishes where
  newId := id
  newIds _ := id
  now := id
  select _ := id
  flush _ _ := id
  execute _ := id
  beginNested := id
  savepointIsActive := id
  savepointRollback := id
  savepointCommit := id

theorem concludes_commit_return {α : Type} (result : Except Exn α) {post : α → Prop}
    (hpost : ∀ a, result = .ok a → post a) :
    (commit >>= fun _ => attempt result : Program α).Concludes Op.Publishes post :=
  concludes_bind (concludes_perform Op.commit) (fun _ _ => ⟨result, rfl, hpost⟩) fun _ => trivial

theorem concludes_ingestPrivateUpload (user collectionId : Uuid) (kind : CollectionKind)
    (filename : Str) (fileBytes : Bytes) (metadata : List (Str × Str)) :
    (ingestPrivateUpload rt user collectionId kind filename fileBytes metadata).Concludes
      Op.Publishes fun _ => True := by
  have howned : (ownedPrivateCollection user collectionId kind).Asks fun op => ¬ op.Publishes := by
    refine asks_bind (asks_perform id) fun collection => ?_
    split
    · exact asks_throw _
    · exact asks_ite (asks_throw _) (asks_ite (asks_throw _) (asks_pure _))
  have hattempted : (tryCatch
      (ingestDocument rt collectionId filename fileBytes none (some metadata) none)
      fun e => do commit; throw e : Program IngestResult).Concludes Op.Publishes fun _ => False :=
    concludes_recover (asks_ingestDocument private_allows _ _ _ _ _ _ _) fun e =>
      concludes_commit_return (.error e) fun _ h => by cases h
  refine concludes_asks_bind howned fun _ => ?_
  exact concludes_bind hattempted (fun _ hnever => hnever.elim) fun result =>
    concludes_commit_return (.ok result) fun _ _ => trivial

theorem concludes_ingestSource (sourceId : Uuid) :
    (ingestSource rt sourceId).Concludes Op.Publishes fun _ => True := by
  refine concludes_asks_bind (asks_perform id) fun source => ?_
  split
  · trivial
  · split
    · trivial
    · refine concludes_asks_bind (asks_perform id) fun batch => ?_
      refine concludes_asks_bind (asks_perform id) fun collection => ?_
      split
      · refine @concludes_bind _ _ _ _ _ _ (· = none) _ _ _ (concludes_recover ?_ fun e => ?_)
          ?_ fun result => ?_
        · refine asks_bind (asks_perform id) fun _ => ?_
          exact asks_bind (asks_ingestPendingSource private_allows _ _ _ _ _) fun _ => asks_pure _
        · refine concludes_asks_bind (asks_perform id) fun _ => ?_
          exact concludes_commit_return (.ok none) fun _ h => (Except.ok.inj h).symm
        · rintro _ rfl
          exact ⟨.ok .failed, rfl, fun _ _ => trivial⟩
        · cases result with
          | none => trivial
          | some result => exact concludes_commit_return (.ok _) fun _ _ => trivial
      · refine concludes_asks_bind (asks_perform id) fun _ => ?_
        exact concludes_commit_return (.ok _) fun _ _ => trivial

theorem concludes_deleteSource (user sourceId : Uuid) :
    (deleteSource rt user sourceId).Concludes Op.Publishes fun _ => True := by
  refine concludes_asks_bind (asks_perform id) fun source => ?_
  split
  · trivial
  · refine concludes_asks_bind (asks_perform id) fun collection => ?_
    split
    · trivial
    · refine concludes_asks_bind (asks_perform id) fun documents => ?_
      dsimp only
      split
      · refine concludes_asks_bind (asks_perform id) fun _ => ?_
        refine concludes_asks_bind (asks_perform id) fun _ => ?_
        exact concludes_asks_bind (asks_perform id) fun _ => concludes_perform Op.commit
      · refine concludes_asks_bind (asks_perform id) fun _ => ?_
        exact concludes_asks_bind (asks_perform id) fun _ => concludes_perform Op.commit

theorem IngestRequest.concludes (request : IngestRequest) :
    request.program.Concludes Op.Publishes fun _ => True := by
  obtain ⟨call, _, _⟩ := request
  cases call with
  | upload rt user collectionId kind filename fileBytes metadata =>
    exact concludes_bind (concludes_ingestPrivateUpload rt user collectionId kind filename fileBytes
      metadata) (fun _ _ => ⟨_, rfl, fun _ _ => trivial⟩) fun _ => trivial
  | job rt sourceId =>
    exact concludes_bind (concludes_ingestSource rt sourceId)
      (fun _ _ => ⟨_, rfl, fun _ _ => trivial⟩) fun _ => trivial
  | removal rt user sourceId =>
    exact concludes_bind (concludes_deleteSource rt user sourceId)
      (fun _ _ => ⟨_, rfl, fun _ _ => trivial⟩) fun _ => trivial

end Concludes

abbrev IngestSystem := readCommitted.System IngestRequest IngestAnswer

end YCStudio
