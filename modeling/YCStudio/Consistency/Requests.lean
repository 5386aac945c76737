import YCStudio.Consistency.FilesKept

namespace YCStudio

inductive Request where
  | uploadFile (rt : Runtime) (currentUserId collectionId : Uuid) (kind : CollectionKind)
      (filename : Str) (fileBytes : Bytes) (metadata : List (Str × Str))
  | operation (op : Operation)

theorem World.Ends.withFiles {w w' : World} {events : List Event} (h : w.Ends w' events)
    (files : Files) : w.Ends { w' with files } events := by
  cases h with
  | discarded hdatabase hrefused => exact .discarded hdatabase hrefused
  | committed hfollows => exact .committed (hfollows.withFiles files)

theorem saveFile_runs (fault : Option SaveFault) (w : World) (sourceId : Uuid) (name : Str)
    (content : Bytes) :
    ∃ r, Runs (saveFile fault sourceId name content) w r
      { w with files := w.files.receive fault (sourceId, name) content } := by
  cases fault with
  | none => exact ⟨.ok (), rfl⟩
  | some broken => exact ⟨.error broken.exn, rfl⟩

theorem storeOriginalBytes_runs (rt : Runtime) (w : World) (sourceId : Uuid) (filename : Str)
    (fileBytes : Bytes) :
    ∃ r, Runs (storeOriginalBytes rt sourceId filename fileBytes) w r
      { w with
        files := w.files.receive (rt.saveFault 0) (sourceId, purePathName filename) fileBytes } := by
  obtain ⟨r, hsave⟩ :=
    saveFile_runs (rt.saveFault 0) w sourceId (purePathName filename) fileBytes
  cases r with
  | ok _ => exact ⟨_, Runs.tryOk hsave⟩
  | error e =>
    by_cases hos : e.errorClass.isOSError = true
    · refine ⟨.ok (), Runs.tryError hsave ?_⟩
      rw [if_pos hos]
      exact Runs.pure ()
    · refine ⟨.error e, Runs.tryError hsave ?_⟩
      rw [if_neg hos]
      exact Runs.raise e

theorem Files.receiveAll_singleton (fault : Nat → Option SaveFault) (files : Files)
    (original : Original) :
    files.receiveAll fault 0 [original] = files.receive (fault 0) original.1 original.2 := by
  simp only [receiveAll, ite_self]

namespace Operation

def originals (op : Operation) (server : Server) : List Original :=
  match op with
  | createPendingBatch rt user collectionId kind metadata uploads =>
      match (transact (YCStudio.createPendingBatch rt user collectionId kind metadata uploads)
        server).1 with
      | .ok (_, sources) => originalsOf sources uploads
      | .error _ => []
  | _ => []

def saveFault : Operation → Nat → Option SaveFault
  | createPendingBatch rt _ _ _ _ _ => rt.saveFault
  | _ => fun _ => none

end Operation

-- upload_file stores the bytes of a file that was not skipped.
def uploadedOriginals (filename : Str) (fileBytes : Bytes) : Except Exn IngestResult → List Original
  | .ok result =>
      if result.skipped then [] else [((result.sourceId, purePathName filename), fileBytes)]
  | .error _ => []

namespace Request

def perform : Request → Server → Server
  | uploadFile rt user collectionId kind filename fileBytes metadata, server =>
      (transact (YCStudio.uploadFile rt user collectionId kind filename fileBytes metadata) server).2
  | operation op, server => op.perform server

abbrev performAll (requests : List Request) (server : Server) : Server :=
  History.play perform requests server

def service : Request → Operation
  | uploadFile rt user collectionId kind filename fileBytes metadata =>
      .ingestPrivateUpload rt user collectionId kind filename fileBytes metadata
  | operation op => op

def originals : Request → Server → List Original
  | uploadFile rt user collectionId kind filename fileBytes metadata, server =>
      uploadedOriginals filename fileBytes
        (transact (ingestPrivateUpload rt user collectionId kind filename fileBytes metadata)
          server).1
  | operation op, server => op.originals server

def saveFault : Request → Nat → Option SaveFault
  | uploadFile rt _ _ _ _ _ _ => rt.saveFault
  | operation op => op.saveFault

end Request

section Upload

variable {rt : Runtime} {user collectionId : Uuid} {kind : CollectionKind} {filename : Str}
  {fileBytes : Bytes} {metadata : List (Str × Str)} {server : Server}

theorem uploadFile_runs (result : Except Exn IngestResult) (w' : World)
    (h : Runs (ingestPrivateUpload rt user collectionId kind filename fileBytes metadata)
      server.connect result w') (hfiles : w'.files = server.files) :
    ∃ r, Runs (uploadFile rt user collectionId kind filename fileBytes metadata) server.connect r
      { w' with
        files := server.files.receiveAll rt.saveFault 0
          (Request.originals
            (.uploadFile rt user collectionId kind filename fileBytes metadata) server) } := by
  rw [Request.originals, Runs.transacts h]
  cases result with
  | error e =>
    refine ⟨.error e, ?_⟩
    change Runs _ _ _ { w' with files := server.files }
    rw [← hfiles]
    exact h.stop
  | ok result =>
    by_cases hskipped : result.skipped = true
    · refine ⟨.ok result, ?_⟩
      simp only [uploadedOriginals, hskipped, if_true]
      change Runs _ _ _ { w' with files := server.files }
      rw [← hfiles]
      refine h.bind ?_
      simp only [hskipped, Bool.not_true, Bool.false_eq_true, if_false]
      exact Runs.pure _
    · obtain ⟨r, hstore⟩ := storeOriginalBytes_runs rt w' result.sourceId filename fileBytes
      simp only [uploadedOriginals, hskipped, if_false, Bool.false_eq_true]
      rw [Files.receiveAll_singleton, ← hfiles]
      cases r with
      | error e =>
        refine ⟨.error e, h.bind ?_⟩
        simp only [hskipped, Bool.not_false, if_true]
        exact hstore.stop
      | ok _ =>
        refine ⟨.ok result, h.bind ?_⟩
        simp only [hskipped, Bool.not_false, if_true]
        exact hstore.bind (Runs.pure _)

end Upload

namespace Request

inductive Stores (server : Server) : Request → List Event → List Original → Prop
  | kept {request : Request} {events : List Event}
      (hstep : Operation.Step server request.service events)
      (hrefused : request.service.accepted server = none) : Stores server request events []
  | uploaded {rt : Runtime} {user collectionId : Uuid} {kind : CollectionKind} {filename : Str}
      {fileBytes : Bytes} {metadata : List (Str × Str)} {collection : Collection}
      {existing : Option Source} {id documentId : Uuid} {now : Timestamp} {source : Source}
      {out : Ingested}
      (hcollection : server.database.kbCollections.get? collectionId = some collection)
      (howned : collection.OwnedBy user)
      (hexisting : Query.answer server.database
        (.sourceByHash collectionId (computeContentHash rt fileBytes)) = existing)
      (hsource : source = admitted existing collectionId filename
        (computeContentHash rt fileBytes) none id now)
      (houtcome : Pipeline.outcome rt source collection filename fileBytes (some metadata) none
        documentId now = .ok out) :
      Stores server (.uploadFile rt user collectionId kind filename fileBytes metadata)
        [admission existing source, .complete source collection out]
        [((source.id, purePathName filename), fileBytes)]
  | saved {rt : Runtime} {user collectionId : Uuid} {kind : CollectionKind}
      {metadata : List (Str × Str)} {uploads : List PendingUpload} {batch : IngestBatch}
      {sources : List Source} {groups : List (List Event)}
      (haccepted : Acceptance rt server.database user collectionId metadata uploads batch sources
        groups) (hlands : rt.Lands uploads.length) :
      Stores server (.operation (.createPendingBatch rt user collectionId kind metadata uploads))
        (.addBatch batch :: groups.flatten) (originalsOf sources uploads)
  | undone {rt : Runtime} {user collectionId : Uuid} {kind : CollectionKind}
      {metadata : List (Str × Str)} {uploads : List PendingUpload} {batch : IngestBatch}
      {sources : List Source} {groups : List (List Event)}
      (haccepted : Acceptance rt server.database user collectionId metadata uploads batch sources
        groups)
      (hadmissible : Event.Admissible (.addBatch batch :: groups.flatten) server.database)
      (hdrawn : ∀ e ∈ groups.flatten, ∀ id ∈ e.newIds, id.stream = server.clock)
      (hlands : ¬ rt.Lands uploads.length) :
      Stores server (.operation (.createPendingBatch rt user collectionId kind metadata uploads))
        [] (originalsOf sources uploads)

variable {server : Server} (h : server.Sound)

include h

theorem steps_uploadFile (rt : Runtime) (user collectionId : Uuid) (kind : CollectionKind)
    (filename : Str) (fileBytes : Bytes) (metadata : List (Str × Str)) :
    let request := uploadFile rt user collectionId kind filename fileBytes metadata
    ∃ events, server.Follows (request.perform server) events ∧
      (request.perform server).files =
        server.files.receiveAll request.saveFault 0 (request.originals server) ∧
      Stores server request events (request.originals server) := by
  intro request
  obtain ⟨result, w', events, hruns, hends, hstep⟩ :=
    ingestPrivateUpload_steps h.ready rt filename fileBytes metadata user collectionId kind
  have hfiles : w'.files = server.files := by
    have hkeeps := (keepsFiles_ingestPrivateUpload rt user collectionId kind filename fileBytes
      metadata).files server.connect
    rwa [hruns.world] at hkeeps
  obtain ⟨r, hdone⟩ := uploadFile_runs result w' hruns hfiles
  refine ⟨events, h.transact (.of_runs hdone (hends.withFiles _)), ?_, ?_⟩
  · exact congrArg World.files hdone.world
  · have hservice : ∀ {result' : Except Exn IngestResult} {events' : List Event},
        UploadStep rt server.database user collectionId filename fileBytes metadata result' events' →
          result = result' → Operation.Step server request.service events' := by
      rintro result' events' hstep' rfl
      exact .uploaded (Runs.transacts hruns) hstep'
    have horiginals : request.originals server = uploadedOriginals filename fileBytes result := by
      rw [originals, Runs.transacts hruns]
    rw [horiginals]
    cases hstep with
    | refused => exact .kept (hservice .refused rfl) rfl
    | skipped hduplicate => exact .kept (hservice (.skipped hduplicate) rfl) rfl
    | @attempted _ collection existing id documentId now source outcome hcollection howned hexisting
        hadmissible hsource houtcome hreports =>
      have hstep' := hservice (.attempted hcollection howned hexisting hadmissible hsource houtcome
        hreports) rfl
      cases outcome with
      | error failure =>
        obtain ⟨e, rfl⟩ := hreports
        exact .kept hstep' rfl
      | ok out =>
        obtain rfl : result = .ok out.result := hreports
        have hid : out.document.sourceId = source.id :=
          (Pipeline.outcome_wellFormed houtcome.symm).sourceId_eq
        have hstored : Stores server request [admission existing source,
            .complete source collection out] [((source.id, purePathName filename), fileBytes)] :=
          .uploaded hcollection howned hexisting hsource houtcome.symm
        rw [← hid] at hstored
        exact hstored

theorem steps_batch (rt : Runtime) (user collectionId : Uuid) (kind : CollectionKind)
    (metadata : List (Str × Str)) (uploads : List PendingUpload) :
    let op := Operation.createPendingBatch rt user collectionId kind metadata uploads
    ∃ events, server.Follows (op.perform server) events ∧
      (op.perform server).files = server.files.receiveAll rt.saveFault 0 (op.originals server) ∧
      Stores server (.operation op) events (op.originals server) := by
  intro op
  have hkeeps := (keepsFiles_createPendingBatch rt user collectionId kind metadata uploads).files
    server.connect
  rcases createPendingBatch_runs h.ready rt metadata uploads user collectionId kind with
    ⟨e, w', hruns, hkept⟩ | ⟨batch, sources, w', groups, hruns, hfollows, haccepted⟩
  · have hstop : Runs (uploadBatch rt user collectionId kind metadata uploads) server.connect
        (.error e) w' := hruns.stop
    have horiginals : op.originals server = [] := by
      rw [Operation.originals, Runs.transacts hruns]
    have hrefused : op.accepted server = none := by
      rw [Operation.accepted, Runs.transacts hstop]
      rfl
    rw [horiginals]
    refine ⟨[], h.transact (.of_runs hstop hkept.ends), ?_, .kept (.idle hrefused) hrefused⟩
    rw [hruns.world] at hkeeps
    exact (congrArg World.files hstop.world).trans hkeeps
  · have horiginals : op.originals server = originalsOf sources uploads := by
      rw [Operation.originals, Runs.transacts hruns]
    obtain ⟨result, w'', hdone, hfiles, hlands⟩ :=
      uploadBatch_lands rt metadata uploads hruns hfollows haccepted.adoptions.length_eq
    have hfiles' : (op.perform server).files =
        server.files.receiveAll rt.saveFault 0 (op.originals server) := by
      rw [hruns.world] at hkeeps
      rw [hkeeps] at hfiles
      rw [horiginals]
      exact (congrArg World.files hdone.world).trans hfiles
    rw [horiginals] at hfiles' ⊢
    split at hlands
    case isTrue hland =>
      exact ⟨_, h.transact (.of_runs hdone hlands.2), hfiles', .saved haccepted hland⟩
    case isFalse hland =>
      refine ⟨[], h.transact (.of_runs hdone hlands.2), hfiles',
        .undone haccepted hfollows.admissible ?_ hland⟩
      exact fun e he => hfollows.drawn e (List.mem_cons_of_mem _ he)

theorem steps (request : Request) :
    ∃ events, server.Follows (request.perform server) events ∧
      (request.perform server).files =
        server.files.receiveAll request.saveFault 0 (request.originals server) ∧
      Stores server request events (request.originals server) := by
  cases request with
  | uploadFile rt user collectionId kind filename fileBytes metadata =>
    exact steps_uploadFile h rt user collectionId kind filename fileBytes metadata
  | operation op =>
    have hkept : op.accepted server = none → op.originals server = [] →
        (op.perform server).files = server.files → ∃ events,
          server.Follows (op.perform server) events ∧
            (op.perform server).files =
              server.files.receiveAll op.saveFault 0 (op.originals server) ∧
            Stores server (.operation op) events (op.originals server) := by
      intro hrefused horiginals hfiles
      obtain ⟨events, hfollows, hstep⟩ := Operation.steps h op
      rw [horiginals]
      exact ⟨events, hfollows, hfiles, .kept hstep hrefused⟩
    cases op with
    | createPendingBatch rt user collectionId kind metadata uploads =>
      exact steps_batch h rt user collectionId kind metadata uploads
    | createPrivateCollection rt user kind name =>
      exact hkept rfl rfl ((keepsFiles_createKbCollection rt user kind name).transact server)
    | ingestPrivateUpload rt user collectionId kind filename fileBytes metadata =>
      exact hkept rfl rfl ((keepsFiles_ingestPrivateUpload rt user collectionId kind filename
        fileBytes metadata).transact server)
    | ingestSource rt sourceId =>
      exact hkept rfl rfl ((keepsFiles_ingestSource rt sourceId).transact server)
    | recoverPendingSources => exact hkept rfl rfl rfl
    | deleteSource rt user sourceId =>
      exact hkept rfl rfl ((keepsFiles_deleteSource rt user sourceId).transact server)
    | deleteCollection user collectionId =>
      exact hkept rfl rfl ((keepsFiles_deleteCollection user collectionId).transact server)
    | seedPublicLibraries rt tree =>
      exact hkept rfl rfl ((keepsFiles_runSeedCommand rt tree).transact server)

omit h in
theorem performAll_invariant (allowed : Request → Server → Prop) {inv : Server → Prop}
    (hstep : ∀ server request, server.Sound → inv server → allowed request server →
      inv (perform request server))
    {server : Server} (hsound : server.Sound) (hinv : inv server) {requests : List Request}
    (hallowed : History.Admissible perform allowed requests server) :
    (performAll requests server).Sound ∧ inv (performAll requests server) := by
  induction requests generalizing server with
  | nil => exact ⟨hsound, hinv⟩
  | cons request requests ih =>
    obtain ⟨events, hfollows, _⟩ := steps hsound request
    exact ih hfollows.sound (hstep server request hsound hinv hallowed.1) hallowed.2

end Request

end YCStudio
