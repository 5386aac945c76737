import YCStudio.Consistency.Batches
import YCStudio.Consistency.Jobs
import YCStudio.Consistency.Removals
import YCStudio.Consistency.SeedRuns

namespace YCStudio

inductive Operation where
  | createPrivateCollection (rt : Runtime) (currentUserId : Uuid) (kind : CollectionKind) (name : Str)
  | ingestPrivateUpload (rt : Runtime) (currentUserId collectionId : Uuid) (kind : CollectionKind)
      (filename : Str) (fileBytes : Bytes) (metadata : List (Str × Str))
  | createPendingBatch (rt : Runtime) (currentUserId collectionId : Uuid) (kind : CollectionKind)
      (metadata : List (Str × Str)) (uploads : List PendingUpload)
  | ingestSource (rt : Runtime) (sourceId : Uuid)
  | recoverPendingSources
  | deleteSource (rt : Runtime) (currentUserId sourceId : Uuid)
  | deleteCollection (currentUserId collectionId : Uuid)
  | seedPublicLibraries (rt : Runtime) (tree : SeedTree)

namespace Operation

def perform : Operation → Server → Server
  | createPrivateCollection rt user kind name, server =>
      (transact (createKbCollection rt user kind name) server).2
  | ingestPrivateUpload rt user collectionId kind filename fileBytes metadata, server =>
      (transact (YCStudio.ingestPrivateUpload rt user collectionId kind filename fileBytes metadata)
        server).2
  | createPendingBatch rt user collectionId kind metadata uploads, server =>
      (transact (uploadBatch rt user collectionId kind metadata uploads) server).2
  | ingestSource rt sourceId, server => (transact (YCStudio.ingestSource rt sourceId) server).2
  | recoverPendingSources, server => (transact YCStudio.recoverPendingSources server).2
  | deleteSource rt user sourceId, server =>
      (transact (YCStudio.deleteSource rt user sourceId) server).2
  | deleteCollection user collectionId, server =>
      (transact (YCStudio.deleteCollection user collectionId) server).2
  | seedPublicLibraries rt tree, server => (transact (runSeedCommand rt tree) server).2

theorem recoverPendingSources_ends {w : World} (hready : w.Ready) :
    w.Ends (exec YCStudio.recoverPendingSources w).2 [] :=
  .of_runs (Runs.select hready.active .pendingSourceIds) hready.discard

def accepted (op : Operation) (server : Server) : Option (IngestBatch × List Source) :=
  match op with
  | createPendingBatch rt user collectionId kind metadata uploads =>
      (transact (uploadBatch rt user collectionId kind metadata uploads) server).1.toOption
  | _ => none

def accepts (op : Operation) (server : Server) : List Uuid :=
  ((op.accepted server).map fun batch => batch.2.map Source.id).getD []

inductive Step (server : Server) : Operation → List Event → Prop
  | idle {op : Operation} (hrefused : op.accepted server = none) : Step server op []
  | created {rt : Runtime} {user : Uuid} {kind : CollectionKind} {name : Str} {id : Uuid} :
      Step server (createPrivateCollection rt user kind name)
        [.addCollection (newCollection user kind name id)]
  | uploaded {rt : Runtime} {user collectionId : Uuid} {kind : CollectionKind} {filename : Str}
      {fileBytes : Bytes} {metadata : List (Str × Str)} {result : Except Exn IngestResult}
      {events : List Event}
      (hresult : (transact (YCStudio.ingestPrivateUpload rt user collectionId kind filename fileBytes
        metadata) server).1 = result)
      (hstep : UploadStep rt server.database user collectionId filename fileBytes metadata result
        events) :
      Step server (ingestPrivateUpload rt user collectionId kind filename fileBytes metadata) events
  | batched {rt : Runtime} {user collectionId : Uuid} {kind : CollectionKind}
      {metadata : List (Str × Str)} {uploads : List PendingUpload} {batch : IngestBatch}
      {sources : List Source} {groups : List (List Event)}
      (hresult : (transact (uploadBatch rt user collectionId kind metadata uploads) server).1 =
        .ok (batch, sources))
      (haccepted : Acceptance rt server.database user collectionId metadata uploads batch sources
        groups) :
      Step server (createPendingBatch rt user collectionId kind metadata uploads)
        (.addBatch batch :: groups.flatten)
  | worked {rt : Runtime} {sourceId : Uuid} {events : List Event}
      (hstep : WorkStep rt server.database server.files sourceId events) :
      Step server (ingestSource rt sourceId) events
  | removed {rt : Runtime} {user : Uuid} {source : Source} {deletedAt : Timestamp}
      (hsource : source ∈ server.database.sources) :
      Step server (deleteSource rt user source.id) [.remove source deletedAt]
  | dropped {user collectionId : Uuid} {collection : Collection}
      (hcollection : server.database.kbCollections.get? collectionId = some collection)
      (howned : collection.OwnedBy user) :
      Step server (deleteCollection user collectionId) [.dropCollection collectionId]
  | seeded {rt : Runtime} {tree : SeedTree} {results : List (Bool × List SeedOutcome)}
      {events : List Event} (hrun : SeedRun rt tree server.database (.ok results) events) :
      Step server (seedPublicLibraries rt tree) events

theorem steps {server : Server} (h : server.Sound) (op : Operation) :
    ∃ events, server.Follows (op.perform server) events ∧ Step server op events := by
  cases op with
  | createPrivateCollection rt user kind name =>
    obtain ⟨events, hends, hshape⟩ := createKbCollection_ends rt user kind name h.ready
    refine ⟨events, h.transact hends, ?_⟩
    rcases hshape with rfl | ⟨id, rfl⟩
    · exact .idle rfl
    · exact .created
  | ingestPrivateUpload rt user collectionId kind filename fileBytes metadata =>
    obtain ⟨result, w', events, hruns, hends, hstep⟩ :=
      ingestPrivateUpload_steps h.ready rt filename fileBytes metadata user collectionId kind
    exact ⟨events, h.transact (.of_runs hruns hends), .uploaded (Runs.transacts hruns) hstep⟩
  | createPendingBatch rt user collectionId kind metadata uploads =>
    rcases createPendingBatch_runs h.ready rt metadata uploads user collectionId kind with
      ⟨e, w', hruns, hkeeps⟩ | ⟨batch, sources, w', groups, hruns, hfollows, haccepted⟩
    · have hstop : Runs (uploadBatch rt user collectionId kind metadata uploads) server.connect
          (.error e) w' := hruns.stop
      refine ⟨[], h.transact (.of_runs hstop hkeeps.ends), .idle ?_⟩
      rw [accepted, Runs.transacts hstop]
      rfl
    · obtain ⟨result, w'', hdone, _, hlands⟩ :=
        uploadBatch_lands rt metadata uploads hruns hfollows haccepted.adoptions.length_eq
      split at hlands
      · obtain ⟨rfl, hends⟩ := hlands
        exact ⟨_, h.transact (.of_runs hdone hends), .batched (Runs.transacts hdone) haccepted⟩
      · obtain ⟨⟨e, rfl⟩, hends⟩ := hlands
        refine ⟨[], h.transact (.of_runs hdone hends), .idle ?_⟩
        rw [accepted, Runs.transacts hdone]
        rfl
  | ingestSource rt sourceId =>
    obtain ⟨events, hends, hstep⟩ := ingestSource_steps h.ready rt sourceId
    exact ⟨events, h.transact hends, .worked hstep⟩
  | recoverPendingSources =>
    exact ⟨[], h.transact (recoverPendingSources_ends h.ready), .idle rfl⟩
  | deleteSource rt user sourceId =>
    obtain ⟨events, hends, hshape⟩ := deleteSource_ends h.ready rt user sourceId
    refine ⟨events, h.transact hends, ?_⟩
    rcases hshape with rfl | ⟨source, collection, hsource, rfl, _, _, rfl⟩
    · exact .idle rfl
    · exact .removed hsource
  | deleteCollection user collectionId =>
    obtain ⟨events, hends, hshape⟩ := deleteCollection_ends h.ready user collectionId
    refine ⟨events, h.transact hends, ?_⟩
    rcases hshape with rfl | ⟨collection, hcollection, howned, rfl⟩
    · exact .idle rfl
    · exact .dropped hcollection howned
  | seedPublicLibraries rt tree =>
    obtain ⟨r, events, hrun, _, hends⟩ := runSeedCommand_ends h.ready rt tree
    refine ⟨_, h.transact hends, ?_⟩
    cases r with
    | error e => exact .idle rfl
    | ok results => exact .seeded hrun

theorem follows {server : Server} (h : server.Sound) (op : Operation) :
    ∃ events, server.Follows (op.perform server) events := by
  obtain ⟨events, hfollows, _⟩ := steps h op
  exact ⟨events, hfollows⟩

abbrev performAll (ops : List Operation) (server : Server) : Server :=
  History.play perform ops server

theorem performAll_invariant (allowed : Operation → Server → Prop) {inv : Server → Prop}
    (hstep : ∀ server op, server.Sound → inv server → allowed op server → inv (perform op server))
    {server : Server} (hsound : server.Sound) (hinv : inv server) {ops : List Operation}
    (hallowed : History.Admissible perform allowed ops server) :
    (performAll ops server).Sound ∧ inv (performAll ops server) := by
  induction ops generalizing server with
  | nil => exact ⟨hsound, hinv⟩
  | cons op ops ih =>
    obtain ⟨events, hfollows⟩ := follows hsound op
    exact ih hfollows.sound (hstep server op hsound hinv hallowed.1) hallowed.2

theorem performAll_database {inv : Database → Prop}
    (hstep : ∀ db events, db.Intact → inv db → Event.Admissible events db →
      inv (Event.play events db)) (users : List Uuid) (hempty : inv (.empty users))
    (ops : List Operation) :
    (performAll ops (.empty users)).Sound ∧ inv (performAll ops (.empty users)).database := by
  have hstep' : ∀ server op, server.Sound → inv server.database → True →
      inv (perform op server).database := by
    intro server op hsound hinv _
    obtain ⟨events, hfollows⟩ := follows hsound op
    rw [hfollows.database]
    exact hstep _ events hsound.intact hinv hfollows.admissible
  have hany : History.Admissible perform (fun _ _ => True) ops (.empty users) :=
    .of_forall (fun _ _ _ => trivial) _
  exact performAll_invariant (fun _ _ => True) hstep' (.empty users) hempty hany

def sampleBatch : Operation :=
  createPendingBatch Runtime.reliable sampleUser sampleCollectionId .rule []
    [{ filename := "rules.txt".toList, fileBytes := [97], dirPath := none }]

end Operation

end YCStudio
