import YCStudio.Consistency.RouteRuns

namespace YCStudio

theorem Adoptions.waits {rt : Runtime} {batch : IngestBatch} {db : Database}
    {uploads : List PendingUpload} {sources : List Source} {groups : List (List Event)}
    (h : Adoptions rt batch db uploads sources groups)
    (hplain : ∀ upload ∈ uploads, upload.dirPath = none) :
    ∀ pair ∈ sources.zip uploads,
      pair.2.WaitsIn rt batch.collectionId pair.1 ∧ pair.1.batchId = some batch.id := by
  induction h with
  | nil => exact fun _ hpair => absurd hpair List.not_mem_nil
  | cons head tail ih =>
    obtain ⟨hhead, hrest⟩ := List.forall_mem_cons.mp hplain
    rw [List.zip_cons_cons]
    exact List.forall_mem_cons.mpr ⟨⟨head.waitsIn hhead, head.batchId_eq⟩, ih hrest⟩

section Accepted

variable {server : Server} (hsound : server.Sound) {rt : Runtime} {user : Uuid}
  {collection : Collection} {metadata : List (Str × Str)} {uploads : List PendingUpload}
  {batch : IngestBatch} {sources : List Source}
  (haccepted : (transact (uploadBatch rt user collection.id collection.kind metadata uploads)
    server).1 = .ok (batch, sources))

include hsound haccepted

theorem uploadBatch_accepts :
    let server' := (transact (uploadBatch rt user collection.id collection.kind metadata uploads)
      server).2
    ∃ groups, server.Follows server' (.addBatch batch :: groups.flatten) ∧
      Acceptance rt server.database user collection.id metadata uploads batch sources groups ∧
      rt.Lands uploads.length ∧
      server'.files = server.files.receiveAll rt.saveFault 0 (originalsOf sources uploads) := by
  intro server'
  have hkeeps := (keepsFiles_createPendingBatch rt user collection.id collection.kind metadata
    uploads).files server.connect
  rcases createPendingBatch_runs hsound.ready rt metadata uploads user collection.id collection.kind
    with ⟨e, w', hruns, _⟩ | ⟨batch', sources', w', groups, hruns, hfollows, hacceptance⟩
  · have hstop : Runs (uploadBatch rt user collection.id collection.kind metadata uploads)
        server.connect (.error e) w' := hruns.stop
    cases (Runs.transacts hstop).symm.trans haccepted
  · obtain ⟨result, w'', hdone, hfiles, hlands⟩ :=
      uploadBatch_lands rt metadata uploads hruns hfollows hacceptance.adoptions.length_eq
    have hresult := (Runs.transacts hdone).symm.trans haccepted
    split at hlands
    case isTrue hland =>
      cases hlands.1.symm.trans hresult
      refine ⟨groups, hsound.transact (.of_runs hdone hlands.2), hacceptance, hland, ?_⟩
      rw [hruns.world] at hkeeps
      rw [hkeeps] at hfiles
      exact (congrArg World.files hdone.world).trans hfiles
    case isFalse =>
      obtain ⟨⟨e, he⟩, _⟩ := hlands
      cases he.symm.trans hresult

variable (hsettled : server.database.Settled)
  (hcollection : server.database.kbCollections.get? collection.id = some collection)
  (hplain : ∀ upload ∈ uploads, upload.dirPath = none)

include hsettled hcollection hplain

theorem uploadBatch_queues :
    let server' := (transact (uploadBatch rt user collection.id collection.kind metadata uploads)
      server).2
    server'.Sound ∧ server'.database.Settled ∧
      server'.database.kbCollections.get? collection.id = some collection ∧
      server'.database.ingestBatches.get? batch.id = some batch ∧
      batch.uploadMetadata = metadata ∧ sources.length = uploads.length ∧
      (sources.map Source.id).Nodup ∧
      server.database.Enters rt collection.id server'.database uploads ∧
      ∀ pair ∈ sources.zip uploads, server'.Queues rt collection batch pair.1 pair.2 := by
  intro server'
  obtain ⟨groups, hfollows, hacceptance, hlands, hfiles⟩ := uploadBatch_accepts hsound haccepted
  have hadmissible := hfollows.admissible
  have hadoptions := hacceptance.adoptions
  have hlength := hadoptions.length_eq
  have hnodup := hadoptions.nodup hadmissible.2
  have hentered := hadoptions.enters (hsound.intact.apply hadmissible.1)
    (hsettled.apply hsound.intact hadmissible.1) hadmissible.2 hplain
  have henters : ∀ e ∈ groups.flatten, ∃ sourceId, e.Enters batch.collectionId sourceId := by
    intro e he
    obtain ⟨source, _, hsource⟩ := hadoptions.adoptsAll.enters e he
    exact ⟨source.id, hsource⟩
  obtain ⟨hbatches, hcollections⟩ := Event.Enters.play henters (server.database.addBatch batch)
  have hdatabase : server'.database =
      Event.play groups.flatten (server.database.addBatch batch) := hfollows.database
  rw [hacceptance.collectionId_eq, ← hdatabase] at hentered
  rw [← hdatabase] at hbatches hcollections
  refine ⟨hfollows.sound, ?_, ?_, ?_, hacceptance.uploadMetadata, hlength, hnodup,
    ⟨hentered.overlays, hentered.nodup, hentered.free, hentered.accepted⟩, fun pair hpair => ?_⟩
  · rw [hfollows.database]
    exact hsettled.play hsound.intact hadmissible
  · rw [hcollections]
    exact hcollection
  · rw [hbatches]
    exact Table.get?_key ((Table.mem_insert hadmissible.1.1).mpr (Or.inr rfl))
  · obtain ⟨hwaits, hbatch⟩ := hadoptions.waits hplain pair hpair
    rw [hacceptance.collectionId_eq] at hwaits
    refine ⟨?_, hwaits, hbatch, ?_⟩
    · rw [hdatabase]
      exact hadoptions.mem hadmissible.2 pair.1 (List.of_mem_zip hpair).1
    · rw [hfiles]
      exact lookup_originalsOf server.files hlength hnodup hlands.1 hpair

theorem batch_overlays (hreadable : rt.readFault = none) {jobs : List Uuid}
    (hjobs : jobs.Perm (sources.map Source.id)) :
    server.database.Enters rt collection.id
        (transact (uploadBatch rt user collection.id collection.kind metadata uploads)
          server).2.database uploads ∧
      Overlays Portrait.key server.database.Shows
        (Operation.performAll
          (.createPendingBatch rt user collection.id collection.kind metadata uploads ::
            jobs.map (.ingestSource rt)) server).database.Shows
        (uploads.map (PendingUpload.worked rt collection metadata)) := by
  obtain ⟨hsound', hsettled', hcollection', hbatch, rfl, hlength, hids, hentered, hqueues⟩ :=
    uploadBatch_queues hsound haccepted hsettled hcollection hplain
  have hfst : (sources.zip uploads).map Prod.fst = sources := List.map_fst_zip hlength.le
  have hsnd : (sources.zip uploads).map Prod.snd = uploads := List.map_snd_zip hlength.ge
  rw [← hfst, List.map_map] at hjobs hids
  -- The jobs run in some order of the pairs of rows and uploads.
  obtain ⟨pairs, hpairs, rfl⟩ := exists_perm_of_map_perm hjobs
  have huploads : (pairs.map Prod.snd).Perm uploads := by
    rw [← hsnd]
    exact hpairs.map Prod.snd
  have hids' : (pairs.map fun pair => pair.1.id).Nodup := (hpairs.map _).nodup_iff.mpr hids
  have hkeys' : (pairs.map fun pair => pair.2.key rt collection.id).Nodup := by
    have hkeys := (huploads.map (PendingUpload.key rt collection.id)).nodup_iff.mpr hentered.nodup
    rw [List.map_map] at hkeys
    exact hkeys
  have hjobs := jobs_evolve hreadable hsound' hsettled' hcollection' hbatch hids' hkeys'
    fun pair hpair => hqueues pair (hpairs.subset hpair)
  have hworked : (pairs.map fun pair => pair.2.worked rt collection batch.uploadMetadata).Perm
      (uploads.map (PendingUpload.worked rt collection batch.uploadMetadata)) := by
    have hmapped := huploads.map (PendingUpload.worked rt collection batch.uploadMetadata)
    rw [List.map_map] at hmapped
    exact hmapped
  refine ⟨hentered, ?_⟩
  rw [List.map_map]
  refine hentered.overlays.covers (hjobs.overlays.of_perm hworked) fun key hkey => ?_
  obtain ⟨portrait, hportrait, rfl⟩ := List.mem_map.mp hkey
  obtain ⟨upload, hmem, rfl⟩ := List.mem_map.mp hportrait
  exact List.mem_map.mpr ⟨_, List.mem_map_of_mem hmem, PendingUpload.key_worked⟩

end Accepted

section Agreement

variable {db batched synced : Database} {rt : Runtime} {collection : Collection}
  {metadata : List (Str × Str)} {uploads : List PendingUpload}
  (hnodup : (uploads.map (PendingUpload.key rt collection.id)).Nodup)
  (hbatched : Overlays Portrait.key db.Shows batched.Shows
    (uploads.map (PendingUpload.worked rt collection metadata)))
  (hsynced : Overlays Portrait.key db.Shows synced.Shows
    (uploads.filterMap (db.synced rt collection metadata)))

theorem PendingUpload.worked_of_concludes {upload : PendingUpload}
    (h : db.Concludes rt collection metadata upload) :
    db.synced rt collection metadata upload = some (upload.worked rt collection metadata) := by
  rw [Database.synced, if_pos h, worked, if_pos h.2]

include hbatched hsynced

theorem looksLike_of_concludes (h : ∀ upload ∈ uploads, db.Concludes rt collection metadata upload) :
    batched.LooksLike synced := by
  have hentries : uploads.filterMap (db.synced rt collection metadata) =
      uploads.map (PendingUpload.worked rt collection metadata) := by
    rw [← List.filterMap_eq_map]
    exact List.filterMap_congr fun upload hmem => PendingUpload.worked_of_concludes (h upload hmem)
  intro portrait
  rw [hbatched portrait, hsynced portrait, hentries]

include hnodup

theorem concludes_of_looksLike (hlooks : batched.LooksLike synced) {upload : PendingUpload}
    (hmem : upload ∈ uploads) (hfree : db.Free (upload.key rt collection.id))
    (hreset : db.Has (upload.key rt collection.id) →
      rt.flushFault upload.filename .reset = none) :
    db.Concludes rt collection metadata upload := by
  by_contra hnot
  have hshown : synced.Shows (upload.worked rt collection metadata) :=
    (hlooks _).mp ((hbatched _).mpr (Or.inl (List.mem_map_of_mem hmem)))
  rcases (hsynced _).mp hshown with hentry | ⟨hbefore, _⟩
  · obtain ⟨other, hother, hsome⟩ := List.mem_filterMap.mp hentry
    have hkey := key_of_synced hsome
    rw [PendingUpload.key_worked] at hkey
    obtain rfl : upload = other := List.inj_on_of_nodup_map hnodup hmem hother hkey
    rw [Database.synced, if_neg hnot] at hsome
    cases hsome
  · -- The row was already there as the job leaves it, so it was neither admitted nor recorded.
    have hhas : db.Has (upload.key rt collection.id) := ⟨_, hbefore, PendingUpload.key_worked⟩
    have hadmitted : admissionFault rt upload.filename (Query.answer db (.sourceByHash collection.id
        (computeContentHash rt upload.fileBytes))) = none := by
      obtain ⟨existing, hexisting⟩ := Option.isSome_iff_exists.mp
        (Database.isSome_sourceByHash_iff.mpr hhas)
      rw [hexisting]
      exact hreset hhas
    have hstatus : ¬ LeavesStatus (upload.outcome rt collection metadata) :=
      fun hstatus => hnot ⟨hadmitted, hstatus⟩
    rw [PendingUpload.worked, if_neg hstatus] at hbefore
    rcases hfree _ hbefore rfl with hdeleted | hfailed
    · exact hdeleted rfl
    · cases hfailed

end Agreement

namespace Request

theorem settled_performAll (users : List Uuid) (requests : List Request) :
    (performAll requests (.empty users)).Sound ∧
      (performAll requests (.empty users)).database.Settled := by
  let inv : Server → Prop := fun server => server.database.Settled
  have hstep : ∀ server request, server.Sound → inv server → True → inv (perform request server) := by
    intro server request hsound hinv _
    obtain ⟨events, hfollows, _⟩ := steps hsound request
    change (perform request server).database.Settled
    rw [hfollows.database]
    exact hinv.play hsound.intact hfollows.admissible
  have hempty : inv (.empty users) := .empty users
  have hany : History.Admissible perform (fun _ _ => True) requests (Server.empty users) :=
    .of_forall (fun _ _ _ => trivial) _
  exact performAll_invariant (fun _ _ => True) hstep (.empty users) hempty hany

theorem performAll_routes {users : List Uuid} {requests : List Request} {rt : Runtime}
    (hreadable : rt.readFault = none) {user : Uuid} {collection : Collection}
    (hcollection : collection ∈ (performAll requests (.empty users)).database.kbCollections)
    (howned : collection.OwnedBy user) {metadata : List (Str × Str)} {uploads : List PendingUpload}
    (hplain : ∀ upload ∈ uploads, upload.dirPath = none) {batch : IngestBatch}
    {sources : List Source}
    (haccepted : (transact (uploadBatch rt user collection.id collection.kind metadata uploads)
      (performAll requests (.empty users))).1 = .ok (batch, sources)) {jobs : List Uuid}
    (hjobs : jobs.Perm (sources.map Source.id)) :
    let server := performAll requests (.empty users)
    let batched := Operation.performAll
      (.createPendingBatch rt user collection.id collection.kind metadata uploads ::
        jobs.map (.ingestSource rt)) server
    let synced := Operation.performAll (singleUploads rt user collection metadata uploads) server
    batched.database.LooksLike synced.database ↔
      ∀ upload ∈ uploads, server.database.Concludes rt collection metadata upload := by
  intro server batched synced
  obtain ⟨hsound, hsettled⟩ := settled_performAll users requests
  have hget := Table.get?_key hcollection
  obtain ⟨hentered, hbatched⟩ :=
    batch_overlays hsound haccepted hsettled hget hplain hreadable hjobs
  have hsynced := (singleUploads_evolve howned metadata hsound hsettled hget hentered.nodup
    hentered.free).overlays
  constructor
  · intro hlooks upload hmem
    exact concludes_of_looksLike hentered.nodup hbatched hsynced hlooks hmem
      (hentered.free upload hmem) (hentered.accepted upload hmem)
  · exact looksLike_of_concludes hbatched hsynced

def houseServer : Server := performAll [sampleCollection] (.empty [sampleUser])

def sampleUploads : List PendingUpload :=
  [{ filename := "guide.txt".toList, fileBytes := [103, 111], dirPath := none },
    { filename := "rules.txt".toList, fileBytes := [97], dirPath := none }]

def sampleBatched (rt : Runtime) : Server :=
  Operation.performAll
    [.createPendingBatch rt sampleUser sampleHouse.id sampleHouse.kind [] sampleUploads,
      .ingestSource rt ⟨1, 2⟩, .ingestSource rt ⟨1, 1⟩] houseServer

def sampleSynced (rt : Runtime) : Server :=
  Operation.performAll (singleUploads rt sampleUser sampleHouse [] sampleUploads) houseServer

theorem performAll_routes_reversed :
    (sampleBatched Runtime.reliable).database.LooksLike
      (sampleSynced Runtime.reliable).database := by
  have hcollection : sampleHouse ∈
      (performAll [sampleCollection] (.empty [sampleUser])).database.kbCollections :=
    Table.mem_def.mpr (by decide +kernel)
  have hsome : (transact (uploadBatch Runtime.reliable sampleUser sampleHouse.id sampleHouse.kind []
      sampleUploads) (performAll [sampleCollection] (.empty [sampleUser]))).1.toOption.isSome =
        true := by
    decide +kernel
  obtain ⟨⟨batch, sources⟩, haccepted⟩ := Except.exists_eq_ok hsome
  have hids : ((transact (uploadBatch Runtime.reliable sampleUser sampleHouse.id sampleHouse.kind []
      sampleUploads) (performAll [sampleCollection] (.empty [sampleUser]))).1.toOption.map
        fun accepted => accepted.2.map Source.id) = some [⟨1, 1⟩, ⟨1, 2⟩] := by
    decide +kernel
  rw [haccepted] at hids
  have hsources : sources.map Source.id = [⟨1, 1⟩, ⟨1, 2⟩] := Option.some.inj hids
  have hjobs : List.Perm [⟨1, 2⟩, ⟨1, 1⟩] (sources.map Source.id) := by
    rw [hsources]
    exact List.Perm.swap _ _ _
  have hplain : ∀ upload ∈ sampleUploads, upload.dirPath = none := by decide
  exact (performAll_routes rfl hcollection ⟨rfl, rfl⟩ hplain haccepted hjobs).mpr
    (by decide +kernel)

-- The heading of a Markdown file is too long for documents.title.
theorem not_looksLike_longTitle :
    ((transact (uploadBatch longTitleRuntime sampleUser sampleHouse.id sampleHouse.kind []
        sampleUploads) houseServer).1.toOption.map fun accepted => accepted.2.map Source.id) =
          some [⟨1, 1⟩, ⟨1, 2⟩] ∧
      ¬ (sampleBatched longTitleRuntime).database.LooksLike
        (sampleSynced longTitleRuntime).database := by
  refine ⟨by decide +kernel, fun hlooks => ?_⟩
  have hsynced : (sampleSynced longTitleRuntime).database.sources.rows = [] := by decide +kernel
  have hbatched : (sampleBatched longTitleRuntime).database.sources.rows ≠ [] := by decide +kernel
  obtain ⟨source, hsource⟩ := List.exists_mem_of_ne_nil _ hbatched
  obtain ⟨other, hother, _⟩ := (hlooks _).mp ⟨source, hsource, rfl⟩
  rw [Table.mem_def, hsynced] at hother
  exact List.not_mem_nil hother

end Request

end YCStudio
