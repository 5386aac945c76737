import YCStudio.Consistency.Routes

namespace YCStudio

theorem Event.keeps_play {events : List Event} (h : ∀ e ∈ events, e.sourceId ≠ none) (db : Database) :
    (Event.play events db).kbCollections = db.kbCollections ∧
      (Event.play events db).ingestBatches = db.ingestBatches := by
  induction events generalizing db with
  | nil => exact ⟨rfl, rfl⟩
  | cons e events ih =>
    obtain ⟨hhead, hrest⟩ := List.forall_mem_cons.mp h
    obtain ⟨hcollections, hbatches⟩ := ih hrest (e.apply db)
    have hkept : (e.apply db).kbCollections = db.kbCollections ∧
        (e.apply db).ingestBatches = db.ingestBatches := by
      cases e with
      | addCollection collection => exact absurd rfl hhead
      | addBatch batch => exact absurd rfl hhead
      | dropCollection id => exact absurd rfl hhead
      | _ => exact ⟨rfl, rfl⟩
    exact ⟨hcollections.trans hkept.1, hbatches.trans hkept.2⟩

structure Server.Evolves (before after : Server) (entries : List Portrait) : Prop where
  sound : after.Sound
  settled : after.database.Settled
  kbCollections : after.database.kbCollections = before.database.kbCollections
  ingestBatches : after.database.ingestBatches = before.database.ingestBatches
  overlays : Overlays Portrait.key before.database.Shows after.database.Shows entries

theorem Server.Follows.evolves {server server' : Server} {events : List Event}
    {entries : List Portrait} (h : server.Follows server' events) (hsound : server.Sound)
    (hsettled : server.database.Settled) (hevents : ∀ e ∈ events, e.sourceId ≠ none)
    (hoverlays : Overlays Portrait.key server.database.Shows
      (Event.play events server.database).Shows entries) : server.Evolves server' entries := by
  obtain ⟨hcollections, hbatches⟩ := Event.keeps_play hevents server.database
  constructor
  · exact h.sound
  · rw [h.database]
    exact hsettled.play hsound.intact h.admissible
  · rw [h.database, hcollections]
  · rw [h.database, hbatches]
  · rw [h.database]
    exact hoverlays

theorem Server.Follows.stays {server server' : Server} (h : server.Follows server' [])
    (hsound : server.Sound) (hsettled : server.database.Settled) : server.Evolves server' [] :=
  h.evolves hsound hsettled (fun _ he => absurd he List.not_mem_nil)
    (Overlays.refl server.database.Shows)

theorem admission_sourceId {existing : Option Source} {collectionId : Uuid}
    {filename contentHash : Str} {dirPath : Option Str} {id : Uuid} {now : Timestamp} :
    let source := admitted existing collectionId filename contentHash dirPath id now
    (admission existing source).sourceId = some source.id := by
  cases existing <;> rfl

theorem settled_sourceId {admitted : List Event} {source : Source}
    (hadmitted : ∀ e ∈ admitted, e.sourceId = some source.id) (collection : Collection)
    (outcome : Except Failure Ingested) :
    ∀ e ∈ settled admitted source collection outcome, e.sourceId = some source.id :=
  forall_settled hadmitted (fun _ _ => rfl) fun _ => rfl

section Synced

variable {rt : Runtime} {collection : Collection} {metadata : List (Str × Str)}
  {upload : PendingUpload}

def Database.Concludes (db : Database) (rt : Runtime) (collection : Collection)
    (metadata : List (Str × Str)) (upload : PendingUpload) : Prop :=
  admissionFault rt upload.filename (Query.answer db (.sourceByHash collection.id
    (computeContentHash rt upload.fileBytes))) = none ∧
    LeavesStatus (upload.outcome rt collection metadata)

instance (db : Database) : Decidable (db.Concludes rt collection metadata upload) :=
  inferInstanceAs (Decidable (_ ∧ _))

def Database.synced (db : Database) (rt : Runtime) (collection : Collection)
    (metadata : List (Str × Str)) (upload : PendingUpload) : Option Portrait :=
  if db.Concludes rt collection metadata upload then some (upload.concluded rt collection metadata)
  else none

theorem admissionFault_congr (rt : Runtime) (filename : Str) {existing existing' : Option Source}
    (h : existing'.isSome = existing.isSome) :
    admissionFault rt filename existing' = admissionFault rt filename existing := by
  cases existing <;> cases existing' <;> first | rfl | cases h

theorem Database.synced_congr {db db' : Database} {entries : List Portrait}
    (h : Overlays Portrait.key db.Shows db'.Shows entries)
    (hkey : upload.key rt collection.id ∉ entries.map Portrait.key) :
    db'.synced rt collection metadata upload = db.synced rt collection metadata upload := by
  have hsome : (Query.answer db' (.sourceByHash collection.id
      (computeContentHash rt upload.fileBytes)) : Option Source).isSome =
        (Query.answer db (.sourceByHash collection.id
          (computeContentHash rt upload.fileBytes)) : Option Source).isSome := by
    rw [Bool.eq_iff_iff, isSome_sourceByHash_iff, isSome_sourceByHash_iff]
    exact has_iff_of_overlays h hkey
  have hiff : db'.Concludes rt collection metadata upload ↔
      db.Concludes rt collection metadata upload := by
    rw [Concludes, Concludes, admissionFault_congr rt upload.filename hsome]
  rw [synced, synced]
  exact if_congr hiff rfl rfl

theorem key_of_synced {db : Database} {portrait : Portrait}
    (h : portrait ∈ db.synced rt collection metadata upload) :
    portrait.key = upload.key rt collection.id := by
  rw [Database.synced] at h
  split at h
  · rw [← Option.some.inj h]
    exact PendingUpload.key_concluded
  · cases h

theorem waitsIn_admitted {db : Database} {existing : Option Source}
    (hexisting : Query.answer db (.sourceByHash collection.id
      (computeContentHash rt upload.fileBytes)) = existing) (id : Uuid) (now : Timestamp) :
    upload.WaitsIn rt collection.id (admitted existing collection.id upload.filename
      (computeContentHash rt upload.fileBytes) none id now) := by
  obtain ⟨hcollection, hhash⟩ := admitted_content hexisting upload.filename none id now
  refine ⟨?_, hcollection, ?_, hhash, ?_⟩
  · cases existing <;> exact ⟨rfl, rfl, rfl⟩
  · cases existing <;> rfl
  · cases existing <;> rfl

theorem overlays_admission {db : Database} (hintact : db.Intact) (hsettled : db.Settled)
    {existing : Option Source} (hexisting : Query.answer db (.sourceByHash collection.id
      (computeContentHash rt upload.fileBytes)) = existing) {source : Source}
    (hsource : (admission existing source).sourceId = some source.id)
    (hwaits : upload.WaitsIn rt collection.id source)
    (henabled : (admission existing source).Enabled db) :
    Overlays Portrait.key db.Shows ((admission existing source).apply db).Shows
      [upload.portrait rt collection.id] := by
  have hmem := (mem_admission henabled).1
  have hempty := ((hsettled.apply hintact henabled source hmem).documentsOf_eq_nil
    hwaits.admits.pending hwaits.admits.deletedAt).2
  rw [← hwaits.portrait_eq hempty]
  refine (Database.AgreesOff.apply henabled hsource).overlays (hintact.apply henabled) hmem rfl
    fun old hold hid => ?_
  cases existing with
  | none => exact absurd hid (henabled.1 old hold)
  | some existing =>
    obtain ⟨hstored, hcollection, hhash⟩ := Query.sourceByHash_eq_some hexisting
    have hexistingId : existing.id = source.id := Option.some.inj hsource
    rw [Table.eq_of_key_eq hold hstored (hid.trans hexistingId.symm), hwaits.key_eq]
    exact Prod.ext hcollection hhash

end Synced

section Upload

variable {server : Server} (hsound : server.Sound) (hsettled : server.database.Settled)
  {rt : Runtime} {user : Uuid} {collection : Collection}
  (hcollection : server.database.kbCollections.get? collection.id = some collection)
  (howned : collection.OwnedBy user) (metadata : List (Str × Str)) {upload : PendingUpload}
  (hfree : server.database.Free (upload.key rt collection.id))

include hsound hsettled hcollection howned hfree

theorem ingestPrivateUpload_stays {e : Exn} (hfault : admissionFault rt upload.filename
    (Query.answer server.database (.sourceByHash collection.id
      (computeContentHash rt upload.fileBytes))) = some e) :
    server.Evolves (transact (ingestPrivateUpload rt user collection.id collection.kind
      upload.filename upload.fileBytes metadata) server).2 [] := by
  have howner := ownedPrivateCollection_runs hsound.ready.active hcollection howned rfl
  obtain ⟨w', hruns, hlost⟩ := ingestDocument_lost hsound.ready rt upload.filename upload.fileBytes
    none (some metadata) none rfl (hfree.filter_eq_none rfl) hcollection hfault
  obtain ⟨e', w'', hdone, hends⟩ := ingestPrivateUpload_loses howner hruns hlost
  exact (hsound.transact (.of_runs hdone hends)).stays hsound hsettled

omit hsettled in
theorem ingestPrivateUpload_attempts {existing : Option Source}
    (hexisting : Query.answer server.database (.sourceByHash collection.id
      (computeContentHash rt upload.fileBytes)) = existing)
    (hfault : admissionFault rt upload.filename existing = none) :
    ∃ source outcome, upload.WaitsIn rt collection.id source ∧
      (admission existing source).sourceId = some source.id ∧
      outcome.map Ingested.portrait =
        (upload.outcome rt collection metadata).map Ingested.portrait ∧
      server.Follows (transact (ingestPrivateUpload rt user collection.id collection.kind
        upload.filename upload.fileBytes metadata) server).2
        (settled [admission existing source] source collection outcome) := by
  obtain ⟨result, w', hdone, hends, _⟩ := ingestPrivateUpload_attempted hsound.ready rt
    upload.filename upload.fileBytes metadata hcollection howned rfl hexisting
    (hfree.filter_eq_none hexisting) hfault
  have hwaits := waitsIn_admitted hexisting ⟨server.connect.session.stream,
    server.connect.session.drawn⟩ server.connect.session.now
  exact ⟨_, _, hwaits, admission_sourceId, hwaits.outcome_eq metadata _ _,
    hsound.transact (.of_runs hdone hends)⟩

theorem ingestPrivateUpload_evolves :
    server.Evolves (transact (ingestPrivateUpload rt user collection.id collection.kind
      upload.filename upload.fileBytes metadata) server).2
      (server.database.synced rt collection metadata upload).toList := by
  cases hfault : admissionFault rt upload.filename (Query.answer server.database
    (.sourceByHash collection.id (computeContentHash rt upload.fileBytes))) with
  | some e =>
    have hnot : ¬ server.database.Concludes rt collection metadata upload :=
      fun hconcludes => Option.some_ne_none e (hfault.symm.trans hconcludes.1)
    rw [Database.synced, if_neg hnot]
    exact ingestPrivateUpload_stays hsound hsettled hcollection howned metadata hfree hfault
  | none =>
    obtain ⟨source, outcome, hwaits, hsource, houtcome, hfollows⟩ :=
      ingestPrivateUpload_attempts hsound hcollection howned metadata hfree rfl hfault
    have hiff := leavesStatus_congr houtcome
    by_cases hstatus : LeavesStatus (upload.outcome rt collection metadata)
    · rw [Database.synced, if_pos ⟨hfault, hstatus⟩, Option.toList_some]
      have hevents := settled_sourceId (List.forall_mem_singleton.mpr hsource) collection outcome
      refine hfollows.evolves hsound hsettled
        (fun e he => hevents e he ▸ Option.some_ne_none source.id) ?_
      have hplayed := hfollows.admissible
      rw [settled_append (hiff.mpr hstatus)] at hplayed ⊢
      obtain ⟨henabled, hattempt⟩ := hplayed
      have hadmitted := overlays_admission hsound.intact hsettled rfl hsource hwaits henabled
      have hworked := hwaits.overlays (hsound.intact.apply henabled)
        (hsettled.apply hsound.intact henabled) (mem_admission henabled).1 houtcome hattempt
      rw [PendingUpload.worked, if_pos hstatus] at hworked
      refine hadmitted.covers hworked ?_
      simp
    · have hnot : ¬ server.database.Concludes rt collection metadata upload :=
        fun hconcludes => hstatus hconcludes.2
      rw [settled_eq_nil (mt hiff.mp hstatus)] at hfollows
      rw [Database.synced, if_neg hnot]
      exact hfollows.stays hsound hsettled

end Upload

theorem Server.Evolves.trans {server server' server'' : Server} {entries others : List Portrait}
    (h : server.Evolves server' entries) (h' : server'.Evolves server'' others)
    (hdisjoint : ∀ key ∈ entries.map Portrait.key, key ∉ others.map Portrait.key) :
    server.Evolves server'' (entries ++ others) where
  sound := h'.sound
  settled := h'.settled
  kbCollections := h'.kbCollections.trans h.kbCollections
  ingestBatches := h'.ingestBatches.trans h.ingestBatches
  overlays := h.overlays.trans h'.overlays hdisjoint

section Uploads

variable {rt : Runtime} {user : Uuid} {collection : Collection} (howned : collection.OwnedBy user)
  (metadata : List (Str × Str))

def singleUploads (rt : Runtime) (user : Uuid) (collection : Collection)
    (metadata : List (Str × Str)) (uploads : List PendingUpload) : List Operation :=
  uploads.map fun upload => .ingestPrivateUpload rt user collection.id collection.kind
    upload.filename upload.fileBytes metadata

include howned

theorem singleUploads_evolve {server : Server} {uploads : List PendingUpload}
    (hsound : server.Sound) (hsettled : server.database.Settled)
    (hcollection : server.database.kbCollections.get? collection.id = some collection)
    (hnodup : (uploads.map (PendingUpload.key rt collection.id)).Nodup)
    (hfree : ∀ upload ∈ uploads, server.database.Free (upload.key rt collection.id)) :
    server.Evolves
      (Operation.performAll (singleUploads rt user collection metadata uploads) server)
      (uploads.filterMap (server.database.synced rt collection metadata)) := by
  induction uploads generalizing server with
  | nil => exact ⟨hsound, hsettled, rfl, rfl, .refl _⟩
  | cons upload uploads ih =>
    obtain ⟨hnew, hnodup'⟩ := List.nodup_cons.mp hnodup
    obtain ⟨hhead, hrest⟩ := List.forall_mem_cons.mp hfree
    have hstep := ingestPrivateUpload_evolves hsound hsettled hcollection howned metadata hhead
    let server' := (transact (ingestPrivateUpload rt user collection.id collection.kind
      upload.filename upload.fileBytes metadata) server).2
    let entries := (server.database.synced rt collection metadata upload).toList
    have hkeys : ∀ key ∈ entries.map Portrait.key, key = upload.key rt collection.id := by
      intro key hkey
      obtain ⟨portrait, hportrait, rfl⟩ := List.mem_map.mp hkey
      exact key_of_synced (Option.mem_toList.mp hportrait)
    have hlater : ∀ later ∈ uploads, later.key rt collection.id ∉ entries.map Portrait.key :=
      fun later hmem hkey => hnew (hkeys _ hkey ▸ List.mem_map_of_mem hmem)
    have hcollection' : server'.database.kbCollections.get? collection.id = some collection :=
      hstep.kbCollections ▸ hcollection
    have htail := ih hstep.sound hstep.settled hcollection' hnodup'
      fun later hmem => (hrest later hmem).of_overlays hstep.overlays (hlater later hmem)
    have hsame : uploads.filterMap (server'.database.synced rt collection metadata) =
        uploads.filterMap (server.database.synced rt collection metadata) :=
      List.filterMap_congr fun later hmem =>
        Database.synced_congr hstep.overlays (hlater later hmem)
    rw [hsame] at htail
    have hall : (upload :: uploads).filterMap (server.database.synced rt collection metadata) =
        entries ++ uploads.filterMap (server.database.synced rt collection metadata) := by
      rw [List.filterMap_eq_flatMap_toList, List.filterMap_eq_flatMap_toList, List.flatMap_cons]
    rw [hall]
    refine hstep.trans htail fun key hkey hin => ?_
    obtain ⟨portrait, hportrait, rfl⟩ := List.mem_map.mp hin
    obtain ⟨later, hmem, hshown⟩ := List.mem_filterMap.mp hportrait
    exact hlater later hmem (key_of_synced hshown ▸ hkey)

end Uploads

section Jobs

variable {rt : Runtime} {collection : Collection} {batch : IngestBatch}

structure Server.Queues (server : Server) (rt : Runtime) (collection : Collection)
    (batch : IngestBatch) (source : Source) (upload : PendingUpload) : Prop where
  stored : source ∈ server.database.sources
  waits : upload.WaitsIn rt collection.id source
  batchId_eq : source.batchId = some batch.id
  content : server.files.lookup (source.id, purePathName source.filename) = some upload.fileBytes

theorem ingestSource_evolves {server : Server} (hsound : server.Sound)
    (hsettled : server.database.Settled) (hreadable : rt.readFault = none)
    (hcollection : server.database.kbCollections.get? collection.id = some collection)
    (hbatch : server.database.ingestBatches.get? batch.id = some batch) {source : Source}
    {upload : PendingUpload} (hqueues : server.Queues rt collection batch source upload) :
    let server' := (transact (ingestSource rt source.id) server).2
    server.Evolves server' [upload.worked rt collection batch.uploadMetadata] ∧
      server.database.AgreesOff server'.database source.id ∧ server'.files = server.files := by
  intro server'
  have hwaits := hqueues.waits
  have hread := Runs.readFile (w := server.connect) hqueues.content
  rw [← hreadable] at hread
  have hbatch' : Query.answer server.database (.batch source.batchId) = some batch := by
    rw [hqueues.batchId_eq]
    exact hbatch
  have hcollection' : Query.answer server.database (.collection source.collectionId) =
      some collection := by
    rw [hwaits.collectionId_eq]
    exact hcollection
  obtain ⟨outcome, houtcome, hfollows⟩ : ∃ outcome, outcome.map Ingested.portrait =
      (upload.outcome rt collection batch.uploadMetadata).map Ingested.portrait ∧
        server.Follows server' (settled [] source collection outcome) := by
    refine ⟨_, ?_, hsound.transact (ingestSource_settles hsound.ready rt
      (Table.get?_key hqueues.stored) hwaits.admits.pending hbatch' hcollection' hread)⟩
    rw [hwaits.filename_eq]
    exact hwaits.outcome_eq batch.uploadMetadata _ _
  have hevents : ∀ e ∈ settled [] source collection outcome, e.sourceId = some source.id :=
    settled_sourceId (fun _ he => absurd he List.not_mem_nil) collection outcome
  refine ⟨hfollows.evolves hsound hsettled
    (fun e he => hevents e he ▸ Option.some_ne_none source.id) ?_, ?_, ?_⟩
  · exact hwaits.overlays hsound.intact hsettled hqueues.stored houtcome hfollows.admissible
  · rw [hfollows.database]
    exact .play hfollows.admissible hevents
  · exact (keepsFiles_ingestSource rt source.id).transact server

theorem jobs_evolve (hreadable : rt.readFault = none) {server : Server}
    {pairs : List (Source × PendingUpload)} (hsound : server.Sound)
    (hsettled : server.database.Settled)
    (hcollection : server.database.kbCollections.get? collection.id = some collection)
    (hbatch : server.database.ingestBatches.get? batch.id = some batch)
    (hids : (pairs.map fun pair => pair.1.id).Nodup)
    (hkeys : (pairs.map fun pair => pair.2.key rt collection.id).Nodup)
    (hqueues : ∀ pair ∈ pairs, server.Queues rt collection batch pair.1 pair.2) :
    server.Evolves
      (Operation.performAll (pairs.map fun pair => .ingestSource rt pair.1.id) server)
      (pairs.map fun pair => pair.2.worked rt collection batch.uploadMetadata) := by
  induction pairs generalizing server with
  | nil => exact ⟨hsound, hsettled, rfl, rfl, .refl _⟩
  | cons pair pairs ih =>
    obtain ⟨source, upload⟩ := pair
    obtain ⟨hid, hids'⟩ := List.nodup_cons.mp hids
    obtain ⟨hkey, hkeys'⟩ := List.nodup_cons.mp hkeys
    obtain ⟨hhead, hrest⟩ := List.forall_mem_cons.mp hqueues
    obtain ⟨hstep, hagrees, hfiles⟩ :=
      ingestSource_evolves hsound hsettled hreadable hcollection hbatch hhead
    have hwaiting : ∀ later ∈ pairs, (transact (ingestSource rt source.id) server).2.Queues rt
        collection batch later.1 later.2 := by
      intro later hmem
      have hlater := hrest later hmem
      have hne : later.1.id ≠ source.id :=
        fun hsame => hid (List.mem_map.mpr ⟨later, hmem, hsame⟩)
      exact ⟨(hagrees.mem_sources hne).mpr hlater.stored, hlater.waits, hlater.batchId_eq,
        hfiles ▸ hlater.content⟩
    have htail := ih hstep.sound hstep.settled (hstep.kbCollections ▸ hcollection)
      (hstep.ingestBatches ▸ hbatch) hids' hkeys' hwaiting
    refine hstep.trans htail fun key hin hlater => hkey ?_
    obtain ⟨portrait, hportrait, rfl⟩ := List.mem_map.mp hlater
    obtain ⟨later, hmem, rfl⟩ := List.mem_map.mp hportrait
    have hsame := List.mem_singleton.mp hin
    rw [PendingUpload.key_worked, PendingUpload.key_worked] at hsame
    exact List.mem_map.mpr ⟨later, hmem, hsame⟩

end Jobs

end YCStudio
