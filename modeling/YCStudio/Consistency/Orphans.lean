import YCStudio.Consistency.BatchProgress
import YCStudio.Consistency.Originals

namespace YCStudio

namespace Database

variable {db : Database}

theorem exists_id_putSource {stored assigned source : Source} (hstored : stored ∈ db.sources)
    (hid : assigned.id = stored.id) (hsource : source ∈ db.sources) :
    ∃ row ∈ (db.putSource assigned).sources, row.id = source.id := by
  by_cases hsame : source.id = stored.id
  · exact ⟨assigned, mem_putSource hstored hid.symm, hid.trans hsame.symm⟩
  · exact ⟨source, ((AgreesOff.putSource db hid).mem_sources hsame).mpr hsource, rfl⟩

theorem exists_id_apply {e : Event} (henabled : e.Enabled db) (hkept : ∀ id, ¬ e.Drops id)
    {source : Source} (hsource : source ∈ db.sources) :
    ∃ row ∈ (e.apply db).sources, row.id = source.id := by
  cases e with
  | addCollection collection => exact ⟨source, hsource, rfl⟩
  | addBatch batch => exact ⟨source, hsource, rfl⟩
  | addSource added => exact ⟨source, (Table.mem_insert henabled.1).mpr (Or.inl hsource), rfl⟩
  | reopen stored assigned =>
    have hdropped : stored ∈ (db.dropDocuments [stored.id]).sources := henabled.1
    exact exists_id_putSource hdropped henabled.2.2.2.1 hsource
  | assignBatch stored batchId =>
    have hid : (stored.withBatch batchId).id = stored.id := rfl
    exact exists_id_putSource henabled.1 hid hsource
  | complete stored collection out =>
    have hid : (stored.withStatus .completed).id = stored.id := rfl
    exact exists_id_putSource henabled.1 hid hsource
  | fail stored errorMessage =>
    have hid : (stored.fail errorMessage).id = stored.id := rfl
    exact exists_id_putSource henabled.1 hid hsource
  | remove stored deletedAt =>
    have hid : (stored.softDelete deletedAt).id = stored.id := rfl
    have hstored : stored ∈ db.sources := henabled
    exact exists_id_putSource hstored hid hsource
  | dropCollection collectionId => exact absurd rfl (hkept collectionId)

theorem exists_id_play {events : List Event} (hadmissible : Event.Admissible events db)
    (hkept : ∀ e ∈ events, ∀ id, ¬ e.Drops id) {source : Source} (hsource : source ∈ db.sources)
    {id : Uuid} (hid : source.id = id) : ∃ row ∈ (Event.play events db).sources, row.id = id := by
  induction events generalizing db source with
  | nil => exact ⟨source, hsource, hid⟩
  | cons e events ih =>
    obtain ⟨hhead, hrest⟩ := List.forall_mem_cons.mp hkept
    obtain ⟨row, hrow, hsame⟩ := exists_id_apply hadmissible.1 hhead hsource
    exact ih hadmissible.2 hrest hrow (hsame.trans hid)

end Database

def Server.Housed (server : Server) : Prop :=
  ∀ entry ∈ server.files, ∃ source ∈ server.database.sources, source.id = entry.1.1

instance (server : Server) : Decidable server.Housed :=
  inferInstanceAs (Decidable (∀ entry ∈ server.files,
    ∃ source ∈ server.database.sources.rows, source.id = entry.1.1))

namespace Operation

def Tidy (op : Operation) (server : Server) : Prop :=
  match op with
  | deleteCollection user collectionId =>
      ∀ collection ∈ server.database.kbCollections.get? collectionId, collection.OwnedBy user →
        ∀ source ∈ server.database.sourcesOf collectionId,
          ∀ entry ∈ server.files, entry.1.1 ≠ source.id
  | createPendingBatch rt _ collectionId _ _ uploads =>
      op.originals server = [] ∨ rt.Lands uploads.length ∨
        ∀ upload ∈ written rt.saveFault 0 uploads,
          ∃ source ∈ server.database.sourcesOf collectionId,
            source.contentHash = computeContentHash rt upload.fileBytes
  | _ => True

theorem Step.keeps_sources {server : Server} {op : Operation} {events : List Event}
    (hstep : Step server op events) (hadmissible : Event.Admissible events server.database)
    (htidy : op.Tidy server) {entry : Original} (hentry : entry ∈ server.files) {source : Source}
    (hsource : source ∈ server.database.sources) (hid : source.id = entry.1.1) :
    ∃ row ∈ (Event.play events server.database).sources, row.id = entry.1.1 := by
  have hkept (hdrops : ∀ e ∈ events, ∀ id, ¬ e.Drops id) :=
    Database.exists_id_play hadmissible hdrops hsource hid
  cases hstep with
  | idle => exact ⟨source, hsource, hid⟩
  | created => exact hkept (List.forall_mem_singleton.mpr nofun)
  | uploaded hresult hstep => exact hkept fun e he => (hstep.steady e he).2
  | batched hresult haccepted =>
    exact hkept (List.forall_mem_cons.mpr ⟨nofun, haccepted.adoptions.adoptsAll.keeps⟩)
  | worked hstep => exact hkept fun e he => (hstep.steady e he).2
  | removed hsource => exact hkept (List.forall_mem_singleton.mpr nofun)
  | @dropped user collectionId collection hcollection howned =>
    have hother : source.collectionId ≠ collectionId := by
      intro hcid
      have hmem : source ∈ server.database.sourcesOf collectionId :=
        List.mem_filter.mpr ⟨hsource, decide_eq_true hcid⟩
      exact htidy collection hcollection howned source hmem entry hentry hid.symm
    exact ⟨_, Database.mem_sources_dropCollection.mpr ⟨source, hsource, hother, rfl⟩, hid⟩
  | seeded hrun =>
    have hsteady : ∀ e ∈ events, e.Steady := hrun.forall fun _ _ _ _ hstep => hstep.steady
    exact hkept fun e he => (hsteady e he).2

end Operation

def Request.Tidy : Request → Server → Prop
  | uploadFile _ _ _ _ _ _ _, _ => True
  | operation op, server => op.Tidy server

theorem Acceptance.housed_undone {rt : Runtime} {server : Server} {user collectionId : Uuid}
    {metadata : List (Str × Str)} {uploads : List PendingUpload} {batch : IngestBatch}
    {sources : List Source} {groups : List (List Event)} (hintact : server.database.Intact)
    (h : Acceptance rt server.database user collectionId metadata uploads batch sources groups)
    (hadmissible : Event.Admissible (.addBatch batch :: groups.flatten) server.database)
    (hwritten : ∀ upload ∈ written rt.saveFault 0 uploads,
      ∃ source ∈ server.database.sourcesOf collectionId,
        source.contentHash = computeContentHash rt upload.fileBytes) :
    ∀ original ∈ written rt.saveFault 0 (originalsOf sources uploads),
      ∃ source ∈ server.database.sources, source.id = original.1.1 := by
  intro original horiginal
  rw [originalsOf, written_map] at horiginal
  obtain ⟨⟨source, upload⟩, hpair, rfl⟩ := List.mem_map.mp horiginal
  have hsecond : (sources.zip uploads).map Prod.snd = uploads :=
    List.map_snd_zip h.adoptions.length_eq.ge
  have hupload : upload ∈ written rt.saveFault 0 uploads := by
    rw [← hsecond, written_map]
    exact List.mem_map_of_mem hpair
  obtain ⟨row, hrow, hhash⟩ := hwritten upload hupload
  obtain ⟨hrow, hcid⟩ := List.mem_filter.mp hrow
  have hzip := mem_of_written hpair
  obtain ⟨hsourceHash, _, hsourceCid⟩ := h.adoptions.pairs _ hzip
  have hcollection : row.collectionId = source.collectionId :=
    (of_decide_eq_true hcid).trans (hsourceCid.trans h.collectionId_eq).symm
  have hintact' : (server.database.addBatch batch).Intact := hintact.apply hadmissible.1
  exact ⟨row, hrow, h.adoptions.id_eq_of_content hadmissible.2 hintact' hrow
    (List.of_mem_zip hzip).1 hcollection (hhash.trans hsourceHash.symm)⟩

namespace Request

variable {server : Server} {request : Request} {events : List Event} {originals : List Original}

theorem Stores.keeps_sources (hstores : Stores server request events originals)
    (hadmissible : Event.Admissible events server.database) (htidy : request.Tidy server)
    {entry : Original} (hentry : entry ∈ server.files) {source : Source}
    (hsource : source ∈ server.database.sources) (hid : source.id = entry.1.1) :
    ∃ row ∈ (Event.play events server.database).sources, row.id = entry.1.1 := by
  have hkept (hdrops : ∀ e ∈ events, ∀ id, ¬ e.Drops id) :=
    Database.exists_id_play hadmissible hdrops hsource hid
  cases hstores with
  | kept hstep hrefused =>
    have hservice : request.service.Tidy server := by
      cases request with
      | uploadFile => exact trivial
      | operation op => exact htidy
    exact hstep.keeps_sources hadmissible hservice hentry hsource hid
  | @uploaded rt user collectionId kind filename fileBytes metadata collection existing =>
    apply hkept
    refine List.forall_mem_cons.mpr ⟨?_, List.forall_mem_singleton.mpr nofun⟩
    cases existing <;> exact nofun
  | saved haccepted hlands =>
    exact hkept (List.forall_mem_cons.mpr ⟨nofun, haccepted.adoptions.adoptsAll.keeps⟩)
  | undone => exact ⟨source, hsource, hid⟩

theorem Stores.houses (hstores : Stores server request events originals)
    (horiginals : request.originals server = originals) (hintact : server.database.Intact)
    (hadmissible : Event.Admissible events server.database) (htidy : request.Tidy server) :
    ∀ original ∈ written request.saveFault 0 originals,
      ∃ row ∈ (Event.play events server.database).sources, row.id = original.1.1 := by
  intro original hwritten
  cases hstores with
  | kept => exact absurd hwritten List.not_mem_nil
  | @uploaded rt user collectionId kind filename fileBytes metadata collection existing id documentId now
      source out =>
    rw [List.mem_singleton.mp (mem_of_written hwritten)]
    exact ⟨source.withStatus .completed, Database.mem_putSource hadmissible.2.1.1 rfl, rfl⟩
  | saved haccepted hlands =>
    obtain ⟨pair, hpair, rfl⟩ := mem_originalsOf.mp (mem_of_written hwritten)
    exact ⟨pair.1, haccepted.adoptions.mem hadmissible.2 pair.1 (List.of_mem_zip hpair).1, rfl⟩
  | undone haccepted hundone hdrawn hlands =>
    have hne : originalsOf _ _ ≠ [] := fun h => by
      rw [h] at hwritten
      exact absurd hwritten List.not_mem_nil
    rcases htidy with hnone | hlanded | hheld
    · exact absurd (horiginals.symm.trans hnone) hne
    · exact absurd hlanded hlands
    · exact haccepted.housed_undone hintact hundone hheld original hwritten

theorem housed_perform (hsound : server.Sound) (hhoused : server.Housed)
    (htidy : request.Tidy server) : (request.perform server).Housed := by
  obtain ⟨events, hfollows, hfiles, hstores⟩ := steps hsound request
  intro entry hentry
  rw [hfiles] at hentry
  rw [hfollows.database]
  rcases Files.mem_receiveAll hentry with hold | ⟨original, hwritten, hpath⟩
  · obtain ⟨source, hsource, hid⟩ := hhoused entry hold
    exact hstores.keeps_sources hfollows.admissible htidy hold hsource hid
  · rw [← hpath]
    exact hstores.houses rfl hsound.intact hfollows.admissible htidy original hwritten

theorem performAll_housed {users : List Uuid} {requests : List Request}
    (htidy : History.Admissible perform Tidy requests (.empty users)) :
    (performAll requests (.empty users)).Housed := by
  have hempty : (Server.empty users).Housed := fun _ h => absurd h List.not_mem_nil
  exact (performAll_invariant Tidy (fun _ _ hsound hhoused htidy =>
    housed_perform hsound hhoused htidy) (.empty users) hempty htidy).2

theorem performAll_housed_stored :
    (performAll [sampleCollection, sampleUpload fun _ => none, operation .sampleBatch]
      (.empty [sampleUser])).Housed :=
  performAll_housed ⟨trivial, trivial, Or.inr (Or.inl (by decide)), trivial⟩

theorem not_housed_of_deletedCollection :
    ¬ (performAll [sampleCollection, sampleUpload fun _ => none,
      operation (.deleteCollection sampleUser sampleCollectionId)] (.empty [sampleUser])).Housed := by
  decide +kernel

end Request

end YCStudio
