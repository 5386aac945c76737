import YCStudio.Consistency.Awaiting
import YCStudio.Consistency.ContentHashes
import YCStudio.Consistency.Requests

namespace YCStudio

def Operation.Hashes (sha256 : Bytes → Str) : Operation → Prop
  | ingestPrivateUpload rt _ _ _ _ _ _ => rt.sha256 = sha256
  | createPendingBatch rt _ _ _ _ _ => rt.sha256 = sha256
  | seedPublicLibraries rt _ => rt.sha256 = sha256
  | _ => True

namespace Request

def Hashes (sha256 : Bytes → Str) : Request → Prop
  | uploadFile rt _ _ _ _ _ _ => rt.sha256 = sha256
  | operation op => op.Hashes sha256

def Whole (request : Request) (server : Server) : Prop :=
  SavesWhole request.saveFault 0 (request.originals server)

instance (request : Request) (server : Server) : Decidable (request.Whole server) :=
  SavesWhole.decide _ _ _

def handed : List Request → Server → List Original
  | [], _ => []
  | request :: requests, server =>
      request.originals server ++ handed requests (request.perform server)

end Request

theorem mem_originalsOf {sources : List Source} {uploads : List PendingUpload} {original : Original} :
    original ∈ originalsOf sources uploads ↔ ∃ pair ∈ sources.zip uploads,
      original = ((pair.1.id, purePathName pair.1.filename), pair.2.fileBytes) := by
  rw [originalsOf, List.mem_map]
  simp only [eq_comm]

theorem exists_mem_zip {sources : List Source} {uploads : List PendingUpload}
    (hlength : sources.length = uploads.length) {source : Source} (hsource : source ∈ sources) :
    ∃ upload, (source, upload) ∈ sources.zip uploads := by
  have hfirst : (sources.zip uploads).map Prod.fst = sources := List.map_fst_zip hlength.le
  rw [← hfirst] at hsource
  obtain ⟨⟨_, upload⟩, hpair, rfl⟩ := List.mem_map.mp hsource
  exact ⟨upload, hpair⟩

section Acceptance

variable {rt : Runtime} {db : Database} {user collectionId : Uuid} {metadata : List (Str × Str)}
  {uploads : List PendingUpload} {batch : IngestBatch} {sources : List Source}
  {groups : List (List Event)}
  (h : Acceptance rt db user collectionId metadata uploads batch sources groups)

include h

theorem Acceptance.owned_play :
    (Event.play (.addBatch batch :: groups.flatten) db).Owned batch.collectionId ∧
      db.Owned batch.collectionId := by
  obtain ⟨collection, hcollection, howned⟩ := h.owned
  obtain ⟨hmem, hid⟩ := Table.get?_eq_some_iff.mp hcollection
  have huser : collection.userId ≠ none := howned.userId ▸ Option.some_ne_none user
  have hentered : ∀ e ∈ groups.flatten, ∃ sourceId, e.Enters batch.collectionId sourceId := by
    intro e he
    obtain ⟨source, _, henters⟩ := h.adoptions.adoptsAll.enters e he
    exact ⟨source.id, henters⟩
  have hsame := (Event.Enters.play hentered (db.addBatch batch)).2
  have howner : ∃ collection ∈ db.kbCollections, collection.id = batch.collectionId ∧
      collection.userId ≠ none := ⟨collection, hmem, hid.trans h.collectionId_eq.symm, huser⟩
  refine ⟨?_, howner⟩
  rw [Database.Owned, Event.play, History.play_cons, ← Event.play, Event.apply, hsame]
  exact howner

theorem Acceptance.pinned
    (hadmissible : Event.Admissible (.addBatch batch :: groups.flatten) db) :
    ∀ original ∈ originalsOf sources uploads,
      (Event.play (.addBatch batch :: groups.flatten) db).Pins original.1.1
        (computeContentHash rt original.2) := by
  intro original horiginal
  obtain ⟨⟨source, upload⟩, hpair, rfl⟩ := mem_originalsOf.mp horiginal
  obtain ⟨hhash, _, hcollection⟩ := h.adoptions.pairs _ hpair
  have hmem := h.adoptions.mem hadmissible.2 source (List.of_mem_zip hpair).1
  have howned := h.owned_play.1
  rw [← hcollection] at howned
  have hpins := Database.pins_of_mem hmem howned
  rwa [hhash] at hpins

theorem Acceptance.pinned_undone
    (hadmissible : Event.Admissible (.addBatch batch :: groups.flatten) db) {clock : Nat}
    (hpast : db.Ids (·.stream < clock))
    (hdrawn : ∀ e ∈ groups.flatten, ∀ id ∈ e.newIds, id.stream = clock) :
    ∀ original ∈ originalsOf sources uploads, original.1.1.stream < clock + 1 ∧
      db.Pins original.1.1 (computeContentHash rt original.2) := by
  intro original horiginal
  obtain ⟨⟨source, upload⟩, hpair, rfl⟩ := mem_originalsOf.mp horiginal
  obtain ⟨hhash, _, hcollection⟩ := h.adoptions.pairs _ hpair
  rcases h.adoptions.origin hadmissible.2 source (List.of_mem_zip hpair).1 with
    ⟨hfresh, e, he, hnew⟩ | ⟨row, hrow, hid, hrowHash, hrowCollection⟩
  · have hstream : source.id.stream = clock := hdrawn e he source.id hnew
    exact ⟨hstream ▸ Nat.lt_succ_self _, Database.pins_of_fresh hfresh⟩
  · have howned : db.Owned row.collectionId := by
      rw [hrowCollection, hcollection]
      exact h.owned_play.2
    have hpins := Database.pins_of_mem hrow howned
    rw [hrowHash, hhash, hid] at hpins
    exact ⟨hid ▸ Nat.lt_succ_of_lt (hpast.sources row hrow), hpins⟩

end Acceptance

-- The file at path_for(source.id, source.filename).
def Server.original (server : Server) (source : Source) : Option Bytes :=
  server.files.lookup (source.id, purePathName source.filename)

structure Server.Archives (sha256 : Bytes → Str) (handed : List Original) (server : Server) :
    Prop where
  stored : ∀ entry ∈ server.files, entry ∈ handed
  known : ∀ original ∈ handed, original.1.1.stream < server.clock
  pinned : ∀ original ∈ handed, server.database.Pins original.1.1 (sha256 original.2)
  queued : ∀ source ∈ server.database.sources, source.ingestStatus = .pending →
    source.batchId ≠ none → (server.original source).isSome

namespace Request

variable {server server' : Server} {sha256 : Bytes → Str} {request : Request}
  {events : List Event} {originals : List Original}

theorem Stores.pinned (hstores : Stores server request events originals) (hsound : server.Sound)
    (hfollows : server.Follows server' events) (hhashes : request.Hashes sha256) :
    ∀ original ∈ originals, original.1.1.stream < server'.clock ∧
      server'.database.Pins original.1.1 (sha256 original.2) := by
  have hadmissible := hfollows.admissible
  have hpast := hfollows.sound.past
  have hdatabase := hfollows.database
  cases hstores with
  | kept hstep hrefused => exact fun _ horiginal => absurd horiginal List.not_mem_nil
  | @uploaded rt user collectionId kind filename fileBytes metadata collection existing id documentId now
      source out hcollection howned hexisting hsource =>
    obtain rfl : rt.sha256 = sha256 := hhashes
    refine List.forall_mem_singleton.mpr ?_
    obtain ⟨hcid, hhash⟩ := admitted_content hexisting filename none id now
    rw [← hsource] at hcid hhash
    have hput : source.withStatus .completed ∈
        (Event.play [admission existing source, .complete source collection out]
          server.database).sources := Database.mem_putSource hadmissible.2.1.1 rfl
    have hsame : (Event.play [admission existing source, .complete source collection out]
        server.database).kbCollections = server.database.kbCollections := by
      cases existing <;> rfl
    rw [← hdatabase] at hput hsame
    obtain ⟨hmem, hid⟩ := Table.get?_eq_some_iff.mp hcollection
    have huser : collection.userId ≠ none := howned.userId ▸ Option.some_ne_none user
    have howned' : server'.database.Owned (source.withStatus .completed).collectionId :=
      ⟨collection, hsame ▸ hmem, hid.trans hcid.symm, huser⟩
    have hknown := hpast.sources _ hput
    have hpins := Database.pins_of_mem hput howned'
    change server'.database.Pins source.id source.contentHash at hpins
    rw [hhash] at hpins
    exact ⟨hknown, hpins⟩
  | @saved rt _ _ _ _ _ _ _ _ haccepted hlands =>
    obtain rfl : rt.sha256 = sha256 := hhashes
    intro original horiginal
    obtain ⟨pair, hpair, rfl⟩ := mem_originalsOf.mp horiginal
    have hmem := haccepted.adoptions.mem hadmissible.2 pair.1 (List.of_mem_zip hpair).1
    have hpins := haccepted.pinned hadmissible _ horiginal
    rw [← hdatabase] at hpins
    refine ⟨hpast.sources pair.1 ?_, hpins⟩
    rw [hdatabase]
    exact hmem
  | @undone rt _ _ _ _ _ _ _ _ haccepted hundone hdrawn hlands =>
    obtain rfl : rt.sha256 = sha256 := hhashes
    rw [hdatabase, hfollows.clock]
    exact haccepted.pinned_undone hundone hsound.past hdrawn

theorem Stores.honest (hstores : Stores server request events originals) :
    History.Admissible Event.apply Event.Honest events server.database := by
  cases hstores with
  | kept hstep hrefused => exact hstep.honest
  | @uploaded rt user collectionId kind filename fileBytes metadata collection existing id documentId now
      source out hcollection howned hexisting hsource =>
    have hsettled : History.Admissible Event.apply Event.Honest
        (settled [admission existing source] source collection (.ok out)) server.database := by
      apply honest_settled
      rintro stored hstored
      rw [Option.mem_def.mp hstored] at hsource
      rw [hsource]
      rfl
    exact hsettled
  | saved haccepted hlands => exact ⟨trivial, haccepted.adoptions.honest⟩
  | undone => trivial

theorem Stores.queued (hstores : Stores server request events originals)
    (hadmissible : Event.Admissible events server.database)
    {source : Source} (hsource : source ∈ (Event.play events server.database).sources)
    (hpending : source.ingestStatus = .pending) (hbatch : source.batchId ≠ none) :
    (∃ old ∈ server.database.sources, old.Leads source) ∨
      ∀ files : Files, ((files.receiveAll request.saveFault 0 originals).lookup
        (source.id, purePathName source.filename)).isSome := by
  cases hstores with
  | kept hstep hrefused =>
    exact Or.inl (hstep.recedes hadmissible hrefused source hsource hpending hbatch)
  | @uploaded rt user collectionId kind filename fileBytes metadata collection existing id documentId now
      source' out hcollection howned hexisting hsource' =>
    have hrecedes : server.database.Recedes (Event.play
        (settled [admission existing source'] source' collection (.ok out)) server.database) :=
      Database.recedes_settled hadmissible
    exact Or.inl (hrecedes source hsource hpending hbatch)
  | @saved rt user collectionId kind metadata uploads batch sources groups haccepted hlands =>
    rcases haccepted.adoptions.mem_cases hadmissible.2 hsource with hsource | hold
    · obtain ⟨upload, hpair⟩ := exists_mem_zip haccepted.adoptions.length_eq hsource
      have horiginal : ((source.id, purePathName source.filename), upload.fileBytes) ∈
          originalsOf sources uploads := mem_originalsOf.mpr ⟨_, hpair, rfl⟩
      right
      intro files
      apply Files.isSome_lookup_received horiginal
      intro i hi
      rw [originalsOf, List.length_map, List.length_zip, haccepted.adoptions.length_eq,
        Nat.min_self] at hi
      rw [Nat.zero_add]
      exact hlands.1 i hi
    · exact Or.inl ⟨source, hold, .refl hpending⟩
  | undone => exact Or.inl ⟨source, hsource, .refl hpending⟩

theorem archives_perform {held : List Original} (hsound : server.Sound)
    (harchives : server.Archives sha256 held) (hhashes : request.Hashes sha256)
    (hwhole : request.Whole server) :
    (request.perform server).Sound ∧
      (request.perform server).Archives sha256 (held ++ request.originals server) := by
  obtain ⟨events, hfollows, hfiles, hstores⟩ := steps hsound request
  have hpinned := hstores.pinned hsound hfollows hhashes
  refine ⟨hfollows.sound, ?_, ?_, ?_, ?_⟩
  · intro entry hentry
    rw [hfiles] at hentry
    rcases Files.mem_receiveAll_whole hwhole hentry with hold | hnew
    · exact List.mem_append_left _ (harchives.stored entry hold)
    · exact List.mem_append_right _ hnew
  · intro original horiginal
    rcases List.mem_append.mp horiginal with hold | hnew
    · rw [hfollows.clock]
      exact Nat.lt_succ_of_lt (harchives.known original hold)
    · exact (hpinned original hnew).1
  · intro original horiginal
    rcases List.mem_append.mp horiginal with hold | hnew
    · rw [hfollows.database]
      apply (harchives.pinned original hold).play hfollows.admissible hstores.honest
      intro e he hnew
      exact absurd (hfollows.drawn e he _ hnew) (harchives.known original hold).ne
    · exact (hpinned original hnew).2
  · intro source hsource hpending hbatch
    rw [Server.original, hfiles]
    rw [hfollows.database] at hsource
    rcases hstores.queued hfollows.admissible hsource hpending hbatch with
      ⟨old, hold, hleads⟩ | hstored
    · have hbefore := harchives.queued old hold hleads.pending (hleads.batchId_eq ▸ hbatch)
      rw [Server.original, hleads.id_eq, hleads.filename_eq] at hbefore
      exact Files.isSome_lookup_receiveAll hbefore
    · exact hstored server.files

theorem archives_performAll {requests : List Request} {held : List Original} (hsound : server.Sound)
    (harchives : server.Archives sha256 held) (hhashes : ∀ request ∈ requests, request.Hashes sha256)
    (hwhole : History.Admissible perform Whole requests server) :
    (performAll requests server).Archives sha256 (held ++ handed requests server) := by
  induction requests generalizing server held with
  | nil =>
    rw [handed, List.append_nil]
    exact harchives
  | cons request requests ih =>
    obtain ⟨hhead, hrest⟩ := List.forall_mem_cons.mp hhashes
    obtain ⟨hsound', harchives'⟩ := archives_perform hsound harchives hhead hwhole.1
    rw [handed, ← List.append_assoc]
    exact ih hsound' harchives' hrest hwhole.2

theorem archives_empty (users : List Uuid) : (Server.empty users).Archives sha256 [] where
  stored _ h := absurd h List.not_mem_nil
  known _ h := absurd h List.not_mem_nil
  pinned _ h := absurd h List.not_mem_nil
  queued _ h := absurd h (Table.not_mem_empty _)

theorem performAll_originals {users : List Uuid} {requests : List Request}
    (hhashes : ∀ request ∈ requests, request.Hashes sha256)
    (hwhole : History.Admissible perform Whole requests (.empty users)) :
    let server := performAll requests (.empty users)
    ∀ source ∈ server.database.sources,
      (∀ content ∈ server.original source, sha256 content = source.contentHash) ∧
        (source.ingestStatus = .pending → source.batchId ≠ none →
          ∃ content ∈ server.original source, sha256 content = source.contentHash ∧
            ((source.id, purePathName source.filename), content) ∈
              handed requests (.empty users)) := by
  intro server source hsource
  have harchives : server.Archives sha256 (handed requests (.empty users)) :=
    archives_performAll (.empty users) (archives_empty users) hhashes hwhole
  have hstored : ∀ content ∈ server.original source,
      ((source.id, purePathName source.filename), content) ∈ handed requests (.empty users) :=
    fun content hcontent => harchives.stored _ (mem_of_lookup hcontent)
  have hhash : ∀ content ∈ server.original source, sha256 content = source.contentHash :=
    fun content hcontent =>
      (harchives.pinned _ (hstored content hcontent) source hsource rfl).1.symm
  refine ⟨hhash, fun hpending hbatch => ?_⟩
  obtain ⟨content, hcontent⟩ :=
    Option.isSome_iff_exists.mp (harchives.queued source hsource hpending hbatch)
  exact ⟨content, hcontent, hhash content hcontent, hstored content hcontent⟩

def sampleCollection : Request :=
  operation (.createPrivateCollection Runtime.reliable sampleUser .rule "house".toList)

def sampleUpload (saveFault : Nat → Option SaveFault) : Request :=
  uploadFile { Runtime.reliable with saveFault } sampleUser sampleCollectionId .rule
    "guide.txt".toList [103, 111] []

theorem performAll_originals_stored :
    let requests := [sampleCollection, sampleUpload fun _ => none, operation .sampleBatch]
    let server := performAll requests (.empty [sampleUser])
    ∀ source ∈ server.database.sources,
      (∀ content ∈ server.original source,
        Runtime.reliable.sha256 content = source.contentHash) ∧
        (source.ingestStatus = .pending → source.batchId ≠ none →
          ∃ content ∈ server.original source,
            Runtime.reliable.sha256 content = source.contentHash ∧
              ((source.id, purePathName source.filename), content) ∈
                handed requests (.empty [sampleUser])) := by
  apply performAll_originals
  · exact List.forall_mem_cons.mpr ⟨trivial, List.forall_mem_cons.mpr ⟨rfl,
      List.forall_mem_singleton.mpr rfl⟩⟩
  · decide +kernel

def diskFull : SaveFault where
  exn := { errorClass := .osError, message := "No space left on device".toList }
  written := some 1

theorem originals_of_diskFull :
    ¬ ∀ source ∈ (performAll [sampleCollection, sampleUpload fun _ => some diskFull]
        (.empty [sampleUser])).database.sources.rows,
      ∀ content ∈ (performAll [sampleCollection, sampleUpload fun _ => some diskFull]
        (.empty [sampleUser])).original source,
        Runtime.reliable.sha256 content = source.contentHash := by
  decide +kernel

end Request

end YCStudio
