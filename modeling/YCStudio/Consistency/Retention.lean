import YCStudio.Consistency.Reuploads

namespace YCStudio

def Event.Retains (sourceId collectionId : Uuid) : Event → Database → Prop
  | reopen source _, db =>
      isReingestable source = true ∨
        ∃ collection ∈ db.kbCollections, collection.id = source.collectionId ∧
          collection.userId = none
  | remove source _, _ => source.id ≠ sourceId
  | dropCollection id, _ => id ≠ collectionId
  | _, _ => True

structure Source.Finished (source : Source) (collection : Collection) : Prop where
  completed : source.ingestStatus = .completed
  live : source.deletedAt = none
  collectionId : collection.id = source.collectionId
  owned : collection.userId ≠ none

theorem Collection.OwnedBy.owner_unique {collection : Collection} {user user' : Uuid}
    (h : collection.OwnedBy user) (h' : collection.OwnedBy user') : user = user' :=
  Option.some.inj (h.userId.symm.trans h'.userId)

def Source.inBatch (source : Source) (batchId : Option Uuid) : Source :=
  { source with batchId }

theorem Source.Finished.not_reingestable {source : Source} {collection : Collection}
    (h : source.Finished collection) : isReingestable source = false := by
  simp [isReingestable, h.live, h.completed]

namespace Database

structure Exhibits (db : Database) (collection : Collection) (source : Source) (out : Ingested) :
    Prop where
  stored : ∃ batchId, source.inBatch batchId ∈ db.sources
  collection_mem : collection ∈ db.kbCollections
  yields : db.Yields source.id out

variable {db db' : Database} {collection : Collection} {source : Source} {out : Ingested}
  (hfinished : source.Finished collection)

include hfinished

theorem Exhibits.of_resembles (h : db.Exhibits collection source out) (hsettled : db.Settled)
    (hcollection : collection ∈ db'.kbCollections) {batchId batchId' : Option Uuid}
    (hstored : source.inBatch batchId ∈ db.sources)
    (hstored' : source.inBatch batchId' ∈ db'.sources)
    (hsame : db.Resembles db' (source.inBatch batchId)) : db'.Exhibits collection source out := by
  have hyields : db.Yields (source.inBatch batchId).id out := h.yields
  have hyields' := hyields.of_resembles (hsettled _ hstored) hfinished.completed hfinished.live hsame
  exact ⟨⟨batchId', hstored'⟩, hcollection, hyields'⟩

theorem Exhibits.of_agreesOff (h : db.Exhibits collection source out) (hsettled : db.Settled)
    {sourceId : Uuid} (hagrees : db.AgreesOff db' sourceId)
    (hcollections : db'.kbCollections = db.kbCollections) (hne : source.id ≠ sourceId) :
    db'.Exhibits collection source out := by
  obtain ⟨batchId, hstored⟩ := h.stored
  have hne' : (source.inBatch batchId).id ≠ sourceId := hne
  exact h.of_resembles hfinished hsettled (hcollections ▸ h.collection_mem) hstored
    ((hagrees.mem_sources hne').mpr hstored) (hagrees.resembles hcollections hne')

theorem Exhibits.id_ne_of_pending (h : db.Exhibits collection source out) {row : Source}
    (hrow : row ∈ db.sources) (hpending : row.ingestStatus = .pending) : source.id ≠ row.id := by
  obtain ⟨batchId, hstored⟩ := h.stored
  intro hid
  rw [← Table.eq_of_key_eq hstored hrow hid] at hpending
  cases hfinished.completed.symm.trans hpending

theorem Exhibits.id_ne_of_reingestable (h : db.Exhibits collection source out) {row : Source}
    (hrow : row ∈ db.sources) (hreingestable : isReingestable row = true) : source.id ≠ row.id := by
  obtain ⟨batchId, hstored⟩ := h.stored
  intro hid
  rw [← Table.eq_of_key_eq hstored hrow hid] at hreingestable
  cases hfinished.not_reingestable.symm.trans hreingestable

theorem Exhibits.id_ne_of_ownerless (h : db.Exhibits collection source out) {row : Source}
    (hrow : row ∈ db.sources) {other : Collection} (hother : other ∈ db.kbCollections)
    (hcid : other.id = row.collectionId) (hnobody : other.userId = none) : source.id ≠ row.id := by
  obtain ⟨batchId, hstored⟩ := h.stored
  intro hid
  rw [← Table.eq_of_key_eq hstored hrow hid] at hcid
  have hsame := Table.eq_of_key_eq hother h.collection_mem (hcid.trans hfinished.collectionId.symm)
  exact hfinished.owned (hsame ▸ hnobody)

theorem Exhibits.apply (h : db.Exhibits collection source out) (hsettled : db.Settled) {e : Event}
    (henabled : e.Enabled db) (hretains : e.Retains source.id collection.id db) :
    (e.apply db).Exhibits collection source out := by
  obtain ⟨batchId, hstored⟩ := h.stored
  have hother : ∀ sourceId, e.sourceId = some sourceId → source.id ≠ sourceId →
      (e.apply db).kbCollections = db.kbCollections →
        (e.apply db).Exhibits collection source out :=
    fun _ hid hne hsame => h.of_agreesOff hfinished hsettled (.apply henabled hid) hsame hne
  cases e with
  | addCollection added =>
    exact ⟨h.stored, Table.subset_insert _ _ h.collection_mem, h.yields.documents, h.yields.chunks⟩
  | addBatch batch => exact ⟨h.stored, h.collection_mem, h.yields.documents, h.yields.chunks⟩
  | addSource added =>
    have hne : (source.inBatch batchId).id ≠ added.id := henabled.1 _ hstored
    exact hother added.id rfl hne rfl
  | reopen row assigned =>
    refine hother row.id rfl ?_ rfl
    rcases hretains with hreingestable | ⟨other, hmem, hcid, hnobody⟩
    · exact h.id_ne_of_reingestable hfinished henabled.1 hreingestable
    · exact h.id_ne_of_ownerless hfinished henabled.1 hmem hcid hnobody
  | assignBatch row batch =>
    exact hother row.id rfl (h.id_ne_of_pending hfinished henabled.1 henabled.2.1.pending) rfl
  | complete row other made =>
    exact hother row.id rfl (h.id_ne_of_pending hfinished henabled.1 henabled.2.1) rfl
  | fail row errorMessage =>
    exact hother row.id rfl (h.id_ne_of_pending hfinished henabled.1 henabled.2.1) rfl
  | remove row deletedAt => exact hother row.id rfl (Ne.symm hretains) rfl
  | dropCollection id =>
    have hkept : source.collectionId ≠ id := hfinished.collectionId ▸ Ne.symm hretains
    have hrow := mem_sources_dropCollection.mpr ⟨_, hstored, hkept, rfl⟩
    exact h.of_resembles hfinished hsettled (Table.mem_erase.mpr ⟨h.collection_mem, Ne.symm hretains⟩)
      hstored hrow (resembles_dropCollection hstored hkept)

theorem Exhibits.play (h : db.Exhibits collection source out) (hintact : db.Intact)
    (hsettled : db.Settled) {events : List Event} (hadmissible : Event.Admissible events db)
    (hretains : History.Admissible Event.apply (Event.Retains source.id collection.id) events db) :
    (Event.play events db).Exhibits collection source out := by
  induction events generalizing db with
  | nil => exact h
  | cons e events ih =>
    exact ih (h.apply hfinished hsettled hadmissible.1 hretains.1) (hintact.apply hadmissible.1)
      (hsettled.apply hintact hadmissible.1) hadmissible.2 hretains.2

end Database

section Steps

variable {rt : Runtime} {db : Database} {events : List Event} {sourceId collectionId : Uuid}

theorem SeedStep.retains {collection : Collection} {file : SeedFile} {existing : Option Source}
    {r : Except Exn SeedOutcome} (h : SeedStep rt db collection file existing r events)
    (hcollection : collection ∈ db.kbCollections) (hnobody : collection.userId = none)
    (hexisting : ∀ source ∈ existing, source.collectionId = collection.id) :
    History.Admissible Event.apply (Event.Retains sourceId collectionId) events db := by
  cases h with
  | created => exact ⟨trivial, trivial, trivial⟩
  | @updated source =>
    exact ⟨Or.inr ⟨collection, hcollection, (hexisting source rfl).symm, hnobody⟩, trivial, trivial⟩
  | _ => trivial

theorem LibraryStep.retains {tree : SeedTree} {library : SeedLibrary}
    {r : Except Exn (Bool × List SeedOutcome)} (h : LibraryStep rt tree library db r events) :
    History.Admissible Event.apply (Event.Retains sourceId collectionId) events db := by
  cases h with
  | @seeded files collection created outcomes events events' dict hfiles hcollection hdict hsteps =>
    obtain ⟨hmem, hnobody⟩ := hcollection.ownerless
    have hindex : ∀ path, ∀ source ∈ dict.lookup path, source.collectionId = collection.id := by
      intro path source hsource
      have hpaths := indexes_of_sourcesByFilename hdict [path]
      exact (hpaths path List.mem_cons_self source hsource).2.2
    have hfirst : History.Admissible Event.apply (Event.Retains sourceId collectionId) events db := by
      cases hcollection with
      | existing => trivial
      | created => exact ⟨trivial, trivial⟩
    have hstep : ∀ (db' : Database) (file : SeedFile) (r : Except Exn SeedOutcome)
        (seeded : List Event), collection ∈ db'.kbCollections →
        SeedStep rt db' collection file (dict.lookup file.relativePath) r seeded →
          History.Admissible Event.apply (Event.Retains sourceId collectionId) seeded db' ∧
            collection ∈ (Event.play seeded db').kbCollections := by
      intro db' file r seeded hmem' hstep
      refine ⟨hstep.retains hmem' hnobody (hindex file.relativePath), ?_⟩
      rw [hstep.kbCollections_eq]
      exact hmem'
    exact hfirst.append (hsteps.admissible_of hstep hmem)
  | _ => trivial

theorem UploadStep.retains {user : Uuid} {target : Uuid} {filename : Str} {fileBytes : Bytes}
    {metadata : List (Str × Str)} {result : Except Exn IngestResult}
    (h : UploadStep rt db user target filename fileBytes metadata result events) :
    History.Admissible Event.apply (Event.Retains sourceId collectionId) events db := by
  cases h with
  | @attempted _ collection existing id documentId now source outcome hcollection howned hexisting
      hadmissible =>
    have hadmission : ∀ db, (admission existing source).Retains sourceId collectionId db := by
      intro db
      cases existing with
      | none => trivial
      | some stored =>
        have hdropped := Option.filter_eq_none_iff.mp hadmissible stored rfl
        left
        simpa using hdropped
    apply History.Admissible.of_forall
    exact forall_settled (List.forall_mem_singleton.mpr hadmission) (fun _ _ _ => trivial)
      fun _ _ => trivial
  | _ => trivial

theorem Adoptions.retains {batch : IngestBatch} {uploads : List PendingUpload}
    {sources : List Source} {groups : List (List Event)}
    (h : Adoptions rt batch db uploads sources groups) :
    History.Admissible Event.apply (Event.Retains sourceId collectionId) groups.flatten db := by
  induction h with
  | nil => trivial
  | cons head tail ih =>
    refine History.Admissible.append ?_ ih
    cases head with
    | added => exact ⟨trivial, trivial⟩
    | reopened _ _ hreingestable => exact ⟨Or.inl hreingestable, trivial, trivial⟩

end Steps

def Request.Deletes (user sourceId collectionId : Uuid) : Request → Prop
  | operation (.deleteSource _ principal id) => principal = user ∧ id = sourceId
  | operation (.deleteCollection principal id) => principal = user ∧ id = collectionId
  | _ => False

section Requests

variable {server : Server} {collection : Collection} {source : Source} {out : Ingested}
  {user : Uuid} (hsound : server.Sound) (hfinished : source.Finished collection)
  (hexhibits : server.database.Exhibits collection source out)

include hsound

include hfinished hexhibits

variable (howned : collection.OwnedBy user)

include howned

omit hsound in
theorem Database.Exhibits.same_owner {principal : Uuid} {other : Collection} {row : Source}
    (hrow : row ∈ server.database.sources) (hid : row.id = source.id)
    (hother : server.database.kbCollections.get? row.collectionId = some other)
    (howned' : other.OwnedBy principal) : principal = user := by
  obtain ⟨batchId, hstored⟩ := hexhibits.stored
  obtain ⟨hmem, hcid⟩ := Table.get?_eq_some_iff.mp hother
  rw [Table.eq_of_key_eq hrow hstored hid] at hcid
  obtain rfl := Table.eq_of_key_eq hmem hexhibits.collection_mem
    (hcid.trans hfinished.collectionId.symm)
  exact howned'.owner_unique howned

theorem Operation.retained {op : Operation}
    (hkept : ¬ (Request.operation op).Deletes user source.id collection.id) :
    ∃ events, server.Follows (op.perform server) events ∧
      History.Admissible Event.apply (Event.Retains source.id collection.id) events
        server.database := by
  obtain ⟨events, hfollows, hstep⟩ := Operation.steps hsound op
  cases hstep with
  | idle => exact ⟨_, hfollows, trivial⟩
  | created => exact ⟨_, hfollows, trivial, trivial⟩
  | uploaded hresult hstep => exact ⟨_, hfollows, hstep.retains⟩
  | batched hresult haccepted => exact ⟨_, hfollows, trivial, haccepted.adoptions.retains⟩
  | worked hstep =>
    refine ⟨_, hfollows, ?_⟩
    cases hstep <;> trivial
  | seeded hrun => exact ⟨_, hfollows, hrun.admissible fun _ _ _ _ hstep => hstep.retains⟩
  | @removed rt principal row =>
    obtain ⟨events, hends, hshape⟩ := deleteSource_ends hsound.ready rt principal row.id
    refine ⟨events, hsound.transact hends, ?_⟩
    rcases hshape with rfl | ⟨row', other, hrow, hid, hother, howned', rfl⟩
    · trivial
    · refine ⟨fun hsame => hkept ⟨?_, hid.symm.trans hsame⟩, trivial⟩
      exact hexhibits.same_owner hfinished howned hrow hsame hother howned'
  | @dropped principal collectionId other hother howned' =>
    refine ⟨_, hfollows, fun hsame => hkept ⟨?_, hsame⟩, trivial⟩
    obtain ⟨hmem, hcid⟩ := Table.get?_eq_some_iff.mp hother
    obtain rfl := Table.eq_of_key_eq hmem hexhibits.collection_mem (hcid.trans hsame)
    exact howned'.owner_unique howned

end Requests

end YCStudio
