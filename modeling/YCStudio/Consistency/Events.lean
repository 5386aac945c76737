import YCStudio.Library.History
import YCStudio.Services.PipelineRun

namespace YCStudio

inductive Event where
  | addCollection (collection : Collection)
  | addBatch (batch : IngestBatch)
  | addSource (source : Source)
  | reopen (source assigned : Source)
  | assignBatch (source : Source) (batchId : Uuid)
  | complete (source : Source) (collection : Collection) (out : Ingested)
  | fail (source : Source) (errorMessage : Str)
  | remove (source : Source) (deletedAt : Timestamp)
  | dropCollection (id : Uuid)

namespace Event

def apply : Event → Database → Database
  | addCollection collection, db => db.addCollection collection
  | addBatch batch, db => db.addBatch batch
  | addSource source, db => db.addSource source
  | reopen source assigned, db => (db.dropDocuments [source.id]).putSource assigned
  | assignBatch source batchId, db => db.putSource (source.withBatch batchId)
  | complete source _ out, db => db.complete source out
  | fail source errorMessage, db => db.putSource (source.fail errorMessage)
  | remove source deletedAt, db => db.removeSource source deletedAt
  | dropCollection id, db => db.dropCollection id

structure Admits (source : Source) : Prop where
  pending : source.ingestStatus = .pending
  errorMessage : source.errorMessage = none
  deletedAt : source.deletedAt = none

def BatchIn (db : Database) (batchId collectionId : Uuid) : Prop :=
  ∃ batch ∈ db.ingestBatches, batch.id = batchId ∧ batch.collectionId = collectionId

theorem BatchIn.exists {db : Database} {batchId collectionId : Uuid}
    (h : BatchIn db batchId collectionId) : ∃ batch ∈ db.ingestBatches, batch.id = batchId := by
  obtain ⟨batch, hbatch, hid, _⟩ := h
  exact ⟨batch, hbatch, hid⟩

def Enabled : Event → Database → Prop
  | addCollection collection, db =>
      db.kbCollections.Fresh collection.id ∧ (∀ user ∈ collection.userId, user ∈ db.users) ∧
        ¬ db.sameOwnerKindName collection ∧
        (collection.scope = .public ↔ collection.userId = none)
  | addBatch batch, db =>
      db.ingestBatches.Fresh batch.id ∧
        ∃ collection ∈ db.kbCollections, collection.id = batch.collectionId ∧
          collection.userId = some batch.userId
  | addSource source, db =>
      db.sources.Fresh source.id ∧ Admits source ∧ ¬ db.sameContent source ∧
        (∃ collection ∈ db.kbCollections, collection.id = source.collectionId) ∧
        ∀ id ∈ source.batchId, BatchIn db id source.collectionId
  | reopen source assigned, db =>
      source ∈ db.sources ∧ Admits assigned ∧ ¬ db.sameContent assigned ∧
        assigned.id = source.id ∧ assigned.collectionId = source.collectionId ∧
        assigned.batchId = source.batchId
  | assignBatch source batchId, db =>
      source ∈ db.sources ∧ Admits source ∧ BatchIn db batchId source.collectionId
  | complete source collection out, db =>
      source ∈ db.sources ∧ source.ingestStatus = .pending ∧ collection ∈ db.kbCollections ∧
        collection.id = source.collectionId ∧ db.documents.Fresh out.document.id ∧
        out.WellFormed source collection out.document.id ∧
        (db.addDocument out.document).Accepts out.chunks
  | fail source errorMessage, db =>
      source ∈ db.sources ∧ source.ingestStatus = .pending ∧ errorMessage.length ≤ 500
  | remove source _, db => source ∈ db.sources
  | dropCollection _, _ => True

def newIds : Event → List Uuid
  | addCollection collection => [collection.id]
  | addBatch batch => [batch.id]
  | addSource source => [source.id]
  | complete _ _ out => out.document.id :: out.chunks.map Chunk.id
  | _ => []

abbrev play (events : List Event) (db : Database) : Database := History.play apply events db

abbrev Admissible (events : List Event) (db : Database) : Prop :=
  History.Admissible apply Enabled events db

end Event

namespace Database

variable {db : Database}

theorem Intact.putStored (h : db.Intact) {source assigned : Source} (hsource : source ∈ db.sources)
    (hid : assigned.id = source.id) (hcollection : assigned.collectionId = source.collectionId)
    (hhash : assigned.contentHash = source.contentHash) (hbatch : assigned.batchId = source.batchId) :
    (db.putSource assigned).Intact := by
  apply h.putSource hsource hid hcollection
  · rw [hbatch]
    exact h.sourceBatches source hsource
  · exact h.not_sameContent hsource hid hcollection hhash

theorem Intact.complete (h : db.Intact) {source : Source} {collection : Collection} {out : Ingested}
    (henabled : Event.Enabled (.complete source collection out) db) :
    (db.complete source out).Intact := by
  obtain ⟨hsource, _, _, _, hfresh, hwell, haccepts⟩ := henabled
  have hput : (db.putSource (source.withStatus .completed)).Intact :=
    h.putStored hsource rfl rfl rfl rfl
  have hmem : source.withStatus .completed ∈
      (db.putSource (source.withStatus .completed)).sources := mem_putSource hsource rfl
  have hdocument : ((db.putSource (source.withStatus .completed)).addDocument out.document).Intact :=
    hput.addDocument hfresh ⟨_, hmem, hwell.sourceId_eq.symm⟩
  exact hdocument.addChunks (haccepts.putSource _)

theorem Intact.remove (h : db.Intact) {source : Source} (hsource : source ∈ db.sources)
    (deletedAt : Timestamp) : (db.removeSource source deletedAt).Intact := by
  have hsoft := (h.eraseChunks ((db.documentsOf source.id).map Document.id)).softDelete
    ((db.documentsOf source.id).map Document.id) deletedAt
  exact hsoft.putStored hsource rfl rfl rfl rfl

theorem Intact.apply (h : db.Intact) {e : Event} (henabled : e.Enabled db) : (e.apply db).Intact := by
  cases e with
  | addCollection collection =>
    obtain ⟨hfresh, howner, hname, _⟩ := henabled
    exact h.addCollection hfresh howner hname
  | addBatch batch =>
    obtain ⟨hfresh, collection, hcollection, hid, _⟩ := henabled
    exact h.addBatch hfresh ⟨collection, hcollection, hid⟩
  | addSource source =>
    obtain ⟨hfresh, _, hcontent, hcollection, hbatch⟩ := henabled
    exact h.addSource hfresh hcollection (fun id hid => (hbatch id hid).exists) hcontent
  | reopen source assigned =>
    obtain ⟨hsource, _, hcontent, hid, hcollection, hbatch⟩ := henabled
    apply (h.dropDocuments [source.id]).putSource hsource hid hcollection
    · rw [hbatch]
      exact h.sourceBatches source hsource
    · exact hcontent
  | assignBatch source batchId =>
    obtain ⟨hsource, _, hbatch⟩ := henabled
    refine h.putSource hsource rfl rfl ?_ (h.not_sameContent hsource rfl rfl rfl)
    rintro id hid
    obtain rfl : batchId = id := Option.some.inj hid
    exact hbatch.exists
  | complete source collection out => exact h.complete henabled
  | fail source errorMessage => exact h.putStored henabled.1 rfl rfl rfl rfl
  | remove source deletedAt => exact h.remove henabled deletedAt
  | dropCollection id => exact h.dropCollection id

theorem Intact.play (h : db.Intact) {events : List Event} (hadmissible : Event.Admissible events db) :
    (Event.play events db).Intact :=
  History.preserved (fun _ _ hinv henabled => hinv.apply henabled) h hadmissible

section Ids

variable {p : Uuid → Prop}

theorem Ids.putSource (h : db.Ids p) {source assigned : Source} (hsource : source ∈ db.sources)
    (hid : assigned.id = source.id) : (db.putSource assigned).Ids p :=
  { h with
    sources := by
      intro row hrow
      rcases (Table.mem_put_of_mem hsource hid.symm).mp hrow with rfl | ⟨hrow, _⟩
      · exact hid ▸ h.sources source hsource
      · exact h.sources row hrow }

theorem Ids.dropDocuments (h : db.Ids p) (sourceIds : List Uuid) :
    (db.dropDocuments sourceIds).Ids p :=
  { h with
    documents := fun row hrow => h.documents row (mem_dropDocuments.mp hrow).1
    chunks := fun row hrow => h.chunks row (mem_chunks_dropDocuments.mp hrow).1 }

theorem Ids.remove (h : db.Ids p) {source : Source} (hsource : source ∈ db.sources)
    (deletedAt : Timestamp) : (db.removeSource source deletedAt).Ids p where
  collections := h.collections
  batches := h.batches
  sources row hrow := by
    have hput : (db.putSource (source.softDelete deletedAt)).Ids p := h.putSource hsource rfl
    exact hput.sources row hrow
  documents row hrow := by
    obtain ⟨old, hold, rfl⟩ := mem_softDelete.mp hrow
    split <;> exact h.documents old hold
  chunks row hrow := h.chunks row (Table.mem_erase.mp hrow).1

theorem Ids.dropCollection (h : db.Ids p) (id : Uuid) : (db.dropCollection id).Ids p where
  collections row hrow := h.collections row (Table.mem_erase.mp hrow).1
  batches row hrow := h.batches row (Table.mem_erase.mp hrow).1
  sources row hrow := by
    obtain ⟨old, hold, _, rfl⟩ := mem_sources_dropCollection.mp hrow
    exact h.sources old hold
  documents row hrow := h.documents row (mem_dropDocuments.mp hrow).1
  chunks row hrow :=
    h.chunks row (mem_chunks_dropDocuments.mp (Table.mem_erase.mp hrow).1).1

theorem Ids.apply (h : db.Ids p) {e : Event} (henabled : e.Enabled db)
    (hnew : ∀ id ∈ e.newIds, p id) : (e.apply db).Ids p := by
  cases e with
  | addCollection collection =>
    refine { h with collections := fun row hrow => ?_ }
    rcases (Table.mem_insert henabled.1).mp hrow with hrow | rfl
    · exact h.collections row hrow
    · exact hnew _ List.mem_cons_self
  | addBatch batch =>
    refine { h with batches := fun row hrow => ?_ }
    rcases (Table.mem_insert henabled.1).mp hrow with hrow | rfl
    · exact h.batches row hrow
    · exact hnew _ List.mem_cons_self
  | addSource source =>
    refine { h with sources := fun row hrow => ?_ }
    rcases (Table.mem_insert henabled.1).mp hrow with hrow | rfl
    · exact h.sources row hrow
    · exact hnew _ List.mem_cons_self
  | reopen source assigned =>
    exact (h.dropDocuments [source.id]).putSource henabled.1 henabled.2.2.2.1
  | assignBatch source batchId => exact h.putSource henabled.1 rfl
  | complete source collection out =>
    obtain ⟨hsource, _, _, _, hfresh, _, haccepts⟩ := henabled
    have hput : (db.putSource (source.withStatus .completed)).Ids p := h.putSource hsource rfl
    refine { hput with documents := fun row hrow => ?_, chunks := fun row hrow => ?_ }
    · rcases (Table.mem_insert hfresh).mp hrow with hrow | rfl
      · exact h.documents row hrow
      · exact hnew _ List.mem_cons_self
    · rcases (mem_addChunks haccepts).mp hrow with hrow | hrow
      · exact h.chunks row hrow
      · exact hnew _ (List.mem_cons_of_mem _ (List.mem_map_of_mem hrow))
  | fail source errorMessage => exact h.putSource henabled.1 rfl
  | remove source deletedAt => exact h.remove henabled deletedAt
  | dropCollection id => exact h.dropCollection id

theorem Ids.play (h : db.Ids p) {events : List Event} (hadmissible : Event.Admissible events db)
    (hnew : ∀ e ∈ events, ∀ id ∈ e.newIds, p id) : (Event.play events db).Ids p := by
  induction events generalizing db with
  | nil => exact h
  | cons e events ih =>
    obtain ⟨hfirst, hrest⟩ := List.forall_mem_cons.mp hnew
    exact ih (h.apply hadmissible.1 hfirst) hadmissible.2 hrest

end Ids

end Database

end YCStudio
